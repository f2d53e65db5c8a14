import Tekir.Backend
import Tekir.DiscoverPages
import Tekir.HiddenCats

/-!
# What a block hides

Whoever blocks an account is answered as if its cats, with all that hangs off them, were not
there: by every read, and by every write on a cat. Whoever blocks nobody is answered alike
whatever the others block.
-/
namespace Tekir.BlockTransparency
open Table Schema Statements AccountQueries CatQueries UpdateQueries ReadQueries HiddenCats
  Environment Backend
open ReadServices (Reading discoverRows)

/-- To the viewer the cats that are gone were blocked, and the others stay as visible. -/
structure Unseen (viewer : Option UUID) (gone : UUID → Bool) (db db' : Database) : Prop where
  veiled : Veiled gone db db'
  there : ∀ id, gone id = true → ∃ c ∈ db.tables.cats, c.id = id
  blocked : ∀ c ∈ db.tables.cats, gone c.id = true →
    blocks viewer c.createdByUserId db = true
  kept : ∀ c ∈ db.tables.cats, gone c.id = false →
    blocks viewer c.createdByUserId db' = blocks viewer c.createdByUserId db

section Queries

variable {viewer : Option UUID} {gone : UUID → Bool} {db db' : Database}

theorem Unseen.kept_of_not_blocked (h : Unseen viewer gone db db') {c : Cat}
    (hc : c ∈ db.tables.cats) (hb : blocks viewer c.createdByUserId db = false) :
    gone c.id = false := by
  cases hgone : gone c.id with
  | true =>
    rw [h.blocked c hc hgone] at hb
    cases hb
  | false => rfl

/-- A query that leaves out what the viewer blocks finds the same cats. -/
theorem Unseen.cats (h : Unseen viewer gone db db') {q q' : Cat → Bool}
    (hblocked : ∀ c, blocks viewer c.createdByUserId db = true → q c = false)
    (hkept : ∀ c, blocks viewer c.createdByUserId db' = blocks viewer c.createdByUserId db →
      q' c = q c) :
    db'.tables.cats.filter q' = db.tables.cats.filter q := by
  rw [h.veiled.cats]
  exact filter_deleteWhere (fun c hc hgone => hblocked c (h.blocked c hc hgone))
    fun c hc hgone => hkept c (h.kept c hc hgone)

theorem photoUrl_veiled (h : Veiled gone db db') (c : Cat) : photoUrl c db' = photoUrl c db := by
  rw [photoUrl, h.media, photoUrl]

/-- The newest update of a cat that stays. -/
theorem newestUpdate_veiled (h : Veiled gone db db') {id : UUID} (hid : gone id = false)
    {p p' : Update → Bool} (hp : ∀ u ∈ db.tables.updates, u.catId = id → p' u = p u) :
    newestUpdate id p' db' = newestUpdate id p db := by
  have hrows : (db'.tables.updates.filter fun u => u.catId == id && p' u && u.deletedAt.isNone) =
      db.tables.updates.filter fun u => u.catId == id && p u && u.deletedAt.isNone := by
    rw [h.updates]
    refine filter_deleteWhere (fun u _ hgone => ?_) fun u hu _ => ?_
    · simp [ne_of_gone hgone hid]
    · by_cases hcat : u.catId = id
      · rw [hp u hu hcat]
      · rw [beq_false_of_ne hcat]
        rfl
  rw [newestUpdate, hrows, newestUpdate]

/-- An identifier names one update, so an update that stays is not one that is gone. -/
theorem goneUpdate_kept {u : Update} (hu : u ∈ db.tables.updates) (hcat : gone u.catId = false) :
    goneUpdate gone db.tables.updates u.id = false := by
  refine goneUpdate_eq_false.mpr fun v hv hid => ?_
  rw [(db.valid.holds .updatesPkey).eq_of_key_eq hv hu (congrArg some hid) (by simp)]
  exact hcat

/-- The statuses of an update that stays all stay. -/
theorem status_kept {u : Update} (hu : u ∈ db.tables.updates) (hcat : gone u.catId = false)
    {s : UpdateStatus} (hs : goneUpdate gone db.tables.updates s.updateId = true) :
    s.updateId ≠ u.id := by
  intro hid
  rw [hid, goneUpdate_kept hu hcat] at hs
  cases hs

theorem newestWithStatus_veiled (h : Veiled gone db db') {id : UUID} (hid : gone id = false)
    (status : Status) : newestWithStatus id status db' = newestWithStatus id status db := by
  apply newestUpdate_veiled h hid
  rintro u hu rfl
  rw [h.updateStatuses]
  apply any_deleteWhere _ fun _ _ _ => rfl
  intro s _ hgone
  simp [status_kept hu hid hgone]

theorem listUpdateStatuses_veiled (h : Veiled gone db db') {u : Update}
    (hu : u ∈ db.tables.updates) (hcat : gone u.catId = false) :
    listUpdateStatuses u.id db' = listUpdateStatuses u.id db := by
  rw [listUpdateStatuses, h.updateStatuses, filter_deleteWhere _ fun _ _ _ => rfl,
    listUpdateStatuses]
  intro s _ hgone
  simp [status_kept hu hcat hgone]

theorem markerRow_veiled (h : Veiled gone db db') {c : Cat} (hc : gone c.id = false) :
    markerRow db' c = markerRow db c := by
  rw [markerRow, photoUrl_veiled h, newestUpdate_veiled h hc fun _ _ _ => rfl, markerRow]

theorem Unseen.listed (h : Unseen viewer gone db db') :
    db'.tables.cats.filter (ReadQueries.listed viewer db') =
      db.tables.cats.filter (ReadQueries.listed viewer db) := by
  apply h.cats
  · intro c hb
    simp [ReadQueries.listed, hb]
  · intro c hb
    simp [ReadQueries.listed, hb]

theorem listCatsInBounds_unseen (h : Unseen viewer gone db db') (geo : Geometry)
    (bounds : Bounds) :
    listCatsInBounds geo bounds viewer db' = listCatsInBounds geo bounds viewer db := by
  have hrows : (db'.tables.cats.filter fun c =>
      ReadQueries.listed viewer db' c && geo.overlaps bounds c.area) =
      db.tables.cats.filter fun c =>
        ReadQueries.listed viewer db c && geo.overlaps bounds c.area := by
    refine h.cats (fun c hb => ?_) fun c hb => ?_
    · simp [ReadQueries.listed, hb]
    · simp [ReadQueries.listed, hb]
  rw [listCatsInBounds, hrows, listCatsInBounds]
  apply List.map_congr_left
  intro c hc
  obtain ⟨hmem, hlisted⟩ := List.mem_filter.mp (mem_orderBy.mp hc)
  simp only [ReadQueries.listed, Bool.and_eq_true, Bool.not_eq_true'] at hlisted
  exact markerRow_veiled h.veiled (h.kept_of_not_blocked hmem hlisted.1.2)

theorem listNearbyCatsForDuplicateCheck_unseen (h : Unseen viewer gone db db')
    (dwithin : Point → Bool) :
    listNearbyCatsForDuplicateCheck dwithin viewer db' =
      listNearbyCatsForDuplicateCheck dwithin viewer db := by
  refine h.cats (fun c hb => ?_) fun c hb => ?_
  · simp [hb]
  · simp [hb]

theorem nearbyDuplicates_unseen (h : Unseen viewer gone db db') (geo : Geometry)
    (dwithin : Point → Bool) (point : Point) :
    nearbyDuplicates geo dwithin point viewer db' = nearbyDuplicates geo dwithin point viewer db := by
  rw [nearbyDuplicates, listNearbyCatsForDuplicateCheck_unseen h, nearbyDuplicates]

theorem candidates_unseen (h : Unseen viewer gone db db') (geo : Geometry) (point : Point) :
    candidates geo point viewer db' = candidates geo point viewer db := by
  rw [candidates, h.listed, candidates]
  apply List.map_congr_left
  intro c hc
  obtain ⟨hmem, hlisted⟩ := List.mem_filter.mp hc
  simp only [ReadQueries.listed, Bool.and_eq_true, Bool.not_eq_true'] at hlisted
  rw [markerRow_veiled h.veiled (h.kept_of_not_blocked hmem hlisted.2)]

theorem getCatByID_unseen (h : Unseen viewer gone db db') (id : UUID) :
    getCatByID id viewer db' = getCatByID id viewer db := by
  have hrows : (db'.tables.cats.filter fun c => c.id == id && visible viewer db' c) =
      db.tables.cats.filter fun c => c.id == id && visible viewer db c := by
    refine h.cats (fun c hb => ?_) fun c hb => ?_
    · simp [visible, hb]
    · simp [visible, hb]
  rw [getCatByID, hrows, getCatByID]
  cases hc : one (db.tables.cats.filter fun c => c.id == id && visible viewer db c) with
  | error e => rfl
  | ok c =>
    obtain ⟨hmem, hvisible⟩ := List.mem_filter.mp (one_eq_ok hc)
    simp only [visible, Bool.and_eq_true, Bool.not_eq_true'] at hvisible
    have hkept := h.kept_of_not_blocked hmem hvisible.2.2
    change Except.ok _ = Except.ok _
    rw [photoUrl_veiled h.veiled, newestUpdate_veiled h.veiled hkept fun _ _ _ => rfl,
      newestWithStatus_veiled h.veiled hkept, newestWithStatus_veiled h.veiled hkept,
      newestWithStatus_veiled h.veiled hkept]

theorem catExists_unseen (h : Unseen viewer gone db db') (id : UUID) :
    catExists id viewer db' = catExists id viewer db := by
  rw [catExists, h.veiled.cats]
  refine any_deleteWhere (fun c hc hgone => ?_) fun c hc hgone => ?_
  · simp [visible, h.blocked c hc hgone]
  · simp [visible, h.kept c hc hgone]

/-- A cat that is visible is not gone. -/
theorem Unseen.kept_of_catExists (h : Unseen viewer gone db db') {id : UUID}
    (hid : catExists id viewer db = true) : gone id = false := by
  obtain ⟨c, hc, hvisible⟩ := List.any_eq_true.mp hid
  simp only [visible, Bool.and_eq_true, beq_iff_eq, Bool.not_eq_true'] at hvisible
  rw [← hvisible.1]
  exact h.kept_of_not_blocked hc hvisible.2.2

theorem countCatMedia_veiled (h : Veiled gone db db') {id : UUID} (hid : gone id = false) :
    countCatMedia id db' = countCatMedia id db := by
  rw [countCatMedia, h.catMedia, filter_deleteWhere _ fun _ _ _ => rfl, countCatMedia]
  intro m _ hgone
  simp [ne_of_gone hgone hid]

theorem stillAttached_veiled (h : Veiled gone db db') {m : CatMedium} (hm : gone m.catId = false) :
    stillAttached m db' = stillAttached m db := by
  have hrows : (db'.tables.updates.filter fun u => u.mediaId == some m.mediaId &&
      u.catId == m.catId) =
      db.tables.updates.filter fun u => u.mediaId == some m.mediaId && u.catId == m.catId := by
    rw [h.updates]
    refine filter_deleteWhere (fun u _ hgone => ?_) fun _ _ _ => rfl
    simp [ne_of_gone hgone hm]
  rw [stillAttached, hrows, stillAttached]

theorem catMediaRow_veiled (h : Veiled gone db db') {m : CatMedium} (hm : gone m.catId = false) :
    catMediaRow m db' = catMediaRow m db := by
  have hcat : (db'.tables.cats.find? fun c => c.id == m.catId) =
      db.tables.cats.find? fun c => c.id == m.catId := by
    rw [h.cats]
    apply find?_deleteWhere
    intro c _ hgone
    simp [ne_of_gone hgone hm]
  rw [catMediaRow, h.media, hcat, h.users, catMediaRow]

theorem listCatMedia_veiled (h : Veiled gone db db') {id : UUID} (hid : gone id = false) :
    CatQueries.listCatMedia id db' = CatQueries.listCatMedia id db := by
  have hrows : (db'.tables.catMedia.filter fun m => m.catId == id && stillAttached m db') =
      db.tables.catMedia.filter fun m => m.catId == id && stillAttached m db := by
    rw [h.catMedia]
    refine filter_deleteWhere (fun m _ hgone => ?_) fun m _ hgone => ?_
    · simp [ne_of_gone hgone hid]
    · rw [stillAttached_veiled h hgone]
  rw [CatQueries.listCatMedia, hrows, CatQueries.listCatMedia]
  congr 1
  apply List.filterMap_congr
  intro m hm
  obtain ⟨-, hmatch⟩ := List.mem_filter.mp hm
  simp only [Bool.and_eq_true, beq_iff_eq] at hmatch
  exact catMediaRow_veiled h (hmatch.1 ▸ hid)

theorem listCatUpdates_veiled (h : Veiled gone db db') {id : UUID} (hid : gone id = false)
    (before : Option (Instant × ℕ)) (rowLimit : ℕ) :
    ReadQueries.listCatUpdates id before rowLimit db' =
      ReadQueries.listCatUpdates id before rowLimit db := by
  have hrows : (db'.tables.updates.filter fun u =>
      u.catId == id && u.deletedAt.isNone && beforeCursor before u) =
      db.tables.updates.filter fun u =>
        u.catId == id && u.deletedAt.isNone && beforeCursor before u := by
    rw [h.updates]
    refine filter_deleteWhere (fun u _ hgone => ?_) fun _ _ _ => rfl
    simp [ne_of_gone hgone hid]
  rw [ReadQueries.listCatUpdates, hrows, ReadQueries.listCatUpdates]
  apply List.map_congr_left
  intro u hu
  obtain ⟨hmem, hmatch⟩ := List.mem_filter.mp (mem_orderBy.mp (List.mem_of_mem_take hu))
  simp only [Bool.and_eq_true, beq_iff_eq] at hmatch
  rw [updateRow, h.users, h.media, listUpdateStatuses_veiled h hmem (hmatch.1.1 ▸ hid), updateRow]

/-- Follows of cats that are gone lead to no row. -/
theorem listFollowedCats_unseen {userId : UUID} (h : Unseen (some userId) gone db db') :
    listFollowedCats userId db' = listFollowedCats userId db := by
  have hcats : ∀ f : Follow, (db'.tables.cats.filter fun c =>
      c.id == f.catId && !blocks (some userId) c.createdByUserId db') =
      db.tables.cats.filter fun c =>
        c.id == f.catId && !blocks (some userId) c.createdByUserId db := by
    intro f
    refine h.cats (fun c hb => ?_) fun c hb => ?_
    · simp [hb]
    · simp [hb]
  have hfollowed : ((db'.tables.follows.filter fun f => f.userId == some userId).flatMap fun f =>
      db'.tables.cats.filter fun c =>
        c.id == f.catId && !blocks (some userId) c.createdByUserId db') =
      (db.tables.follows.filter fun f => f.userId == some userId).flatMap fun f =>
        db.tables.cats.filter fun c =>
          c.id == f.catId && !blocks (some userId) c.createdByUserId db := by
    simp only [hcats]
    rw [h.veiled.follows, deleteWhere, List.filter_comm]
    apply flatMap_deleteWhere
    intro f _ hgone
    apply List.filter_eq_nil_iff.mpr
    intro c hc hmatch
    simp only [Bool.and_eq_true, beq_iff_eq, Bool.not_eq_true'] at hmatch
    rw [← hmatch.1] at hgone
    rw [h.blocked c hc hgone] at hmatch
    cases hmatch.2
  rw [listFollowedCats, hfollowed, listFollowedCats]
  apply List.map_congr_left
  intro c hc
  obtain ⟨f, -, hcf⟩ := List.mem_flatMap.mp (mem_orderBy.mp hc)
  obtain ⟨hmem, hmatch⟩ := List.mem_filter.mp hcf
  simp only [Bool.and_eq_true, Bool.not_eq_true'] at hmatch
  exact markerRow_veiled h.veiled (h.kept_of_not_blocked hmem hmatch.2)

end Queries

section Reads

variable {viewer : Option UUID} {gone : UUID → Bool} {db db' : Database}

/-- The read answers in both databases are the same, page by page. -/
structure SameReads (cfg : Config) (read : Reading) (viewer : Option UUID) (db db' : Database) :
    Prop where
  listNearby : ∀ clock bounds,
    ReadServices.listNearby read clock bounds viewer db' =
      ReadServices.listNearby read clock bounds viewer db
  listNearbyDuplicates : ∀ point,
    ReadServices.listNearbyDuplicates read cfg.dwithin point viewer db' =
      ReadServices.listNearbyDuplicates read cfg.dwithin point viewer db
  listDiscover : ∀ clock filter point cursor limit,
    ReadServices.listDiscover read clock filter point cursor limit viewer db' =
      ReadServices.listDiscover read clock filter point cursor limit viewer db
  getCatDetail : ∀ clock id,
    CatServices.getCatDetail clock id viewer db' = CatServices.getCatDetail clock id viewer db
  listCatUpdates : ∀ clock id cursor limit,
    ReadServices.listCatUpdates read clock id cursor limit viewer db' =
      ReadServices.listCatUpdates read clock id cursor limit viewer db
  listCatMedia : ∀ id,
    CatServices.listCatMedia id viewer db' = CatServices.listCatMedia id viewer db
  listFollows : ∀ clock userId, viewer = some userId →
    ReadServices.listFollows clock userId db' = ReadServices.listFollows clock userId db

theorem listNearby_unseen (h : Unseen viewer gone db db') (read : Reading) (clock : Instant)
    (bounds : Bounds) :
    ReadServices.listNearby read clock bounds viewer db' =
      ReadServices.listNearby read clock bounds viewer db := by
  rw [ReadServices.listNearby, listCatsInBounds_unseen h, ReadServices.listNearby]

theorem listNearbyDuplicates_unseen (h : Unseen viewer gone db db') (read : Reading)
    (dwithin : Point → Point → Bool) (point : Point) :
    ReadServices.listNearbyDuplicates read dwithin point viewer db' =
      ReadServices.listNearbyDuplicates read dwithin point viewer db := by
  simp only [ReadServices.listNearbyDuplicates, nearbyDuplicates_unseen h,
    photoUrl_veiled h.veiled]

theorem listDiscover_unseen (h : Unseen viewer gone db db') (read : Reading) (clock : Instant)
    (filter : String) (point : Point) (cursor : Option String) (limit : ℤ) :
    ReadServices.listDiscover read clock filter point cursor limit viewer db' =
      ReadServices.listDiscover read clock filter point cursor limit viewer db := by
  have hrows : ∀ f after rowLimit,
      discoverRows read f point clock after rowLimit viewer db' =
        discoverRows read f point clock after rowLimit viewer db := by
    intro f after rowLimit
    cases f with
    | nearby => simp only [discoverRows, listCatsByDistance, candidates_unseen h]
    | needsHelp =>
      simp only [discoverRows, listActiveNeedsHelpCatsByDistance, candidates_unseen h]
  simp only [ReadServices.listDiscover, hrows]

theorem getCatDetail_unseen (h : Unseen viewer gone db db') (clock : Instant) (id : UUID) :
    CatServices.getCatDetail clock id viewer db' = CatServices.getCatDetail clock id viewer db := by
  rw [CatServices.getCatDetail, getCatByID_unseen h, CatServices.getCatDetail]
  cases hrow : getCatByID id viewer db with
  | error e => cases e <;> rfl
  | ok row =>
    have hexists : catExists id viewer db = true := by
      obtain ⟨c, hc, -⟩ := bind_eq_ok.mp hrow
      obtain ⟨hmem, hmatch⟩ := List.mem_filter.mp (one_eq_ok hc)
      exact List.any_eq_true.mpr ⟨c, hmem, hmatch⟩
    rw [countCatMedia_veiled h.veiled (h.kept_of_catExists hexists)]

theorem listCatUpdates_unseen (h : Unseen viewer gone db db') (read : Reading) (clock : Instant)
    (id : UUID) (cursor : Option String) (limit : ℤ) :
    ReadServices.listCatUpdates read clock id cursor limit viewer db' =
      ReadServices.listCatUpdates read clock id cursor limit viewer db := by
  rw [ReadServices.listCatUpdates, catExists_unseen h, ReadServices.listCatUpdates]
  cases hexists : catExists id viewer db with
  | false => rfl
  | true =>
    simp only [listCatUpdates_veiled h.veiled (h.kept_of_catExists hexists)]

theorem listCatMedia_unseen (h : Unseen viewer gone db db') (id : UUID) :
    CatServices.listCatMedia id viewer db' = CatServices.listCatMedia id viewer db := by
  rw [CatServices.listCatMedia, catExists_unseen h, CatServices.listCatMedia]
  cases hexists : catExists id viewer db with
  | false => rfl
  | true => rw [listCatMedia_veiled h.veiled (h.kept_of_catExists hexists)]

theorem Unseen.sameReads (h : Unseen viewer gone db db') (cfg : Config) (read : Reading) :
    SameReads cfg read viewer db db' where
  listNearby := listNearby_unseen h read
  listNearbyDuplicates := listNearbyDuplicates_unseen h read cfg.dwithin
  listDiscover := listDiscover_unseen h read
  getCatDetail := getCatDetail_unseen h
  listCatUpdates := listCatUpdates_unseen h read
  listCatMedia := listCatMedia_unseen h
  listFollows := by
    rintro clock userId rfl
    rw [ReadServices.listFollows, listFollowedCats_unseen h, ReadServices.listFollows]

end Reads

section Writes

variable {v : UUID} {gone : UUID → Bool} {db db' : Database} {w w' : World}

/-- The identifiers that a call generates are in no row. -/
def Fresh (env : Env) (t : Tables) : Prop :=
  ∀ i, Unused (env.uuid i) t

/-- The key of the request names no update of the author. -/
def KeyFree (req : CatServices.OrdinaryUpdateRequest) (db : Database) : Prop :=
  ∀ key, req.idempotencyKey = some key →
    getUpdateByIdempotencyKey req.userId key db = .error .noRows

/-- The writes of an account on cats come to the same answers from both worlds. -/
structure SameWrites (cfg : Config) (v : UUID) (w w' : World) : Prop where
  follow : ∀ catId deviceId,
    (SocialServices.follow catId v deviceId w').1 = (SocialServices.follow catId v deviceId w).1
  createNeedsHelpUpdate : ∀ env catId deviceId category comment, Fresh env w.db.tables →
    (CatServices.createNeedsHelpUpdate env catId v deviceId category comment w').1 =
      (CatServices.createNeedsHelpUpdate env catId v deviceId category comment w).1
  createOrdinaryUpdate : ∀ env req, req.userId = v → Fresh env w.db.tables → KeyFree req w.db →
    (CatServices.createOrdinaryUpdate env req w').1 = (CatServices.createOrdinaryUpdate env req w).1
  create : ∀ env req, req.userId = v → Fresh env w.db.tables →
    (CatServices.create cfg env req w').1 = (CatServices.create cfg env req w).1
  report : ∀ env catId reason note, Fresh env w.db.tables →
    (SocialServices.createReport env v "cat" catId reason note w').1 =
      (SocialServices.createReport env v "cat" catId reason note w).1

theorem follow_unseen (h : Unseen (some v) gone w.db w'.db) (catId deviceId : Option UUID) :
    (SocialServices.follow catId v deviceId w').1 =
      (SocialServices.follow catId v deviceId w).1 := by
  cases catId with
  | none => rfl
  | some cat =>
    simp only [SocialServices.follow, catExists_unseen h]
    cases hexists : catExists cat (some v) w.db with
    | false => rfl
    | true =>
      have hrun := createFollow_alike h.veiled v deviceId (h.kept_of_catExists hexists)
      simp only [if_true]
      generalize createFollow v deviceId cat w.db = x at hrun ⊢
      generalize createFollow v deviceId cat w'.db = y at hrun ⊢
      cases hrun with
      | ok _ => rfl
      | error e => rfl

theorem authorDisplayNameFor_veiled (h : Veiled gone db db') (userId : UUID) :
    CatServices.authorDisplayNameFor userId db' = CatServices.authorDisplayNameFor userId db := by
  rw [CatServices.authorDisplayNameFor, getUserByID, h.users, CatServices.authorDisplayNameFor,
    getUserByID]

theorem resolveOwnMedia_veiled (h : Veiled gone db db') (mediaId : Option (Option UUID))
    (userId : UUID) :
    CatServices.resolveOwnMedia mediaId userId db' =
      CatServices.resolveOwnMedia mediaId userId db := by
  simp only [CatServices.resolveOwnMedia, getMediaByID, h.media]

/-- No update that is gone stands in the way of a key that names none. -/
theorem indexKey_free {key : Option String}
    (hfree : ∀ k, key = some k → getUpdateByIdempotencyKey v k db = .error .noRows) :
    ∀ u ∈ db.tables.updates, gone u.catId = true → indexKey u = none ∨
      indexKey u ≠ both (some v) key := by
  intro u hu _
  cases hk : key with
  | none => exact (em (indexKey u = none)).imp_right fun hne heq => hne heq
  | some k =>
    have hnone := List.filter_eq_nil_iff.mp (one_eq_noRows.mp (hfree k hk)) u hu
    by_cases hkind : u.kind = .ordinary
    · refine .inr fun heq => hnone ?_
      rw [indexKey, if_pos hkind, both, both] at heq
      cases hauthor : u.authorUserId with
      | none => simp [hauthor] at heq
      | some a =>
        cases hukey : u.idempotencyKey with
        | none => simp [hauthor, hukey] at heq
        | some x =>
          simp only [hauthor, hukey, Option.bind_some, Option.map_some, Option.some.injEq,
            Prod.mk.injEq] at heq
          simp [heq, hkind]
    · exact .inl (if_neg hkind)

theorem createNeedsHelpUpdate_unseen (h : Unseen (some v) gone w.db w'.db) (env : Env)
    (catId deviceId : Option UUID) (category : String) (comment : Option String)
    (hfresh : Fresh env w.db.tables) :
    (CatServices.createNeedsHelpUpdate env catId v deviceId category comment w').1 =
      (CatServices.createNeedsHelpUpdate env catId v deviceId category comment w).1 := by
  have hprepare : CatServices.prepareNeedsHelpUpdate env catId v deviceId category comment w'.db =
      CatServices.prepareNeedsHelpUpdate env catId v deviceId category comment w.db := by
    simp only [CatServices.prepareNeedsHelpUpdate, catExists_unseen h]
  rw [CatServices.createNeedsHelpUpdate, hprepare, CatServices.createNeedsHelpUpdate]
  cases hp : CatServices.prepareNeedsHelpUpdate env catId v deviceId category comment w.db with
  | error e => rfl
  | ok prepared =>
    obtain ⟨arg, c⟩ := prepared
    obtain ⟨cat, -, hexists, rfl⟩ := UpdateCreation.prepareNeedsHelpUpdate_eq_ok hp
    have hkey : ∀ u ∈ w.db.tables.updates, gone u.catId = true → indexKey u = none ∨
        indexKey u ≠ both (some v) none := indexKey_free fun k hk => by cases hk
    have hkept : gone (UpdateCreation.needsHelpParams env cat v deviceId c comment).catId = false :=
      h.kept_of_catExists hexists
    have hstore := createOrdinaryUpdate_alike h.veiled env.now hkept (hfresh 0) (hfresh 1)
      (hfresh 2) hkey
    dsimp only
    generalize Store.createOrdinaryUpdate _ _ _ _ w.db = x at hstore ⊢
    generalize Store.createOrdinaryUpdate _ _ _ _ w'.db = y at hstore ⊢
    cases hstore with
    | error e => rfl
    | ok hr =>
      rename_i r r'
      obtain ⟨id, d⟩ := r
      obtain ⟨id', d'⟩ := r'
      obtain ⟨hid, hd⟩ := hr
      dsimp only at hid hd ⊢
      rw [CatServices.needsHelpResult, authorDisplayNameFor_veiled hd, ← hid,
        CatServices.needsHelpResult]

theorem KeyFree.earlier {req : CatServices.OrdinaryUpdateRequest} (env : Env)
    (hfree : KeyFree req db) : CatServices.earlierUpdate env req db = .error .noRows := by
  unfold CatServices.earlierUpdate
  split
  · rfl
  · rename_i key hkey
    rw [CatServices.fetchIdempotentOrdinaryUpdate, hfree key hkey]
    rfl

theorem KeyFree.veiled {req : CatServices.OrdinaryUpdateRequest} (hfree : KeyFree req db)
    (h : Veiled gone db db') : KeyFree req db' := by
  intro key hkey
  have hnone := List.filter_eq_nil_iff.mp (one_eq_noRows.mp (hfree key hkey))
  apply one_eq_noRows.mpr
  apply List.filter_eq_nil_iff.mpr
  intro u hu
  rw [h.updates] at hu
  exact hnone u (mem_deleteWhere.mp hu).1

theorem recover_free {req : CatServices.OrdinaryUpdateRequest} (env : Env) (e : Error)
    (hfree : KeyFree req db) :
    CatServices.recoverOrdinaryUpdate env req e db = .error e := by
  unfold CatServices.recoverOrdinaryUpdate
  rw [hfree.earlier env]
  split <;> rfl

theorem createOrdinaryUpdate_unseen (h : Unseen (some v) gone w.db w'.db) (env : Env)
    {req : CatServices.OrdinaryUpdateRequest} (hv : req.userId = v)
    (hfresh : Fresh env w.db.tables) (hfree : KeyFree req w.db) :
    (CatServices.createOrdinaryUpdate env req w').1 =
      (CatServices.createOrdinaryUpdate env req w).1 := by
  subst hv
  have hfree' := hfree.veiled h.veiled
  have hprepare : ∀ catId, CatServices.prepareOrdinaryUpdate env req catId w'.db =
      CatServices.prepareOrdinaryUpdate env req catId w.db := by
    intro catId
    simp only [CatServices.prepareOrdinaryUpdate, catExists_unseen h,
      resolveOwnMedia_veiled h.veiled]
  rw [CatServices.createOrdinaryUpdate, CatServices.createOrdinaryUpdate, hfree.earlier env,
    hfree'.earlier env]
  cases req.catId with
  | none => rfl
  | some catId =>
    simp only [hprepare]
    cases hp : CatServices.prepareOrdinaryUpdate env req catId w.db with
    | error e => rfl
    | ok prepared =>
      obtain ⟨arg, media⟩ := prepared
      obtain ⟨statuses, -, hexists, -, rfl⟩ := UpdateCreation.prepareOrdinaryUpdate_eq_ok hp
      have hkept : gone (UpdateCreation.ordinaryParams env req catId statuses media).catId =
          false := h.kept_of_catExists hexists
      have hstore := createOrdinaryUpdate_alike h.veiled env.now hkept (hfresh 0) (hfresh 1)
        (hfresh 2) (indexKey_free hfree)
      dsimp only
      generalize Store.createOrdinaryUpdate _ _ _ _ w.db = x at hstore ⊢
      generalize Store.createOrdinaryUpdate _ _ _ _ w'.db = y at hstore ⊢
      cases hstore with
      | error e =>
        dsimp only
        rw [recover_free env e hfree, recover_free env e hfree']
      | ok hr =>
        rename_i r r'
        obtain ⟨id, d⟩ := r
        obtain ⟨id', d'⟩ := r'
        obtain ⟨hid, hd⟩ := hr
        dsimp only at hid hd ⊢
        rw [CatServices.ordinaryUpdateResult, authorDisplayNameFor_veiled hd, ← hid,
          CatServices.ordinaryUpdateResult]

/-- Nobody blocks oneself, so no cat of one's own is hidden. -/
theorem not_own_of_blocks {owner : Option UUID} (hb : blocks (some v) owner db = true) :
    owner ≠ some v := by
  rintro rfl
  obtain ⟨b, hb, hmatch⟩ := List.any_eq_true.mp hb
  simp only [Bool.and_eq_true, beq_iff_eq, Option.some.injEq] at hmatch
  exact db.valid.holds .userBlocksNoSelfBlockCk b hb (hmatch.1.symm.trans hmatch.2)

theorem earlierCat_unseen (h : Unseen (some v) gone db db') (env : Env)
    {req : CatServices.CreateRequest} (hv : req.userId = v) :
    CatServices.earlierCat env req db' = CatServices.earlierCat env req db := by
  subst hv
  have hrow : ∀ key, getCatByIdempotencyKey req.userId key db' =
      getCatByIdempotencyKey req.userId key db := by
    intro key
    rw [getCatByIdempotencyKey, h.cats, getCatByIdempotencyKey]
    · intro c hb
      simp [not_own_of_blocks hb]
    · exact fun _ _ => rfl
  simp only [CatServices.earlierCat, hrow, getCatDetail_unseen h]

theorem create_unseen (h : Unseen (some v) gone w.db w'.db) (cfg : Config) (env : Env)
    {req : CatServices.CreateRequest} (hv : req.userId = v) (hfresh : Fresh env w.db.tables) :
    (CatServices.create cfg env req w').1 = (CatServices.create cfg env req w).1 := by
  have hid : gone (env.uuid 1) = false := by
    by_contra hgone
    obtain ⟨c, hc, hcid⟩ := h.there _ (Bool.eq_true_of_not_eq_false hgone)
    exact (hfresh 1).cats c hc hcid
  have hearlier := earlierCat_unseen h env hv
  subst hv
  have hprepare : CatServices.prepareCreate cfg env req w'.db =
      CatServices.prepareCreate cfg env req w.db := by
    have hnear : CatServices.duplicateCandidates cfg req w'.db =
        CatServices.duplicateCandidates cfg req w.db := by
      rw [CatServices.duplicateCandidates, listNearbyCatsForDuplicateCheck_unseen h,
        CatServices.duplicateCandidates]
    rw [CatServices.prepareCreate, hnear, CatServices.prepareCreate]
  rw [CatServices.create, CatServices.create, hearlier, hprepare]
  cases CatServices.earlierCat env req w.db with
  | ok existing => rfl
  | error e =>
    cases e
    case noRows =>
      dsimp only
      cases CatServices.prepareCreate cfg env req w.db with
      | error e => rfl
      | ok contentType =>
        cases env.put with
        | error e => rfl
        | ok url =>
          dsimp only
          have hstore := createCatWithMedia_alike h.veiled env.now
            { id := env.uuid 0, objectKey := env.objectKey, url, contentType
              uploadedByUserId := req.userId, uploadedByDeviceId := req.deviceId }
            { id := env.uuid 1, name := req.name, area := req.area
              createdByUserId := req.userId, createdByDeviceId := req.deviceId
              idempotencyKey := req.idempotencyKey }
            hid (fun c hc hgone => not_own_of_blocks (h.blocked c hc hgone)) (hfresh 2)
          generalize Store.createCatWithMedia _ _ _ _ w.db = x at hstore ⊢
          generalize Store.createCatWithMedia _ _ _ _ w'.db = y at hstore ⊢
          cases hstore with
          | error e => simp only [CatServices.recoverFromCreateCatFailure, hearlier]
          | ok hr =>
            rename_i r r'
            obtain ⟨row, d⟩ := r
            obtain ⟨row', d'⟩ := r'
            obtain rfl := hr.1
            rfl
    all_goals rfl

/-- A report of a cat is prepared for a cat that the reporter sees. -/
theorem prepareReport_row {env : Env} {catId : Option UUID} {reason : String}
    {note : Option String} {row : Report}
    (h : SocialServices.prepareReport env v "cat" catId reason note db = .ok row) :
    row.id = env.uuid 0 ∧ row.targetType = .cat ∧
      catExists row.targetId (some v) db = true := by
  have htype : reportTargetType "cat" = some .cat := rfl
  unfold SocialServices.prepareReport at h
  rw [htype] at h
  cases catId with
  | none => cases h
  | some target =>
    cases hreason : reportReason reason with
    | none =>
      rw [hreason] at h
      cases h
    | some reason =>
      rw [hreason] at h
      dsimp only at h
      split at h
      · cases h
      · split at h
        · cases h
        · rename_i hexists
          cases h
          refine ⟨rfl, rfl, ?_⟩
          simpa [SocialServices.targetExists] using hexists

theorem createReport_unseen (h : Unseen (some v) gone w.db w'.db) (env : Env)
    (catId : Option UUID) (reason : String) (note : Option String)
    (hfresh : Fresh env w.db.tables) :
    (SocialServices.createReport env v "cat" catId reason note w').1 =
      (SocialServices.createReport env v "cat" catId reason note w).1 := by
  have hprepare : SocialServices.prepareReport env v "cat" catId reason note w'.db =
      SocialServices.prepareReport env v "cat" catId reason note w.db := by
    have htype : reportTargetType "cat" = some .cat := rfl
    unfold SocialServices.prepareReport
    rw [htype]
    cases catId with
    | none => rfl
    | some target =>
      have htarget : SocialServices.targetExists .cat target v w'.db =
          SocialServices.targetExists .cat target v w.db := catExists_unseen h target
      cases reportReason reason with
      | none => rfl
      | some reason =>
        dsimp only
        rw [htarget]
  rw [SocialServices.createReport, hprepare, SocialServices.createReport]
  cases hp : SocialServices.prepareReport env v "cat" catId reason note w.db with
  | error e => rfl
  | ok row =>
    obtain ⟨hid, htype, hexists⟩ := prepareReport_row hp
    have hkept : goneReport gone w.db.tables.updates row = false := by
      rw [goneReport, htype]
      exact h.kept_of_catExists hexists
    have hopen : getOpenReportByReporterAndTarget row.reporterUserId row.targetType row.targetId
        w'.db = getOpenReportByReporterAndTarget row.reporterUserId row.targetType row.targetId
          w.db := by
      rw [getOpenReportByReporterAndTarget, h.veiled.reports, filter_deleteWhere _ fun _ _ _ => rfl,
        getOpenReportByReporterAndTarget]
      intro r _ hgone
      by_contra hmatch
      simp only [Bool.not_eq_false, Bool.and_eq_true, beq_iff_eq] at hmatch
      rw [goneReport_congr hmatch.1.1.2 hmatch.1.2, hkept] at hgone
      cases hgone
    have hstore := createReport_alike h.veiled hkept fun r hr => hid ▸ (hfresh 0).reports r hr
    dsimp only
    rw [hopen]
    generalize UpdateQueries.createReport row w.db = x at hstore ⊢
    generalize UpdateQueries.createReport row w'.db = y at hstore ⊢
    cases hstore with
    | error e => cases e <;> rfl
    | ok hr =>
      rename_i r r'
      obtain ⟨row, d⟩ := r
      obtain ⟨row', d'⟩ := r'
      obtain rfl := hr.1
      rfl

theorem sameWrites_of_unseen (w w' : World) (h : Unseen (some v) gone w.db w'.db)
    (cfg : Config) : SameWrites cfg v w w' where
  follow := follow_unseen h
  createNeedsHelpUpdate := createNeedsHelpUpdate_unseen h
  createOrdinaryUpdate env _ := createOrdinaryUpdate_unseen h env
  create env _ := create_unseen h cfg env
  report := createReport_unseen h

end Writes

/-- The cats of the accounts that the viewer blocks. -/
def hidden (v : UUID) (db : Database) (id : UUID) : Bool :=
  db.tables.cats.any fun c => c.id == id && blocks (some v) c.createdByUserId db

theorem unseen_hidden (v : UUID) (db : Database) :
    Unseen (some v) (hidden v db) db (remaining (hidden v db) db) where
  veiled := veiled_remaining _ db
  there := by
    intro id hid
    obtain ⟨c, hc, hmatch⟩ := List.any_eq_true.mp hid
    exact ⟨c, hc, beq_iff_eq.mp (Bool.and_eq_true_iff.mp hmatch).1⟩
  blocked := by
    intro c hc hid
    obtain ⟨c', hc', hmatch⟩ := List.any_eq_true.mp hid
    simp only [Bool.and_eq_true, beq_iff_eq] at hmatch
    rw [← (db.valid.holds .catsPkey).eq_of_key_eq hc' hc (congrArg some hmatch.1) (by simp)]
    exact hmatch.2
  kept _ _ _ := rfl

/-- The databases differ only in who blocks whom. -/
def OtherBlocks (db db' : Database) : Prop :=
  db'.tables = { db.tables with userBlocks := db'.tables.userBlocks }

def BlocksNobody (viewer : Option UUID) (db : Database) : Prop :=
  ∀ b ∈ db.tables.userBlocks, viewer ≠ some b.blockerUserId

theorem BlocksNobody.guest (db : Database) : BlocksNobody none db :=
  fun _ _ h => nomatch h

theorem BlocksNobody.blocks {viewer : Option UUID} {db : Database} (h : BlocksNobody viewer db)
    (owner : Option UUID) : AccountQueries.blocks viewer owner db = false := by
  apply List.any_eq_false.mpr
  intro b hb hmatch
  exact h b hb (beq_iff_eq.mp (Bool.and_eq_true_iff.mp hmatch).1)

theorem unseen_blocks {viewer : Option UUID} {db db' : Database} (h : OtherBlocks db db')
    (hv : BlocksNobody viewer db) (hv' : BlocksNobody viewer db') :
    Unseen viewer (fun _ => false) db db' where
  veiled := by
    have hwithout : without (fun _ => false) db.tables = db.tables := by
      have hupdates : goneUpdate (fun _ => false) db.tables.updates = fun _ => false := by
        funext id
        simp [goneUpdate]
      have hreports : goneReport (fun _ => false) db.tables.updates = fun _ => false := by
        funext r
        cases htype : r.targetType <;> simp [goneReport, htype, hupdates]
      simp [without, deleteWhere, hupdates, hreports]
    rw [Veiled, hwithout]
    exact h
  there _ h := nomatch h
  blocked _ _ h := nomatch h
  kept c _ _ := by rw [hv.blocks, hv'.blocks]

/-- Blocking an account that is not blocked yet, and unblocking it again. -/
theorem unblock_block {v u : UUID} {w : World}
    (hnew : blocks (some v) (some u) w.db = false) :
    (AccountServices.unblock v (some u) (AccountServices.block v (some u) w).2).2 = w := by
  have hnone : ∀ b ∈ w.db.tables.userBlocks,
      (b.blockerUserId == v && b.blockedUserId == u) = false := by
    intro b hb
    by_contra hmatch
    simp only [Bool.not_eq_false, Bool.and_eq_true, beq_iff_eq] at hmatch
    apply List.any_eq_false.mp hnew b hb
    rw [hmatch.1, hmatch.2]
    simp
  have hany : (w.db.tables.userBlocks.any fun b =>
      b.blockerUserId == v && b.blockedUserId == u) = false := by
    simpa using hnone
  by_cases hself : v = u
  · rw [AccountServices.block, if_pos hself, AccountServices.unblock, if_pos hself]
  · have hlift : ∀ d : Database, d.tables = w.db.tables ∨
        d.tables = { w.db.tables with
          userBlocks := w.db.tables.userBlocks ++ [{ blockerUserId := v, blockedUserId := u }] } →
        deleteBlock v u d = .ok w.db := by
      rintro d (hd | hd)
      · apply write_eq_ok.mpr
        rw [hd, deleteWhere_eq_self hnone]
      · apply write_eq_ok.mpr
        rw [hd, deleteWhere_append, deleteWhere_eq_self hnone]
        simp [deleteWhere]
    have hdone : ∀ d : Database, d.tables = w.db.tables ∨
        d.tables = { w.db.tables with
          userBlocks := w.db.tables.userBlocks ++ [{ blockerUserId := v, blockedUserId := u }] } →
        (AccountServices.unblock v (some u) { w with db := d }).2 = w := by
      intro d hd
      rw [AccountServices.unblock, if_neg hself, hlift d hd]
      rfl
    rw [AccountServices.block, if_neg hself]
    split
    · exact hdone w.db (.inl rfl)
    · exact hdone w.db (.inl rfl)
    · rw [createBlock, hany]
      cases hwrite : w.db.write _ with
      | error e => exact hdone w.db (.inl rfl)
      | ok d => exact hdone d (.inr (write_eq_ok.mp hwrite))

theorem block_noninterference (cfg : Config) (read : Reading) (w : World) :
    (∀ v, SameReads cfg read (some v) w.db (remaining (hidden v w.db) w.db) ∧
      SameWrites cfg v w { w with db := remaining (hidden v w.db) w.db }) ∧
    (∀ db', OtherBlocks w.db db' → SameReads cfg read none w.db db' ∧
      ∀ v, BlocksNobody (some v) w.db → BlocksNobody (some v) db' →
        SameReads cfg read (some v) w.db db' ∧ SameWrites cfg v w { w with db := db' }) ∧
    ∀ v u, blocks (some v) (some u) w.db = false →
      (AccountServices.unblock v (some u) (AccountServices.block v (some u) w).2).2 = w := by
  refine ⟨fun v => ?_, fun db' h => ⟨?_, fun v hv hv' => ?_⟩, fun v u => unblock_block⟩
  · have hunseen := unseen_hidden v w.db
    exact ⟨hunseen.sameReads cfg read,
      sameWrites_of_unseen w { w with db := remaining (hidden v w.db) w.db } hunseen cfg⟩
  · exact (unseen_blocks h (.guest _) (.guest _)).sameReads cfg read
  · have hunseen := unseen_blocks h hv hv'
    exact ⟨hunseen.sameReads cfg read,
      sameWrites_of_unseen w { w with db := db' } hunseen cfg⟩

/-- Two accounts, the second with a cat, and the first blocks the second. -/
def blocking : List Request :=
  [⟨plainEnv 1, .register "ios" none⟩,
   ⟨plainEnv 2, .verifyOTP "5551112233" "" 10⟩,
   ⟨plainEnv 3, .register "ios" none⟩,
   ⟨plainEnv 4, .verifyOTP "5554445566" "" 30⟩,
   ⟨plainEnv 5, .createCat { userId := 40, area := ⟨41, 29⟩ }⟩,
   ⟨plainEnv 6, .block 20 (some 40)⟩]

/-- Blocking again succeeds and changes nothing, and unblocking then brings the cat back. -/
theorem blocked_twice_not_restored : ∃ w, Reaches plainConfig w ∧
    (AccountServices.block 20 (some 40) w).1 = .ok () ∧
    ¬ SameReads plainConfig DiscoverPages.plainReading (some 20) w.db
      (AccountServices.unblock 20 (some 40) (AccountServices.block 20 (some 40) w).2).2.db := by
  obtain ⟨w, hreach, hp⟩ := exists_reaches_of_test plainConfig seedWorld_genesis blocking
    (fun w => (AccountServices.block 20 (some 40) w).1.isOk &&
      !(CatServices.getCatDetail 7 51 (some 20) w.db).isOk &&
      (CatServices.getCatDetail 7 51 (some 20) (AccountServices.unblock 20 (some 40)
        (AccountServices.block 20 (some 40) w).2).2.db).isOk) (by decide +kernel)
  simp only [Bool.and_eq_true, Bool.not_eq_true'] at hp
  refine ⟨w, hreach, ?_, fun hsame => ?_⟩
  · cases hblock : (AccountServices.block 20 (some 40) w).1 with
    | ok _ => rfl
    | error e =>
      rw [hblock] at hp
      cases hp.1.1
  · rw [hsame.getCatDetail, hp.1.2] at hp
    cases hp.2

end Tekir.BlockTransparency
