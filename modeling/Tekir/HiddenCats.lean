import Tekir.UpdateCreation

/-!
# A database without some of its cats

Cats are taken away together with the rows that hang off them, and the blocks of the accounts
may be others. A statement about a cat that stays does the same on what is left, and fails
with the same constraint.
-/
namespace Tekir.HiddenCats
open Table Schema Statements AccountQueries CatQueries UpdateQueries NotificationQueries

section Rows

variable {α β κ : Type*}

/-- Rows that a selection leaves out anyway may be gone. -/
theorem filter_deleteWhere {p q q' : α → Bool} {rows : List α}
    (hgone : ∀ r ∈ rows, p r = true → q r = false)
    (hkept : ∀ r ∈ rows, p r = false → q' r = q r) :
    (deleteWhere p rows).filter q' = rows.filter q := by
  rw [deleteWhere, List.filter_filter]
  apply List.filter_congr
  intro r hr
  cases hp : p r with
  | true => simp [hgone r hr hp]
  | false => simp [hkept r hr hp]

theorem any_deleteWhere {p q q' : α → Bool} {rows : List α}
    (hgone : ∀ r ∈ rows, p r = true → q r = false)
    (hkept : ∀ r ∈ rows, p r = false → q' r = q r) :
    (deleteWhere p rows).any q' = rows.any q := by
  apply Bool.eq_iff_iff.mpr
  simp only [List.any_eq_true, mem_deleteWhere]
  constructor
  · rintro ⟨r, ⟨hr, hp⟩, hq⟩
    exact ⟨r, hr, hkept r hr hp ▸ hq⟩
  · rintro ⟨r, hr, hq⟩
    cases hp : p r with
    | true =>
      rw [hgone r hr hp] at hq
      cases hq
    | false => exact ⟨r, ⟨hr, hp⟩, (hkept r hr hp).trans hq⟩

theorem find?_deleteWhere {p q : α → Bool} {rows : List α}
    (hgone : ∀ r ∈ rows, p r = true → q r = false) :
    (deleteWhere p rows).find? q = rows.find? q := by
  rw [← List.head?_filter, ← List.head?_filter, filter_deleteWhere hgone fun _ _ _ => rfl]

theorem flatMap_deleteWhere {p : α → Bool} {f : α → List β} {rows : List α}
    (hgone : ∀ r ∈ rows, p r = true → f r = []) :
    (deleteWhere p rows).flatMap f = rows.flatMap f := by
  induction rows with
  | nil => rfl
  | cons r rows ih =>
    have ih := ih fun r' hr' => hgone r' (List.mem_cons_of_mem _ hr')
    cases hp : p r with
    | true =>
      have hr := hgone r List.mem_cons_self hp
      rw [List.flatMap_cons, hr, List.nil_append, ← ih]
      simp [deleteWhere, hp]
    | false =>
      rw [List.flatMap_cons, ← ih]
      simp [deleteWhere, hp]

theorem deleteWhere_append (p : α → Bool) (rows new : List α) :
    deleteWhere p (rows ++ new) = deleteWhere p rows ++ deleteWhere p new :=
  List.filter_append _ _

/-- New rows that clash with no row that is gone clash only with rows that stay. -/
theorem uniqueOn_append_of_kept {key : α → Option κ} {rows new : List α} {p : α → Bool}
    (hrows : UniqueOn key rows) (h : UniqueOn key (deleteWhere p rows ++ new))
    (hgone : ∀ q ∈ rows, p q = true → ∀ r ∈ new, key q = none ∨ key q ≠ key r) :
    UniqueOn key (rows ++ new) := by
  obtain ⟨-, hnew, hkept⟩ := List.pairwise_append.mp h
  refine List.pairwise_append.mpr ⟨hrows, hnew, fun q hq r hr => ?_⟩
  cases hp : p q with
  | true => exact hgone q hq hp r hr
  | false => exact hkept q (mem_deleteWhere.mpr ⟨hq, hp⟩) r hr

theorem references_append_of_kept {fk : α → Option κ} {rows new : List α} {pk : β → κ}
    {parents kept : List β} {p : α → Bool} (hrows : References fk rows pk parents)
    (h : References fk (deleteWhere p rows ++ new) pk kept) (hkept : ∀ b ∈ kept, b ∈ parents) :
    References fk (rows ++ new) pk parents := by
  intro r hr k hk
  rcases List.mem_append.mp hr with hr | hr
  · exact hrows r hr k hk
  · obtain ⟨b, hb, hbk⟩ := h r (List.mem_append_right _ hr) k hk
    exact ⟨b, hkept b hb, hbk⟩

/-- Parents may go with all their children. -/
theorem references_deleteWhere {fk : α → Option κ} {rows : List α} {pk : β → κ}
    {parents : List β} {p : α → Bool} {q : β → Bool} (h : References fk rows pk parents)
    (hchild : ∀ r ∈ rows, p r = false → ∀ b ∈ parents, pk b ∈ fk r → q b = false) :
    References fk (deleteWhere p rows) pk (deleteWhere q parents) := by
  apply (h.deleteWhere_child (p := p)).deleteWhere_parent
  intro r hr b hb hk
  obtain ⟨hmem, hp⟩ := mem_deleteWhere.mp hr
  exact hchild r hmem hp b hb hk

end Rows

section Tables

variable (gone : UUID → Bool)

/-- The update is one of a cat that is gone. -/
def goneUpdate (updates : List Update) (id : UUID) : Bool :=
  updates.any fun u => u.id == id && gone u.catId

/-- The report is about a cat that is gone or about one of its updates. -/
def goneReport (updates : List Update) (r : Report) : Bool :=
  match r.targetType with
  | .cat => gone r.targetId
  | .update => goneUpdate gone updates r.targetId
  | .media => false

/-- The tables without the cats that are gone and without the rows that hang off them. -/
def without (t : Tables) : Tables :=
  { t with
    cats := deleteWhere (fun c => gone c.id) t.cats
    catMedia := deleteWhere (fun m => gone m.catId) t.catMedia
    updates := deleteWhere (fun u => gone u.catId) t.updates
    updateStatuses := deleteWhere (fun s => goneUpdate gone t.updates s.updateId) t.updateStatuses
    follows := deleteWhere (fun f => gone f.catId) t.follows
    notificationOutbox :=
      deleteWhere (fun o => gone o.catId || goneUpdate gone t.updates o.updateId) t.notificationOutbox
    notifications :=
      deleteWhere (fun n => gone n.catId || goneUpdate gone t.updates n.updateId) t.notifications
    reports := deleteWhere (goneReport gone t.updates) t.reports }

variable {gone} {t : Tables}

theorem goneUpdate_eq_false {updates : List Update} {id : UUID} :
    goneUpdate gone updates id = false ↔ ∀ u ∈ updates, u.id = id → gone u.catId = false := by
  simp [goneUpdate]

/-- No constraint is violated for want of the rows that are gone. -/
theorem holds_without {c : Constraint} (h : c.Holds t) : c.Holds (without gone t) := by
  cases c
  case catsPkey => exact h.deleteWhere _
  case catsUserIdempotencyUq => exact h.deleteWhere _
  case catsCreatedByUserIdFkey => exact h.deleteWhere_child
  case catsCreatedByDeviceIdFkey => exact h.deleteWhere_child
  case catsPrimaryPhotoIdFkey => exact h.deleteWhere_child
  case catMediaPkey => exact h.deleteWhere _
  case catMediaCatIdMediaIdKey => exact h.deleteWhere _
  case catMediaCatIdFkey =>
    apply references_deleteWhere h
    rintro m - hm c - hc
    rwa [Option.some.inj hc] at hm
  case catMediaMediaIdFkey => exact h.deleteWhere_child
  case updatesPkey => exact h.deleteWhere _
  case updatesUserIdempotencyUq => exact h.deleteWhere _
  case updatesNeedsHelpFieldsCk => exact fun u hu => h u (mem_deleteWhere.mp hu).1
  case updatesCatIdFkey =>
    apply references_deleteWhere h
    rintro u - hu c - hc
    rwa [Option.some.inj hc] at hu
  case updatesAuthorDeviceIdFkey => exact h.deleteWhere_child
  case updatesAuthorUserIdFkey => exact h.deleteWhere_child
  case updatesMediaIdFkey => exact h.deleteWhere_child
  case updateStatusesPkey => exact h.deleteWhere _
  case updateStatusesUpdateIdFkey =>
    apply references_deleteWhere h
    rintro s - hs u hu hid
    exact goneUpdate_eq_false.mp hs u hu (Option.some.inj hid).symm
  case followsDeviceCatUq => exact h.deleteWhere _
  case followsUserCatUq => exact h.deleteWhere _
  case followsOwnerCk => exact fun f hf => h f (mem_deleteWhere.mp hf).1
  case followsDeviceIdFkey => exact h.deleteWhere_child
  case followsUserIdFkey => exact h.deleteWhere_child
  case followsCatIdFkey =>
    apply references_deleteWhere h
    rintro f - hf c - hc
    rwa [Option.some.inj hc] at hf
  case notificationOutboxPkey => exact h.deleteWhere _
  case notificationOutboxUpdateIdKey => exact h.deleteWhere _
  case notificationOutboxUpdateIdFkey =>
    apply references_deleteWhere h
    rintro o - ho u hu hid
    exact goneUpdate_eq_false.mp (Bool.or_eq_false_iff.mp ho).2 u hu (Option.some.inj hid).symm
  case notificationOutboxCatIdFkey =>
    apply references_deleteWhere h
    rintro o - ho c - hc
    rw [Option.some.inj hc] at ho
    exact (Bool.or_eq_false_iff.mp ho).1
  case notificationsPkey => exact h.deleteWhere _
  case notificationsDeviceUpdateUq => exact h.deleteWhere _
  case notificationsDeviceIdFkey => exact h.deleteWhere_child
  case notificationsCatIdFkey =>
    apply references_deleteWhere h
    rintro n - hn c - hc
    rw [Option.some.inj hc] at hn
    exact (Bool.or_eq_false_iff.mp hn).1
  case notificationsUpdateIdFkey =>
    apply references_deleteWhere h
    rintro n - hn u hu hid
    exact goneUpdate_eq_false.mp (Bool.or_eq_false_iff.mp hn).2 u hu (Option.some.inj hid).symm
  case reportsPkey => exact h.deleteWhere _
  case reportsReporterTargetOpenUq => exact h.deleteWhere _
  case reportsOtherRequiresNoteCk => exact fun r hr => h r (mem_deleteWhere.mp hr).1
  case reportsReporterUserIdFkey => exact h.deleteWhere_child
  all_goals exact h

end Tables

/-- The database without the cats that are gone. -/
def remaining (gone : UUID → Bool) (db : Database) : Database :=
  ⟨without gone db.tables, valid_iff.mpr fun c => holds_without (db.valid.holds c)⟩

/-- The same without some cats, whatever the blocks. -/
def Veiled (gone : UUID → Bool) (db db' : Database) : Prop :=
  db'.tables = { without gone db.tables with userBlocks := db'.tables.userBlocks }

theorem veiled_remaining (gone : UUID → Bool) (db : Database) :
    Veiled gone db (remaining gone db) := rfl

/-- Two runs of a statement or a transaction come to the same. -/
inductive Alike {α β : Type} (R : α → β → Prop) : Except Error α → Except Error β → Prop
  | ok {a : α} {b : β} : R a b → Alike R (.ok a) (.ok b)
  | error (e : Error) : Alike R (.error e) (.error e)

section Alike

variable {α β γ δ : Type} {R : α → β → Prop} {Q : γ → δ → Prop}

theorem Alike.bind {x : Except Error α} {y : Except Error β} {f : α → Except Error γ}
    {g : β → Except Error δ} (h : Alike R x y) (hf : ∀ a b, R a b → Alike Q (f a) (g b)) :
    Alike Q (x >>= f) (y >>= g) := by
  cases h with
  | ok hab => exact hf _ _ hab
  | error e => exact .error e

theorem Alike.mono {x : Except Error α} {y : Except Error β} {R' : α → β → Prop}
    (h : Alike R x y) (hR : ∀ a b, R a b → R' a b) : Alike R' x y := by
  cases h with
  | ok hab => exact .ok (hR _ _ hab)
  | error e => exact .error e

end Alike

/-- The constraint a statement reports depends on which constraints hold. -/
theorem firstViolated_congr {t t' : Tables} (h : ∀ c : Constraint, c.Holds t ↔ c.Holds t') :
    firstViolated t = firstViolated t' := by
  have hc : (fun c : Constraint => !decide (c.Holds t)) = fun c => !decide (c.Holds t') := by
    funext c
    rw [decide_eq_decide.mpr (h c)]
  rw [firstViolated, firstViolated, hc]

section Statements

variable {gone : UUID → Bool} {db db' : Database}

/-- A statement that leaves accounts and blocks alone and adds only what clashes with nothing
that is gone. -/
theorem write_alike {f f' : Tables → Tables} (h : Veiled gone db db')
    (husers : (f db.tables).users = db.tables.users)
    (hblocks : (f db.tables).userBlocks = db.tables.userBlocks)
    (hf : f' db'.tables =
      { without gone (f db.tables) with userBlocks := db'.tables.userBlocks })
    (hadd : ∀ c : Constraint, c.Holds (without gone (f db.tables)) → c.Holds (f db.tables)) :
    Alike (fun d d' => Veiled gone d d' ∧ d.tables = f db.tables) (db.write f) (db'.write f') := by
  have husers' : db'.tables.users = db.tables.users := by rw [h]; rfl
  have hc : ∀ c : Constraint, c.Holds (f db.tables) ↔ c.Holds (f' db'.tables) := by
    intro c
    rw [hf]
    have hmore := hadd c
    have hless : c.Holds (f db.tables) → c.Holds (without gone (f db.tables)) := holds_without
    have hbase := db.valid.holds c
    have hbase' := db'.valid.holds c
    cases c
    case userBlocksPkey =>
      refine iff_of_true ?_ hbase'
      change UniqueOn _ (f db.tables).userBlocks
      rw [hblocks]
      exact hbase
    case userBlocksNoSelfBlockCk =>
      refine iff_of_true ?_ hbase'
      change ∀ b ∈ (f db.tables).userBlocks, _
      rw [hblocks]
      exact hbase
    case userBlocksBlockerUserIdFkey =>
      refine iff_of_true ?_ ?_
      · change References _ (f db.tables).userBlocks _ (f db.tables).users
        rw [hblocks, husers]
        exact hbase
      · change References _ db'.tables.userBlocks _ (f db.tables).users
        rw [husers, ← husers']
        exact hbase'
    case userBlocksBlockedUserIdFkey =>
      refine iff_of_true ?_ ?_
      · change References _ (f db.tables).userBlocks _ (f db.tables).users
        rw [hblocks, husers]
        exact hbase
      · change References _ db'.tables.userBlocks _ (f db.tables).users
        rw [husers, ← husers']
        exact hbase'
    all_goals exact ⟨hless, hmore⟩
  have hvalid : Valid (f db.tables) ↔ Valid (f' db'.tables) := by
    rw [valid_iff, valid_iff]
    exact forall_congr' hc
  by_cases hv : Valid (f db.tables)
  · rw [write_ok hv, write_ok (hvalid.mp hv)]
    refine .ok ⟨?_, rfl⟩
    rw [Veiled]
    dsimp only
    rw [hf]
  · rw [Database.write, dif_neg hv, Database.write, dif_neg (mt hvalid.mpr hv),
      firstViolated_congr hc]
    exact .error _

theorem Veiled.users (h : Veiled gone db db') : db'.tables.users = db.tables.users := by
  rw [h]
  rfl

theorem Veiled.media (h : Veiled gone db db') : db'.tables.media = db.tables.media := by
  rw [h]
  rfl

theorem Veiled.cats (h : Veiled gone db db') :
    db'.tables.cats = deleteWhere (fun c => gone c.id) db.tables.cats := by
  rw [h]
  rfl

theorem Veiled.catMedia (h : Veiled gone db db') :
    db'.tables.catMedia = deleteWhere (fun m => gone m.catId) db.tables.catMedia := by
  rw [h]
  rfl

theorem Veiled.updates (h : Veiled gone db db') :
    db'.tables.updates = deleteWhere (fun u => gone u.catId) db.tables.updates := by
  rw [h]
  rfl

theorem Veiled.updateStatuses (h : Veiled gone db db') :
    db'.tables.updateStatuses =
      deleteWhere (fun s => goneUpdate gone db.tables.updates s.updateId) db.tables.updateStatuses := by
  rw [h]
  rfl

theorem Veiled.follows (h : Veiled gone db db') :
    db'.tables.follows = deleteWhere (fun f => gone f.catId) db.tables.follows := by
  rw [h]
  rfl

theorem Veiled.reports (h : Veiled gone db db') :
    db'.tables.reports = deleteWhere (goneReport gone db.tables.updates) db.tables.reports := by
  rw [h]
  rfl

/-- Media hang off no cat. -/
theorem createMedia_alike (h : Veiled gone db db') (row : Medium) :
    Alike (fun r r' => r.1 = r'.1 ∧ Veiled gone r.2 r'.2 ∧
        r.2.tables = { db.tables with media := db.tables.media ++ [row] })
      (createMedia row db) (createMedia row db') := by
  unfold createMedia
  rw [h.media]
  split
  · exact .error _
  · refine Alike.bind (write_alike h rfl rfl ?_ ?_) fun d d' hd => .ok ⟨rfl, hd⟩
    · rw [h]
      rfl
    · intro c hc
      have h0 := db.valid.holds c
      cases c
      case mediaPkey => exact hc
      case mediaUserIdempotencyUq => exact hc
      case mediaUploadedByUserIdFkey => exact hc
      case mediaUploadedByDeviceIdFkey => exact hc
      case catsPrimaryPhotoIdFkey => exact h0.append_parent _
      case catMediaMediaIdFkey => exact h0.append_parent _
      case updatesMediaIdFkey => exact h0.append_parent _
      all_goals exact h0

theorem ne_of_gone {id id' : UUID} (h : gone id = true) (h' : gone id' = false) : id ≠ id' := by
  rintro rfl
  rw [h] at h'
  cases h'

theorem without_cat {t : Tables} {row : Cat} (hid : gone row.id = false) :
    without gone { t with cats := t.cats ++ [row] } =
      { without gone t with cats := (without gone t).cats ++ [row] } := by
  simp [without, deleteWhere, hid]

/-- A new cat whose owner owns none that is gone. -/
theorem createCat_alike (h : Veiled gone db db') (arg : CreateCatParams) (now : Instant)
    (hid : gone arg.id = false)
    (hown : ∀ c ∈ db.tables.cats, gone c.id = true →
      c.createdByUserId ≠ some arg.createdByUserId) :
    Alike (fun r r' => r.1 = r'.1 ∧ r.1.id = arg.id ∧ Veiled gone r.2 r'.2 ∧
        r.2.tables = { db.tables with cats := db.tables.cats ++ [r.1] })
      (createCat arg now db) (createCat arg now db') := by
  have hany : (db'.tables.cats.any fun c => c.createdByUserId == some arg.createdByUserId &&
      c.idempotencyKey == arg.idempotencyKey) =
      db.tables.cats.any fun c => c.createdByUserId == some arg.createdByUserId &&
        c.idempotencyKey == arg.idempotencyKey := by
    rw [h.cats]
    apply any_deleteWhere _ fun _ _ _ => rfl
    intro c hc hgone
    simp [hown c hc hgone]
  unfold createCat
  rw [hany]
  dsimp only
  split
  · exact .error _
  · refine Alike.bind (write_alike h rfl rfl ?_ ?_) fun d d' hd => .ok ⟨rfl, rfl, hd⟩
    · dsimp only
      rw [without_cat hid, h]
    · intro c hc
      rw [without_cat hid] at hc
      have h0 := db.valid.holds c
      cases c
      case catsPkey =>
        apply uniqueOn_append_of_kept h0 hc
        intro q hq hgone r hr
        cases List.mem_singleton.mp hr
        exact .inr fun heq => ne_of_gone hgone hid (Option.some.inj heq)
      case catsUserIdempotencyUq =>
        apply uniqueOn_append_of_kept h0 hc
        intro q hq hgone r hr
        cases List.mem_singleton.mp hr
        by_cases hkey : both q.createdByUserId q.idempotencyKey = none
        · exact .inl hkey
        · refine .inr fun heq => hown q hq hgone ?_
          simp only [both] at heq hkey
          cases howner : q.createdByUserId <;> cases hk : q.idempotencyKey <;>
            cases harg : arg.idempotencyKey <;> simp_all
      case catsCreatedByUserIdFkey =>
        exact references_append_of_kept h0 hc fun b hb => hb
      case catsCreatedByDeviceIdFkey =>
        exact references_append_of_kept h0 hc fun b hb => hb
      case catsPrimaryPhotoIdFkey =>
        exact references_append_of_kept h0 hc fun b hb => hb
      case catMediaCatIdFkey => exact h0.append_parent _
      case updatesCatIdFkey => exact h0.append_parent _
      case followsCatIdFkey => exact h0.append_parent _
      case notificationOutboxCatIdFkey => exact h0.append_parent _
      case notificationsCatIdFkey => exact h0.append_parent _
      all_goals exact h0

theorem without_catMedium {t : Tables} {row : CatMedium} (hcat : gone row.catId = false) :
    without gone { t with catMedia := t.catMedia ++ [row] } =
      { without gone t with catMedia := (without gone t).catMedia ++ [row] } := by
  simp [without, deleteWhere, hcat]

/-- An entry in the gallery of a cat that stays. -/
theorem createCatMedia_alike (h : Veiled gone db db') {id catId : UUID} (mediaId : UUID)
    (createdAt : Instant) (hcat : gone catId = false)
    (hid : ∀ m ∈ db.tables.catMedia, gone m.catId = true → m.id ≠ id) :
    Alike (fun r r' => r.1 = r'.1 ∧ Veiled gone r.2 r'.2 ∧
        r.2.tables = { db.tables with catMedia := r.2.tables.catMedia })
      (createCatMedia id catId mediaId createdAt db)
      (createCatMedia id catId mediaId createdAt db') := by
  have hany : (db'.tables.catMedia.any fun m => m.catId == catId && m.mediaId == mediaId) =
      db.tables.catMedia.any fun m => m.catId == catId && m.mediaId == mediaId := by
    rw [h.catMedia]
    apply any_deleteWhere _ fun _ _ _ => rfl
    intro m hm hgone
    simp [ne_of_gone hgone hcat]
  unfold createCatMedia
  rw [hany]
  dsimp only
  split
  · exact .error _
  · refine Alike.bind (write_alike h rfl rfl ?_ ?_) fun d d' hd => .ok ⟨rfl, hd.1, ?_⟩
    · dsimp only
      rw [without_catMedium hcat, h]
    · intro c hc
      rw [without_catMedium hcat] at hc
      have h0 := db.valid.holds c
      cases c
      case catMediaPkey =>
        apply uniqueOn_append_of_kept h0 hc
        intro q hq hgone r hr
        cases List.mem_singleton.mp hr
        exact .inr fun heq => hid q hq hgone (Option.some.inj heq)
      case catMediaCatIdMediaIdKey =>
        apply uniqueOn_append_of_kept h0 hc
        intro q hq hgone r hr
        cases List.mem_singleton.mp hr
        exact .inr fun heq =>
          ne_of_gone hgone hcat (congrArg Prod.fst (Option.some.inj heq))
      case catMediaCatIdFkey =>
        exact references_append_of_kept h0 hc fun b hb => (mem_deleteWhere.mp hb).1
      case catMediaMediaIdFkey =>
        exact references_append_of_kept h0 hc fun b hb => hb
      all_goals exact h0
    · rw [hd.2]

/-- The key of an update in `updates_user_idempotency_uq`. -/
def indexKey (u : Update) : Option (UUID × String) :=
  if u.kind = .ordinary then both u.authorUserId u.idempotencyKey else none

theorem without_update {t : Tables} {row : Update} {seq : ℕ} (hcat : gone row.catId = false) :
    without gone { t with updates := t.updates ++ [row], updatesSeq := seq } =
      { without gone t with updates := (without gone t).updates ++ [row], updatesSeq := seq } := by
  have hgone : goneUpdate gone (t.updates ++ [row]) = goneUpdate gone t.updates := by
    funext id
    simp [goneUpdate, hcat]
  have hreport : goneReport gone (t.updates ++ [row]) = goneReport gone t.updates := by
    funext r
    simp only [goneReport, hgone]
  simp [without, deleteWhere, hcat, hgone, hreport]

theorem write_congr {f g : Tables → Tables} (hf : f db.tables = g db.tables) :
    db.write f = db.write g := by
  simp only [Database.write, hf]

/-- Under a new identifier the statement inserts. -/
theorem createUpdate_eq {arg : Store.CreateOrdinaryUpdateParams}
    (hid : UpdateCreation.FreshId arg.id db.tables) :
    createUpdate arg.row db = (do
      let db ← db.write fun t => { t with
        updates := t.updates ++ [arg.row.insert t.updatesSeq]
        updatesSeq := t.updatesSeq + 1 }
      return (arg.id, db)) := by
  have hnone : (db.tables.updates.any fun u => u.id == arg.id) = false := by
    simpa [UpdateCreation.FreshId] using hid
  unfold createUpdate
  rw [write_congr]
  · rfl
  · exact if_neg (ne_true_of_eq_false hnone)

/-- A new update of a cat that stays, under a key that names no update that is gone. -/
theorem createUpdate_alike (h : Veiled gone db db') {arg : Store.CreateOrdinaryUpdateParams}
    (hcat : gone arg.catId = false) (hid : UpdateCreation.FreshId arg.id db.tables)
    (hkey : ∀ u ∈ db.tables.updates, gone u.catId = true → indexKey u = none ∨
      indexKey u ≠ both (some arg.authorUserId) arg.idempotencyKey) :
    Alike (fun r r' => r.1 = r'.1 ∧ r.1 = arg.id ∧ Veiled gone r.2 r'.2 ∧
        r.2.tables = { db.tables with
          updates := db.tables.updates ++ [arg.row.insert db.tables.updatesSeq]
          updatesSeq := db.tables.updatesSeq + 1 })
      (createUpdate arg.row db) (createUpdate arg.row db') := by
  have hid' : UpdateCreation.FreshId arg.id db'.tables := by
    intro u hu
    rw [h.updates] at hu
    exact hid u (mem_deleteWhere.mp hu).1
  rw [createUpdate_eq hid, createUpdate_eq hid']
  refine Alike.bind (write_alike h rfl rfl ?_ ?_) fun d d' hd => .ok ⟨rfl, rfl, hd⟩
  · dsimp only
    rw [without_update hcat, h]
    rfl
  · intro c hc
    rw [without_update hcat] at hc
    have h0 := db.valid.holds c
    cases c
    case updatesPkey =>
      apply uniqueOn_append_of_kept h0 hc
      intro q hq _ r hr
      cases List.mem_singleton.mp hr
      exact .inr fun heq => hid q hq (Option.some.inj heq)
    case updatesUserIdempotencyUq =>
      apply uniqueOn_append_of_kept h0 hc
      intro q hq hgone r hr
      cases List.mem_singleton.mp hr
      exact hkey q hq hgone
    case updatesNeedsHelpFieldsCk =>
      intro u hu
      rcases List.mem_append.mp hu with hu | hu
      · exact h0 u hu
      · exact hc u (List.mem_append_right _ hu)
    case updatesCatIdFkey =>
      exact references_append_of_kept h0 hc fun b hb => (mem_deleteWhere.mp hb).1
    case updatesAuthorDeviceIdFkey => exact references_append_of_kept h0 hc fun b hb => hb
    case updatesAuthorUserIdFkey => exact references_append_of_kept h0 hc fun b hb => hb
    case updatesMediaIdFkey => exact references_append_of_kept h0 hc fun b hb => hb
    case updateStatusesUpdateIdFkey => exact h0.append_parent _
    case notificationOutboxUpdateIdFkey => exact h0.append_parent _
    case notificationsUpdateIdFkey => exact h0.append_parent _
    all_goals exact h0

theorem without_status {t : Tables} {row : UpdateStatus}
    (hid : goneUpdate gone t.updates row.updateId = false) :
    without gone { t with updateStatuses := t.updateStatuses ++ [row] } =
      { without gone t with updateStatuses := (without gone t).updateStatuses ++ [row] } := by
  simp [without, deleteWhere, hid]

/-- A status of an update that stays. -/
theorem createUpdateStatus_alike (h : Veiled gone db db') {updateId : UUID} (status : Status)
    (hid : goneUpdate gone db.tables.updates updateId = false) :
    Alike (fun d d' => Veiled gone d d' ∧
        d.tables = { db.tables with updateStatuses := d.tables.updateStatuses })
      (createUpdateStatus updateId status db) (createUpdateStatus updateId status db') := by
  have hany : (db'.tables.updateStatuses.any fun s =>
      s.updateId == updateId && s.status == status) =
      db.tables.updateStatuses.any fun s => s.updateId == updateId && s.status == status := by
    rw [h.updateStatuses]
    apply any_deleteWhere _ fun _ _ _ => rfl
    intro s hs hgone
    have hne : s.updateId ≠ updateId := by
      rintro rfl
      rw [hid] at hgone
      cases hgone
    simp [hne]
  unfold createUpdateStatus
  rw [hany]
  split
  · exact .ok ⟨h, rfl⟩
  · refine (write_alike h rfl rfl ?_ ?_).mono fun d d' hd => ⟨hd.1, ?_⟩
    · dsimp only
      rw [without_status hid, h]
    · intro c hc
      rw [without_status hid] at hc
      have h0 := db.valid.holds c
      cases c
      case updateStatusesPkey =>
        apply uniqueOn_append_of_kept h0 hc
        intro q hq hgone r hr
        cases List.mem_singleton.mp hr
        refine .inr fun heq => ?_
        have hq : q.updateId = updateId := congrArg Prod.fst (Option.some.inj heq)
        rw [hq, hid] at hgone
        cases hgone
      case updateStatusesUpdateIdFkey =>
        exact references_append_of_kept h0 hc fun b hb => (mem_deleteWhere.mp hb).1
      all_goals exact h0
    · rw [hd.2]

theorem without_touched {t : Tables} (p : Cat → Bool) (f : Cat → Cat) (hf : ∀ c, (f c).id = c.id) :
    without gone { t with cats := updateWhere p f t.cats } =
      { without gone t with cats := updateWhere p f (without gone t).cats } := by
  have hcats : deleteWhere (fun c => gone c.id) (updateWhere p f t.cats) =
      updateWhere p f (deleteWhere (fun c => gone c.id) t.cats) := by
    rw [updateWhere, deleteWhere, List.filter_map]
    congr 1
    apply List.filter_congr
    intro c _
    by_cases hp : p c <;> simp [hp, hf]
  simp only [without, hcats]

/-- The freshness of any cat. -/
theorem updateCatLastUpdateAt_alike (h : Veiled gone db db') (at' : Instant) (id : UUID) :
    Alike (fun d d' => Veiled gone d d' ∧ d.tables = { db.tables with cats := d.tables.cats })
      (updateCatLastUpdateAt at' id db) (updateCatLastUpdateAt at' id db') := by
  refine (write_alike h rfl rfl ?_ ?_).mono fun d d' hd => ⟨hd.1, ?_⟩
  · dsimp only
    rw [without_touched (fun c => c.id == id)
      (fun c => { c with lastUpdateAt := greatest c.lastUpdateAt at' }) fun _ => rfl, h]
  · intro c _
    have h0 := db.valid.holds c
    cases c
    case catsPkey => exact h0.updateWhere _ fun _ => rfl
    case catsUserIdempotencyUq => exact h0.updateWhere _ fun _ => rfl
    case catsCreatedByUserIdFkey => exact h0.updateWhere_child _ fun _ => .inl rfl
    case catsCreatedByDeviceIdFkey => exact h0.updateWhere_child _ fun _ => .inl rfl
    case catsPrimaryPhotoIdFkey => exact h0.updateWhere_child _ fun _ => .inl rfl
    case catMediaCatIdFkey => exact h0.updateWhere_parent _ fun _ => rfl
    case updatesCatIdFkey => exact h0.updateWhere_parent _ fun _ => rfl
    case followsCatIdFkey => exact h0.updateWhere_parent _ fun _ => rfl
    case notificationOutboxCatIdFkey => exact h0.updateWhere_parent _ fun _ => rfl
    case notificationsCatIdFkey => exact h0.updateWhere_parent _ fun _ => rfl
    all_goals exact h0
  · rw [hd.2]

/-- The rows that the statement adds to the outbox. -/
def outboxRows (id updateId : UUID) (now : Instant) (updates : List Update) :
    List NotificationOutbox :=
  (updates.filter fun u => u.id == updateId).map fun u =>
    { id, updateId := u.id, catId := u.catId
      needsHelpEligible := needsHelpEligible updates u, createdAt := now }

theorem mem_outboxRows {id updateId : UUID} {now : Instant} {updates : List Update}
    {o : NotificationOutbox} (h : o ∈ outboxRows id updateId now updates) :
    o.id = id ∧ o.updateId = updateId ∧ ∃ u ∈ updates, u.id = updateId ∧ o.catId = u.catId := by
  obtain ⟨u, hu, rfl⟩ := List.mem_map.mp h
  obtain ⟨hmem, hid⟩ := List.mem_filter.mp hu
  have hid : u.id = updateId := beq_iff_eq.mp hid
  exact ⟨rfl, hid, u, hmem, hid, rfl⟩

/-- Only marks of the same cat decide whether an update may notify. -/
theorem needsHelpEligible_deleteWhere {updates : List Update} {u : Update}
    (hcat : gone u.catId = false) :
    needsHelpEligible (deleteWhere (fun v => gone v.catId) updates) u =
      needsHelpEligible updates u := by
  rw [needsHelpEligible, any_deleteWhere (q := coveredBy u) _ fun _ _ _ => rfl,
    needsHelpEligible]
  intro v _ hgone
  simp [coveredBy, ne_of_gone hgone hcat]

theorem outboxRows_deleteWhere (id : UUID) {updateId : UUID} (now : Instant)
    {updates : List Update}
    (hid : goneUpdate gone updates updateId = false) :
    outboxRows id updateId now (deleteWhere (fun u => gone u.catId) updates) =
      outboxRows id updateId now updates := by
  have hkept := goneUpdate_eq_false.mp hid
  have hfilter : (deleteWhere (fun u => gone u.catId) updates).filter (fun u => u.id == updateId) =
      updates.filter fun u => u.id == updateId := by
    apply filter_deleteWhere _ fun _ _ _ => rfl
    intro u hu hgone
    apply beq_false_of_ne
    intro huid
    rw [hkept u hu huid] at hgone
    cases hgone
  rw [outboxRows, hfilter, outboxRows]
  apply List.map_congr_left
  intro u hu
  obtain ⟨hmem, huid⟩ := List.mem_filter.mp hu
  rw [needsHelpEligible_deleteWhere (hkept u hmem (beq_iff_eq.mp huid))]

theorem without_outbox {t : Tables} {rows : List NotificationOutbox}
    (hrows : ∀ o ∈ rows, (gone o.catId || goneUpdate gone t.updates o.updateId) = false) :
    without gone { t with notificationOutbox := t.notificationOutbox ++ rows } =
      { without gone t with
        notificationOutbox := (without gone t).notificationOutbox ++ rows } := by
  simp only [without, deleteWhere_append, deleteWhere_eq_self hrows]

/-- The outbox row of an update that stays and has none yet. -/
theorem createNotificationOutbox_alike (h : Veiled gone db db') {id updateId : UUID}
    (now : Instant) (hkept : goneUpdate gone db.tables.updates updateId = false)
    (hid : ∀ o ∈ db.tables.notificationOutbox, o.id ≠ id)
    (hnone : ∀ o ∈ db.tables.notificationOutbox, o.updateId ≠ updateId) :
    Alike (fun d d' => Veiled gone d d' ∧
        d.tables = { db.tables with notificationOutbox := d.tables.notificationOutbox })
      (createNotificationOutbox id updateId now db)
      (createNotificationOutbox id updateId now db') := by
  have hrows : ∀ o ∈ outboxRows id updateId now db.tables.updates,
      (gone o.catId || goneUpdate gone db.tables.updates o.updateId) = false := by
    intro o ho
    obtain ⟨-, hupdate, u, hu, huid, hcat⟩ := mem_outboxRows ho
    rw [hupdate, hkept, hcat, goneUpdate_eq_false.mp hkept u hu huid]
    rfl
  refine (write_alike h rfl rfl ?_ ?_).mono fun d d' hd => ⟨hd.1, ?_⟩
  · have hsame := outboxRows_deleteWhere id now hkept
    change _ = { without gone { db.tables with
      notificationOutbox := db.tables.notificationOutbox ++
        outboxRows id updateId now db.tables.updates } with
      userBlocks := db'.tables.userBlocks }
    rw [without_outbox hrows, ← hsame, h]
    rfl
  · intro c hc
    change c.Holds (without gone { db.tables with
      notificationOutbox := db.tables.notificationOutbox ++
        outboxRows id updateId now db.tables.updates }) at hc
    rw [without_outbox hrows] at hc
    have h0 := db.valid.holds c
    cases c
    case notificationOutboxPkey =>
      apply uniqueOn_append_of_kept h0 hc
      intro q hq _ r hr
      exact .inr fun heq => hid q hq ((Option.some.inj heq).trans (mem_outboxRows hr).1)
    case notificationOutboxUpdateIdKey =>
      apply uniqueOn_append_of_kept h0 hc
      intro q hq _ r hr
      exact .inr fun heq => hnone q hq ((Option.some.inj heq).trans (mem_outboxRows hr).2.1)
    case notificationOutboxUpdateIdFkey =>
      exact references_append_of_kept h0 hc fun b hb => (mem_deleteWhere.mp hb).1
    case notificationOutboxCatIdFkey =>
      exact references_append_of_kept h0 hc fun b hb => (mem_deleteWhere.mp hb).1
    all_goals exact h0
  · rw [hd.2]

theorem without_follow {t : Tables} {row : Follow} (hcat : gone row.catId = false) :
    without gone (insertFollow row t) =
      { without gone t with follows := (without gone t).follows ++ [row] } := by
  simp [without, insertFollow, deleteWhere, hcat]

/-- A follow of a cat that stays. -/
theorem createFollow_alike (h : Veiled gone db db') (userId : UUID) (deviceId : Option UUID)
    {catId : UUID} (hcat : gone catId = false) :
    Alike (Veiled gone) (createFollow userId deviceId catId db)
      (createFollow userId deviceId catId db') := by
  have hany : (db'.tables.follows.any fun f => f.userId == some userId && f.catId == catId) =
      db.tables.follows.any fun f => f.userId == some userId && f.catId == catId := by
    rw [h.follows]
    apply any_deleteWhere _ fun _ _ _ => rfl
    intro f hf hgone
    simp [ne_of_gone hgone hcat]
  have hclash : ∀ {κ : Type} (key : Follow → Option κ) (k : Option κ) (f : Follow),
      both (key f) (some f.catId) = none ∨ both (key f) (some f.catId) ≠ both k (some catId) ∨
        f.catId = catId := by
    intro κ key k f
    cases hkey : key f with
    | none => exact .inl rfl
    | some x =>
      cases k with
      | none => exact .inr (.inl (by simp [both]))
      | some y =>
        by_cases hc : f.catId = catId
        · exact .inr (.inr hc)
        · exact .inr (.inl fun heq => hc (congrArg Prod.snd (Option.some.inj heq)))
  unfold createFollow
  rw [hany]
  split
  · exact .ok h
  · refine (write_alike h rfl rfl ?_ ?_).mono fun d d' hd => hd.1
    · rw [without_follow hcat, h]
      rfl
    · intro c hc
      rw [without_follow hcat] at hc
      have h0 := db.valid.holds c
      cases c
      case followsDeviceCatUq =>
        apply uniqueOn_append_of_kept h0 hc
        intro q hq hgone r hr
        cases List.mem_singleton.mp hr
        rcases hclash Follow.deviceId deviceId q with hkey | hkey | hkey
        · exact .inl hkey
        · exact .inr hkey
        · exact absurd hkey (ne_of_gone hgone hcat)
      case followsUserCatUq =>
        apply uniqueOn_append_of_kept h0 hc
        intro q hq hgone r hr
        cases List.mem_singleton.mp hr
        rcases hclash Follow.userId (some userId) q with hkey | hkey | hkey
        · exact .inl hkey
        · exact .inr hkey
        · exact absurd hkey (ne_of_gone hgone hcat)
      case followsOwnerCk =>
        intro f hf
        rcases List.mem_append.mp hf with hf | hf
        · exact h0 f hf
        · exact hc f (List.mem_append_right _ hf)
      case followsDeviceIdFkey => exact references_append_of_kept h0 hc fun b hb => hb
      case followsUserIdFkey => exact references_append_of_kept h0 hc fun b hb => hb
      case followsCatIdFkey =>
        exact references_append_of_kept h0 hc fun b hb => (mem_deleteWhere.mp hb).1
      all_goals exact h0

theorem without_report {t : Tables} {row : Report}
    (hkept : goneReport gone t.updates row = false) :
    without gone { t with reports := t.reports ++ [row] } =
      { without gone t with reports := (without gone t).reports ++ [row] } := by
  simp [without, deleteWhere, hkept]

/-- Reports about one target are all gone or all there. -/
theorem goneReport_congr {updates : List Update} {r r' : Report}
    (htype : r.targetType = r'.targetType) (hid : r.targetId = r'.targetId) :
    goneReport gone updates r = goneReport gone updates r' := by
  rw [goneReport, htype, hid, goneReport]

/-- A report about something that stays. -/
theorem createReport_alike (h : Veiled gone db db') {row : Report}
    (hkept : goneReport gone db.tables.updates row = false)
    (hid : ∀ r ∈ db.tables.reports, r.id ≠ row.id) :
    Alike (fun r r' => r.1 = r'.1 ∧ Veiled gone r.2 r'.2)
      (createReport row db) (createReport row db') := by
  have hany : (db'.tables.reports.any fun r =>
      r.reporterUserId == row.reporterUserId && r.targetType == row.targetType &&
        r.targetId == row.targetId && r.status == .«open» && row.status == .«open») =
      db.tables.reports.any fun r =>
        r.reporterUserId == row.reporterUserId && r.targetType == row.targetType &&
          r.targetId == row.targetId && r.status == .«open» && row.status == .«open» := by
    rw [h.reports]
    apply any_deleteWhere _ fun _ _ _ => rfl
    intro r hr hgone
    by_contra hmatch
    simp only [Bool.not_eq_false, Bool.and_eq_true, beq_iff_eq] at hmatch
    rw [goneReport_congr hmatch.1.1.1.2 hmatch.1.1.2, hkept] at hgone
    cases hgone
  unfold createReport
  rw [hany]
  split
  · exact .error _
  · refine Alike.bind (write_alike h rfl rfl ?_ ?_) fun d d' hd => .ok ⟨rfl, hd.1⟩
    · dsimp only
      rw [without_report hkept, h]
    · intro c hc
      rw [without_report hkept] at hc
      have h0 := db.valid.holds c
      cases c
      case reportsPkey =>
        apply uniqueOn_append_of_kept h0 hc
        intro q hq _ r hr
        cases List.mem_singleton.mp hr
        exact .inr fun heq => hid q hq (Option.some.inj heq)
      case reportsReporterTargetOpenUq =>
        apply uniqueOn_append_of_kept h0 hc
        intro q hq hgone r hr
        cases List.mem_singleton.mp hr
        by_cases hopen : q.status = .«open»
        · refine .inr fun heq => ?_
          rw [if_pos hopen] at heq
          split at heq
          · have htarget := congrArg Prod.snd (Option.some.inj heq)
            rw [goneReport_congr (congrArg Prod.fst htarget) (congrArg Prod.snd htarget),
              hkept] at hgone
            cases hgone
          · cases heq
        · exact .inl (if_neg hopen)
      case reportsOtherRequiresNoteCk =>
        intro r hr
        rcases List.mem_append.mp hr with hr | hr
        · exact h0 r hr
        · exact hc r (List.mem_append_right _ hr)
      case reportsReporterUserIdFkey => exact references_append_of_kept h0 hc fun b hb => hb
      all_goals exact h0

end Statements

section Transactions

variable {gone : UUID → Bool} {db db' : Database}

theorem createStatuses_alike (h : Veiled gone db db') {updateId : UUID} (statuses : List Status)
    (hid : goneUpdate gone db.tables.updates updateId = false) :
    Alike (fun d d' => Veiled gone d d' ∧
        d.tables = { db.tables with updateStatuses := d.tables.updateStatuses })
      (statuses.foldlM (fun db status => createUpdateStatus updateId status db) db)
      (statuses.foldlM (fun db status => createUpdateStatus updateId status db) db') := by
  induction statuses generalizing db db' with
  | nil => exact .ok ⟨h, rfl⟩
  | cons status statuses ih =>
    rw [List.foldlM_cons, List.foldlM_cons]
    refine (createUpdateStatus_alike h status hid).bind fun d d' hd => ?_
    refine (ih hd.1 (by rw [hd.2]; exact hid)).mono fun e e' he => ⟨he.1, ?_⟩
    rw [he.2, hd.2]

/-- A gallery of a cat that stays. -/
theorem linkGallery_alike (h : Veiled gone db db') {catMediaId : UUID}
    {arg : Store.CreateOrdinaryUpdateParams} (hcat : gone arg.catId = false)
    (hid : ∀ m ∈ db.tables.catMedia, gone m.catId = true → m.id ≠ catMediaId) :
    Alike (fun d d' => Veiled gone d d' ∧
        d.tables = { db.tables with catMedia := d.tables.catMedia })
      (Store.linkGallery catMediaId arg db) (Store.linkGallery catMediaId arg db') := by
  unfold Store.linkGallery
  split
  · exact .ok ⟨h, rfl⟩
  · rename_i mediaId _
    have hlink := createCatMedia_alike h mediaId arg.createdAt hcat hid
    generalize createCatMedia catMediaId arg.catId mediaId arg.createdAt db = x at hlink ⊢
    generalize createCatMedia catMediaId arg.catId mediaId arg.createdAt db' = y at hlink ⊢
    cases hlink with
    | ok hd => exact .ok hd.2
    | error e =>
      unfold Store.unlessNoRows
      split
      · rename_i heq
        cases heq
      · exact .ok ⟨h, rfl⟩
      · exact .error _

/-- No row has the identifier. -/
structure Unused (id : UUID) (t : Tables) : Prop where
  cats : ∀ c ∈ t.cats, c.id ≠ id
  catMedia : ∀ m ∈ t.catMedia, m.id ≠ id
  updates : ∀ u ∈ t.updates, u.id ≠ id
  outbox : ∀ o ∈ t.notificationOutbox, o.id ≠ id
  reports : ∀ r ∈ t.reports, r.id ≠ id

/-- An outbox row is about an update that there is. -/
theorem no_outbox {id : UUID} (h : Unused id db.tables) :
    ∀ o ∈ db.tables.notificationOutbox, o.updateId ≠ id := by
  intro o ho hid
  obtain ⟨u, hu, huid⟩ := db.valid.holds .notificationOutboxUpdateIdFkey o ho o.updateId rfl
  exact h.updates u hu (huid.trans hid)

/-- The transaction of an update of a cat that stays. -/
theorem createOrdinaryUpdate_alike (h : Veiled gone db db') {catMediaId outboxId : UUID}
    (now : Instant) {arg : Store.CreateOrdinaryUpdateParams} (hcat : gone arg.catId = false)
    (hid : Unused arg.id db.tables) (hcm : Unused catMediaId db.tables)
    (hout : Unused outboxId db.tables)
    (hkey : ∀ u ∈ db.tables.updates, gone u.catId = true → indexKey u = none ∨
      indexKey u ≠ both (some arg.authorUserId) arg.idempotencyKey) :
    Alike (fun r r' => r.1 = r'.1 ∧ Veiled gone r.2 r'.2)
      (Store.createOrdinaryUpdate catMediaId outboxId now arg db)
      (Store.createOrdinaryUpdate catMediaId outboxId now arg db') := by
  unfold Store.createOrdinaryUpdate
  refine (createUpdate_alike h hcat hid.updates hkey).bind ?_
  rintro ⟨id, d₁⟩ ⟨id', d₁'⟩ ⟨hids, hid₁, hd₁, ht₁⟩
  dsimp only at hids hid₁ hd₁ ht₁ ⊢
  subst hids hid₁
  have hkept : goneUpdate gone d₁.tables.updates arg.id = false := by
    rw [ht₁]
    refine goneUpdate_eq_false.mpr fun u hu huid => ?_
    rcases List.mem_append.mp hu with hu | hu
    · exact absurd huid (hid.updates u hu)
    · cases List.mem_singleton.mp hu
      exact hcat
  refine (createStatuses_alike hd₁ arg.statuses hkept).bind fun d₂ d₂' hd₂ => ?_
  refine (updateCatLastUpdateAt_alike hd₂.1 arg.createdAt arg.catId).bind fun d₃ d₃' hd₃ => ?_
  have ht₃ : d₃.tables.catMedia = db.tables.catMedia ∧
      d₃.tables.updates = d₁.tables.updates ∧
      d₃.tables.notificationOutbox = db.tables.notificationOutbox := by
    rw [hd₃.2, hd₂.2, ht₁]
    exact ⟨rfl, rfl, rfl⟩
  refine (linkGallery_alike hd₃.1 hcat fun m hm _ => hcm.catMedia m (ht₃.1 ▸ hm)).bind
    fun d₄ d₄' hd₄ => ?_
  have ht₄ : d₄.tables.updates = d₁.tables.updates ∧
      d₄.tables.notificationOutbox = db.tables.notificationOutbox := by
    rw [hd₄.2]
    exact ht₃.2
  refine (createNotificationOutbox_alike hd₄.1 now (ht₄.1 ▸ hkept)
    (fun o ho => hout.outbox o (ht₄.2 ▸ ho)) fun o ho => no_outbox hid o (ht₄.2 ▸ ho)).bind
    fun d₅ d₅' hd₅ => .ok ⟨rfl, hd₅.1⟩

/-- The transaction of a cat whose owner owns none that is gone. -/
theorem createCatWithMedia_alike (h : Veiled gone db db') {catMediaId : UUID} (now : Instant)
    (media : Medium) (cat : CreateCatParams) (hid : gone cat.id = false)
    (hown : ∀ c ∈ db.tables.cats, gone c.id = true →
      c.createdByUserId ≠ some cat.createdByUserId) (hcm : Unused catMediaId db.tables) :
    Alike (fun r r' => r.1 = r'.1 ∧ Veiled gone r.2 r'.2)
      (Store.createCatWithMedia catMediaId now media cat db)
      (Store.createCatWithMedia catMediaId now media cat db') := by
  unfold Store.createCatWithMedia
  refine (createMedia_alike h media).bind ?_
  rintro ⟨m, d₁⟩ ⟨m', d₁'⟩ ⟨hm, hd₁, ht₁⟩
  dsimp only at hm hd₁ ht₁ ⊢
  subst hm
  have hown₁ : ∀ c ∈ d₁.tables.cats, gone c.id = true →
      c.createdByUserId ≠ some cat.createdByUserId := by
    rw [ht₁]
    exact hown
  refine (createCat_alike hd₁ { cat with primaryPhotoId := some m.id } now hid hown₁).bind ?_
  rintro ⟨c, d₂⟩ ⟨c', d₂'⟩ ⟨hc, hcid, hd₂, ht₂⟩
  dsimp only at hc hcid hd₂ ht₂ ⊢
  subst hc
  have hcm₂ : ∀ m ∈ d₂.tables.catMedia, gone m.catId = true → m.id ≠ catMediaId := by
    rw [ht₂, ht₁]
    exact fun m hm _ => hcm.catMedia m hm
  have hcat : gone c.id = false := by
    rw [hcid]
    exact hid
  exact (createCatMedia_alike hd₂ m.id c.createdAt hcat hcm₂).bind fun r r' hr => .ok ⟨rfl, hr.2.1⟩

end Transactions

end Tekir.HiddenCats
