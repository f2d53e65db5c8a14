import Tekir.DetailView
import Tekir.DiscoverPages

/-!
# The active alert of a cat

Every read of a cat derives the same alert: that of its newest live help mark, as long as
that one has not expired. A mark that the services write expires seventy-two hours after
its creation, so a cat has an alert precisely if any of its live marks has not expired.
-/
namespace Tekir.ActiveAlerts
open Machine Table Schema Statements AccountQueries CatQueries UpdateQueries DeletionQueries
  ReadQueries Environment CatServices ReadServices Backend Integrity ServiceEffects UpdateCreation
  ArchiveEffects
open DetailView (newestFirst_iff newestUpdate_eq_none newestUpdate_spec)

/-- A live help mark of the cat. -/
def isMark (catId : UUID) (u : Update) : Bool :=
  u.catId == catId && u.needsHelp && u.deletedAt.isNone

def marks (catId : UUID) (t : Tables) : List Update :=
  t.updates.filter (isMark catId)

/-- What the reads derive from the newest of some marks. -/
def alertOf (clock : Instant) (us : List Update) : Option ActiveAlert :=
  deriveActiveAlert clock (orderBy newestFirst us).head?

/-- A help mark expires seventy-two hours after its creation. -/
def OnTime (u : Update) : Prop :=
  u.needsHelp = true → u.needsHelpExpiresAt = some (needsHelpExpiresAt u.createdAt)

def Timed (t : Tables) : Prop :=
  ∀ u ∈ t.updates, OnTime u

/-- Help marks that are older than the accounts, if there are any, are on time too. -/
def Start (w : World) : Prop :=
  Genesis w ∧ Timed w.db.tables

/-- The alert is that of the newest mark, and is there as long as some mark has not expired. -/
structure Law (clock : Instant) (us : List Update) (alert : Option ActiveAlert) : Prop where
  active : alert ≠ none ↔ ∃ u ∈ us, clock < needsHelpExpiresAt u.createdAt
  newest : ∀ a, alert = some a → ∃ u ∈ us,
    (∀ v ∈ us, v.createdAt < u.createdAt ∨ v.createdAt = u.createdAt ∧ v.seq ≤ u.seq) ∧
    a.comment = u.comment ∧ a.createdAt = u.createdAt ∧
    a.expiresAt = needsHelpExpiresAt u.createdAt

/-- Every read that shows the cat shows this alert. -/
structure Agree (read : Reading) (clock : Instant) (viewer : Option UUID) (c : Cat)
    (db : Database) (alert : Option ActiveAlert) : Prop where
  listNearby : ∀ bounds markers, ReadServices.listNearby read clock bounds viewer db = .ok markers →
    ((∃ m ∈ markers, m.id = c.id) ↔ read.overlaps bounds c.area = true) ∧
    ∀ m ∈ markers, m.id = c.id → m.activeAlert = alert
  getCatDetail : ∃ d, CatServices.getCatDetail clock c.id viewer db = .ok d ∧
    d.activeAlert = alert
  listFollows : ∀ userId, viewer = some userId →
    ((∃ m ∈ ReadServices.listFollows clock userId db, m.id = c.id) ↔
      ∃ f ∈ db.tables.follows, f.userId = some userId ∧ f.catId = c.id) ∧
    ∀ m ∈ ReadServices.listFollows clock userId db, m.id = c.id → m.activeAlert = alert
  listDiscover : ∀ point cursor limit page,
    ReadServices.listDiscover read clock "nearby" point cursor limit viewer db = .ok page →
    ∀ x ∈ page.items, x.id = c.id → x.activeAlert = alert

section Newest

variable {clock : Instant} {us : List Update}

theorem exists_newest (hus : us ≠ []) : ∃ u ∈ us, (orderBy newestFirst us).head? = some u ∧
    ∀ v ∈ us, newestFirst u v = true := by
  obtain ⟨v, hv⟩ := List.exists_mem_of_ne_nil us hus
  cases hhead : (orderBy newestFirst us).head? with
  | none =>
    have hnil := List.head?_eq_none_iff.mp hhead
    have hmem : v ∈ orderBy newestFirst us := mem_orderBy.mpr hv
    rw [hnil] at hmem
    cases hmem
  | some u =>
    refine ⟨u, mem_orderBy.mp (List.mem_of_mem_head? hhead), rfl, fun v hv => ?_⟩
    obtain ⟨first, hfirst, hbefore⟩ := ResendCooldown.exists_head_orderBy newestFirst
      DetailView.newestFirst_total DetailView.newestFirst_trans hv
    obtain rfl : first = u := Option.some.inj (hfirst.symm.trans hhead)
    exact hbefore

/-- The newest of some marks that expire in their time decides for all of them. -/
theorem law_of_timed (htimed : ∀ u ∈ us, u.needsHelpExpiresAt =
    some (needsHelpExpiresAt u.createdAt)) : Law clock us (alertOf clock us) := by
  by_cases hus : us = []
  · subst hus
    exact ⟨by simp [alertOf, orderBy, deriveActiveAlert], fun a ha => by cases ha⟩
  · obtain ⟨u, hu, hhead, hnewest⟩ := exists_newest hus
    have hexpires := htimed u hu
    have halert : alertOf clock us = if clock < needsHelpExpiresAt u.createdAt then
        some { category := (alertCategory u.needsHelpCategory).1
               categoryLabel := (alertCategory u.needsHelpCategory).2, comment := u.comment
               createdAt := u.createdAt, expiresAt := needsHelpExpiresAt u.createdAt }
        else none := by
      simp only [alertOf, hhead, deriveActiveAlert, hexpires, Option.bind_eq_bind,
        Option.bind_some]
    rw [halert]
    refine ⟨?_, fun a ha => ?_⟩
    · constructor
      · intro hsome
        split at hsome
        · exact ⟨u, hu, by assumption⟩
        · exact absurd rfl hsome
      · rintro ⟨v, hv, hlt⟩
        have hle : v.createdAt ≤ u.createdAt := by
          rcases newestFirst_iff.mp (hnewest v hv) with hvu | ⟨heq, -⟩
          · exact hvu.le
          · exact heq.ge
        have hactive : clock < needsHelpExpiresAt u.createdAt :=
          hlt.trans_le (Int.add_le_add_right hle _)
        rw [if_pos hactive]
        simp
    · split at ha
      · cases ha
        refine ⟨u, hu, fun v hv => ?_, rfl, rfl, rfl⟩
        rcases newestFirst_iff.mp (hnewest v hv) with hlt | ⟨heq, hle⟩
        · exact .inl hlt
        · exact .inr ⟨heq.symm, hle⟩
      · cases ha

end Newest

section Writes

variable {cfg : Config} {env : Env} {w : World} {t t' : Tables}

theorem Timed.congr (h : Timed t) (heq : t'.updates = t.updates) : Timed t' := by
  unfold Timed
  rw [heq]
  exact h

/-- Rewriting rows keeps them on time if the rewriting does. -/
theorem Timed.updateWhere (h : Timed t) {p : Update → Bool} {f : Update → Update}
    (heq : t'.updates = Table.updateWhere p f t.updates) (hf : ∀ u, OnTime u → OnTime (f u)) :
    Timed t' := by
  intro u' hu'
  rw [heq] at hu'
  obtain ⟨u, hu, rfl⟩ := mem_updateWhere.mp hu'
  split
  · exact hf u (h u hu)
  · exact h u hu

theorem setCoverPhoto_updates {id caller : UUID} {mediaId : Option UUID} :
    (setCoverPhoto env id caller mediaId w).2.db.tables.updates = w.db.tables.updates := by
  unfold setCoverPhoto
  split
  · rfl
  · rfl
  · split
    · rfl
    · rfl
    · split
      · rfl
      · rename_i hwrite
        simp only [write_eq_ok.mp hwrite]

theorem renameCat_updates {id caller : UUID} {name : String} :
    (renameCat env id caller name w).2.db.tables.updates = w.db.tables.updates := by
  unfold renameCat
  split
  · rfl
  · split
    · rfl
    · rename_i hwrite
      simp only [write_eq_ok.mp hwrite]

/-- What is written of a creation is on time if its parameters are. -/
theorem Timed.written (h : Timed w.db.tables) {userId : UUID} {w' : World}
    {arg : Store.CreateOrdinaryUpdateParams} (hw : Written env userId arg w w')
    (harg : arg.needsHelp = true →
      arg.needsHelpExpiresAt = some (needsHelpExpiresAt arg.createdAt)) : Timed w'.db.tables := by
  obtain ⟨db₁, hcreate, hupdates, -⟩ := store_updates hw.commits
  refine Timed.congr ?_ hupdates
  obtain ⟨-, ⟨-, ht⟩ | ⟨-, ht⟩⟩ := createUpdate_cases hcreate
  · exact h.updateWhere (congrArg Tables.updates ht :) fun _ _ => harg
  · intro u hu
    rw [ht] at hu
    rcases List.mem_append.mp hu with hu | hu
    · exact h u hu
    · rw [List.mem_singleton.mp hu]
      exact harg

/-- A correction rewrites the row it names, or nothing. -/
theorem correctOwnUpdate_rows {catId updateId : Option UUID} {userId : UUID}
    {correction : UpdateCorrection} :
    let r := correctOwnUpdate env catId updateId userId correction w
    (r.1.isOk = false ∧ r.2 = w) ∨
      ∃ params carries, prepareCorrection env catId updateId userId correction = .ok params ∧
        (∃ row ∈ w.db.tables.updates, params.row.matches carries row = true) ∧
        r.2.db.tables.updates =
          updateWhere (params.row.matches carries) params.row.assign w.db.tables.updates ∧
        r.2.db.tables.cats = w.db.tables.cats := by
  dsimp only
  unfold correctOwnUpdate
  split
  · exact .inl ⟨rfl, rfl⟩
  · rename_i params hprepare
    split
    · rename_i row statuses db' hstore
      obtain ⟨⟨row', db₁⟩, hcorrect, hstore⟩ := bind_eq_ok.mp hstore
      obtain ⟨old, hone, hcorrect⟩ := bind_eq_ok.mp hcorrect
      obtain ⟨db₂, hwrite, hcorrect⟩ := bind_eq_ok.mp hcorrect
      cases hcorrect
      obtain ⟨hold, hmatches⟩ := List.mem_filter.mp (one_eq_ok hone)
      have ht := write_eq_ok.mp hwrite
      refine .inr ⟨params, _, hprepare, ⟨old, hold, hmatches⟩, ?_⟩
      dsimp only at hstore
      split at hstore
      · obtain ⟨db₃, hreplace, hstore⟩ := bind_eq_ok.mp hstore
        cases hstore
        have hsame := replaceStatuses_untouched hreplace
        exact ⟨hsame.updates.trans (congrArg Tables.updates ht :),
          hsame.cats.trans (congrArg Tables.cats ht :)⟩
      · cases hstore
        exact ⟨(congrArg Tables.updates ht :), (congrArg Tables.cats ht :)⟩
    · split
      · exact .inl ⟨rfl, rfl⟩
      · exact .inl ⟨rfl, rfl⟩
    · exact .inl ⟨rfl, rfl⟩

theorem onTime_assign {arg : CorrectOrdinaryUpdateParams} {u : Update} (h : OnTime u) :
    OnTime (arg.assign u) := by
  intro hhelp
  obtain ⟨hmark, hkept⟩ := Bool.and_eq_true_iff.mp hhelp
  have hkept : arg.clearNeedsHelp = false := by simpa using hkept
  simpa [CorrectOrdinaryUpdateParams.assign, hkept] using h hmark

/-- Every request keeps the help marks on time. -/
theorem serve_timed {r : Request} (hl : Linked w.db.tables) (h : Timed w.db.tables) :
    Timed (serve cfg r w).db.tables := by
  obtain ⟨env, op⟩ := r
  have untouched : ∀ {w' : World}, Untouched w.db.tables w'.db.tables → Timed w'.db.tables :=
    fun hsame => h.congr hsame.updates
  by_cases haside : AsideOperations.isAside op = true
  · exact untouched (AsideOperations.serve_aside untouched_aside haside)
  · cases op <;> try exact absurd rfl haside
    case verifyOTP phone code deviceId =>
      rcases (@ArchiveEffects.verifyOTP_effect cfg env w phone code deviceId).2 with
        hsame | ⟨session, -, hclaim⟩
      · exact untouched hsame
      · exact h.updateWhere hclaim.updates fun _ hu => hu
    case createCat req =>
      rcases (@ArchiveEffects.create_effect cfg env w req).2 with hsame | ⟨cat, photo, -, hcreated⟩
      · exact untouched hsame
      · exact h.congr hcreated.updates
    case upload => exact untouched (upload_outward untouched_outward)
    case createOrdinaryUpdate req =>
      rcases @createOrdinaryUpdate_written env w req with hsame | ⟨catId, statuses, media, hw⟩
      · exact h.congr (congrArg (fun db => db.tables.updates) hsame)
      · refine h.written hw fun hhelp => ?_
        exact if_pos hhelp
    case createNeedsHelpUpdate catId userId deviceId category comment =>
      rcases @createNeedsHelpUpdate_written env w catId userId deviceId category comment with
        hsame | ⟨cat, c, hw⟩
      · exact h.congr (congrArg (fun db => db.tables.updates) hsame)
      · exact h.written hw fun _ => rfl
    case correctOwnUpdate catId updateId userId correction =>
      rcases @correctOwnUpdate_rows env w catId updateId userId correction with
        ⟨-, hsame⟩ | ⟨params, carries, -, -, hupdates, -⟩
      · exact h.congr (congrArg (fun w => w.db.tables.updates) hsame)
      · exact h.updateWhere hupdates fun _ => onTime_assign
    case deleteOwnUpdate catId updateId userId =>
      cases catId with
      | none => exact h
      | some catId =>
        cases updateId with
        | none => exact h
        | some updateId => exact h.updateWhere deleteOwnUpdate_effect.2.updates fun _ hu => hu
    case setCoverPhoto => exact h.congr setCoverPhoto_updates
    case renameCat => exact h.congr renameCat_updates
    case deleteCat id caller =>
      obtain ⟨p, hdeleted⟩ := (@deleteCat_effect w id caller).2
      exact h.congr hdeleted.updates
    case dispatchPending => exact untouched (dispatchPending_outward untouched_outward)
    case deleteAccount a =>
      rcases @deleteAccount_effect env w a hl with ⟨-, hsame, -⟩ | ⟨-, hdeleted, -⟩
      · exact untouched hsame
      · intro u hu
        exact h u (mem_deleteWhere.mp (hdeleted.updates ▸ hu)).1

theorem reachable_timed (h : Reachable (next cfg) Start w) :
    Linked w.db.tables ∧ Timed w.db.tables := by
  refine Reachable.induct (I := fun w => Linked w.db.tables ∧ Timed w.db.tables) ?_ ?_ h
  · intro w hstart
    exact ⟨genesis_linked hstart.1, hstart.2⟩
  · intro w r w' hw hnext
    obtain ⟨hfresh, rfl⟩ := next_eq_some.mp hnext
    exact ⟨serve_linked hfresh hw.1, serve_timed hw.1 hw.2⟩

end Writes

section Reads

variable {db : Database} {clock : Instant} {viewer : Option UUID} {c : Cat}

theorem deriveActiveAlert_newest (clock : Instant) (catId : UUID) (db : Database) :
    deriveActiveAlert clock (newestUpdate catId (fun u => u.needsHelp) db) =
      alertOf clock (marks catId db.tables) := rfl

theorem visible_of_listed (h : listed viewer db c = true) : visible viewer db c = true := by
  unfold listed at h
  unfold visible
  obtain ⟨hactive, hblocks⟩ := Bool.and_eq_true_iff.mp h
  rw [beq_iff_eq] at hactive
  rw [hactive, hblocks]
  rfl

theorem eq_of_id_eq {c' : Cat} (hc : c ∈ db.tables.cats) (hc' : c' ∈ db.tables.cats)
    (hid : c'.id = c.id) : c' = c :=
  (db.valid.holds .catsPkey).eq_of_key_eq hc' hc (congrArg some hid) (by simp)

theorem getCatDetail_alert (hc : c ∈ db.tables.cats) (hlisted : listed viewer db c = true) :
    ∃ d, getCatDetail clock c.id viewer db = .ok d ∧
      d.activeAlert = alertOf clock (marks c.id db.tables) := by
  have hrow : ∃ row, getCatByID c.id viewer db = .ok row ∧
      row.needsHelp = newestUpdate c.id (fun u => u.needsHelp) db := by
    unfold getCatByID
    cases hrows : db.tables.cats.filter fun c' => c'.id == c.id && visible viewer db c' with
    | nil =>
      have hnone := List.filter_eq_nil_iff.mp hrows c hc
      simp [visible_of_listed hlisted] at hnone
    | cons c' cs =>
      have hmem : c' ∈ c' :: cs := List.mem_cons_self
      rw [← hrows] at hmem
      have hid := (Bool.and_eq_true_iff.mp (List.mem_filter.mp hmem).2).1
      rw [beq_iff_eq] at hid
      refine ⟨_, rfl, ?_⟩
      rw [← hid]
  obtain ⟨row, hrow, hhelp⟩ := hrow
  simp only [getCatDetail, hrow, Except.ok.injEq, exists_eq_left', hhelp]
  exact deriveActiveAlert_newest clock c.id db

/-- Every read derives the alert from the newest mark of the cat. -/
theorem agree (read : Reading) (clock : Instant) (hc : c ∈ db.tables.cats)
    (hlisted : listed viewer db c = true) :
    Agree read clock viewer c db (alertOf clock (marks c.id db.tables)) where
  listNearby bounds markers h := by
    obtain ⟨_, -, h⟩ := bind_eq_ok.mp h
    cases h
    constructor
    · constructor
      · rintro ⟨m, hm, hid⟩
        obtain ⟨row, hrow, rfl⟩ := List.mem_map.mp hm
        obtain ⟨c', hc', rfl⟩ := List.mem_map.mp hrow
        obtain ⟨hc', hmatch⟩ := List.mem_filter.mp (mem_orderBy.mp hc')
        rw [← eq_of_id_eq hc hc' hid]
        exact (Bool.and_eq_true_iff.mp hmatch).2
      · intro hoverlaps
        refine ⟨_, List.mem_map_of_mem (List.mem_map_of_mem (mem_orderBy.mpr
          (List.mem_filter.mpr ⟨hc, ?_⟩))), rfl⟩
        simp [hlisted, hoverlaps]
    · intro m hm hid
      obtain ⟨row, hrow, rfl⟩ := List.mem_map.mp hm
      obtain ⟨c', hc', rfl⟩ := List.mem_map.mp hrow
      rw [← hid]
      rfl
  getCatDetail := getCatDetail_alert hc hlisted
  listFollows userId hviewer := by
    constructor
    · constructor
      · rintro ⟨m, hm, hid⟩
        obtain ⟨row, hrow, rfl⟩ := List.mem_map.mp hm
        obtain ⟨c', hc', rfl⟩ := List.mem_map.mp hrow
        obtain ⟨f, hf, hc'⟩ := List.mem_flatMap.mp (mem_orderBy.mp hc')
        obtain ⟨hf, huser⟩ := List.mem_filter.mp hf
        obtain ⟨-, hmatch⟩ := List.mem_filter.mp hc'
        simp only [Bool.and_eq_true, beq_iff_eq] at hmatch huser
        exact ⟨f, hf, huser, hmatch.1.symm.trans hid⟩
      · rintro ⟨f, hf, huser, hcat⟩
        refine ⟨_, List.mem_map_of_mem (List.mem_map_of_mem (mem_orderBy.mpr
          (List.mem_flatMap.mpr ⟨f, List.mem_filter.mpr ⟨hf, by simp [huser]⟩,
            List.mem_filter.mpr ⟨hc, ?_⟩⟩))), rfl⟩
        have hblocks := (Bool.and_eq_true_iff.mp hlisted).2
        rw [hviewer] at hblocks
        simp [hcat, hblocks]
    · intro m hm hid
      obtain ⟨row, hrow, rfl⟩ := List.mem_map.mp hm
      obtain ⟨c', hc', rfl⟩ := List.mem_map.mp hrow
      rw [← hid]
      rfl
  listDiscover point cursor limit page h x hx hid := by
    unfold ReadServices.listDiscover at h
    simp only [discoverFilter] at h
    split at h
    · obtain ⟨n, -, h⟩ := bind_eq_ok.mp h
      obtain ⟨after, -, h⟩ := bind_eq_ok.mp h
      cases h
      have hrow : ∃ row ∈ listCatsByDistance read.toGeometry point after (n + 1) viewer db,
          toDiscoverCat clock row = x := by
        unfold discoverPage at hx
        split at hx
        · obtain ⟨row, hrow, rfl⟩ := List.mem_map.mp hx
          exact ⟨row, List.mem_of_mem_take hrow, rfl⟩
        · obtain ⟨row, hrow, rfl⟩ := List.mem_map.mp hx
          exact ⟨row, hrow, rfl⟩
      obtain ⟨row, hrow, rfl⟩ := hrow
      have hrow := (List.mem_filter.mp (mem_orderBy.mp (List.mem_of_mem_take hrow))).1
      obtain ⟨c', -, rfl⟩ := List.mem_map.mp hrow
      rw [← hid]
      rfl
    · cases h

end Reads

section Pages

open DiscoverPages Keyset

variable {texts : Cursors.Texts} {geo : Geometry} {search : Search} {clock : Instant}
  {db : Database} {s : DiscoverPages.Request}

/-- The pages of `ListDiscover`, with the cats themselves as rows. -/
def catPaging (texts : Cursors.Texts) (geo : Geometry) (search : Search) :
    Paging DiscoverPages.Request String DiscoverPage DiscoverCat Position where
  toPager := pager texts geo search
  items := DiscoverPage.items
  rows s := (rows geo search s).map (toDiscoverCat s.clock)
  limit s := s.limit.toNat
  key x := toLex (x.distanceMeters, x.id)
  encode k := Cursors.encodeDiscoverCursor texts (ofLex k)
  decode text := (Cursors.decodeDiscoverCursor texts text).map toLex

/-- No limit stands for the default one. -/
def sized (s : DiscoverPages.Request) : DiscoverPages.Request :=
  if s.limit = 0 then { s with limit := defaultDiscoverLimit } else s

theorem sized_db : (sized s).db = s.db := by
  unfold sized
  split <;> rfl

theorem sized_clock : (sized s).clock = s.clock := by
  unfold sized
  split <;> rfl

theorem ask_sized (s : DiscoverPages.Request) (cursor : Option String) :
    ask texts geo search (sized s) cursor = ask texts geo search s cursor := by
  unfold sized
  split
  · rename_i hzero
    unfold ask listDiscover
    rw [hzero]
    rfl
  · rfl

theorem limit_of_ask {cursor : Option String} {p : DiscoverPage}
    (h : ask texts geo search s cursor = some p) :
    1 ≤ (sized s).limit ∧ (sized s).limit ≤ 50 := by
  have hlimit : ∃ n, pageLimit defaultDiscoverLimit maxDiscoverLimit s.limit = .ok n := by
    have hpoint := withinIstanbul_of_ask h
    have hfilter : discoverFilter (filterText search.filter) = some search.filter := by
      cases search.filter <;> rfl
    cases hlimit : pageLimit defaultDiscoverLimit maxDiscoverLimit s.limit with
    | ok n => exact ⟨n, rfl⟩
    | error e =>
      simp [ask, listDiscover, hfilter, hpoint, hlimit, Except.toOption, bind, Except.bind] at h
  obtain ⟨n, hlimit⟩ := hlimit
  unfold sized
  split
  · change 1 ≤ (defaultDiscoverLimit : ℤ) ∧ (defaultDiscoverLimit : ℤ) ≤ 50
    decide
  · rename_i hzero
    unfold pageLimit at hlimit
    rw [if_neg hzero] at hlimit
    dsimp only at hlimit
    split at hlimit
    · cases hlimit
    · rename_i hrange
      unfold maxDiscoverLimit at hrange
      omega

theorem nodup_catPositions : ((catPaging texts geo search).rows s).Pairwise fun a b =>
    (catPaging texts geo search).key a ≠ (catPaging texts geo search).key b :=
  List.pairwise_map.mpr (List.pairwise_map.mp (nodup_positions s))

theorem catPages (hpoint : withinIstanbul search.point = true) (hlow : 1 ≤ s.limit)
    (hhigh : s.limit ≤ 50) : (catPaging texts geo search).Pages s where
  limit := (pages hpoint hlow hhigh : (paging texts geo search).Pages s).limit
  keyed := nodup_catPositions
  restores x _ := by
    have hrestores := Cursors.discoverCursor_restores texts (x.distanceMeters, x.id)
    simp only [Codec.Restores, Cursors.discoverCursor] at hrestores
    simp [catPaging, hrestores]
  get cursor _ := by
    obtain ⟨hnext, hitems⟩ := discoverPage_eq texts geo s.clock s.limit.toNat
      (fetch position cursor (s.limit.toNat + 1) (rows geo search s))
    have hpage := page_map (rows geo search s) cursor s.limit.toNat (toDiscoverCat s.clock)
      (fun x : DiscoverCat => (toLex (x.distanceMeters, x.id) : Position)) position fun _ _ => rfl
    refine ⟨_, ask_eq hpoint hlow hhigh cursor, hnext.trans ?_, ?_⟩
    · simp only [catPaging, hpage]
      rfl
    · simp only [catPaging, hpage, hitems]
      rfl

/-- All pages of a search, while nothing changes. -/
structure Complete (texts : Cursors.Texts) (geo : Geometry) (search : Search) (clock : Instant)
    (db : Database) (ss : List DiscoverPages.Request) (ps : List DiscoverPage) : Prop where
  follows : Follows (pager texts geo search) none ss ps
  same : ∀ s ∈ ss, s.db = db ∧ s.clock = clock
  last : ∀ p ∈ ps.getLast?, p.nextCursor = none

/-- All pages of a search return its cats in order. -/
theorem Complete.items {ss : List DiscoverPages.Request} {ps : List DiscoverPage}
    (h : Complete texts geo search clock db ss ps) :
    ps.flatMap DiscoverPage.items =
      ordered (catPaging texts geo search).key ((catPaging texts geo search).rows ⟨db, clock, 0⟩) := by
  have hpages : ∀ s ∈ ss.map sized, (catPaging texts geo search).Pages s := by
    intro s' hs'
    obtain ⟨s, hs, rfl⟩ := List.mem_map.mp hs'
    obtain ⟨cursor, p, hp⟩ := h.follows.answered s hs
    exact catPages (withinIstanbul_of_ask hp) (limit_of_ask hp).1 (limit_of_ask hp).2
  have hfollows : Follows (catPaging texts geo search).toPager none (ss.map sized) ps :=
    h.follows.map ask_sized
  refine (hfollows.traversed hpages).eq_ordered hpages h.last ?_ fun s' hs' => ?_
  · cases h.follows <;> simp
  · obtain ⟨s, hs, rfl⟩ := List.mem_map.mp hs'
    obtain ⟨hdb, hclock⟩ := h.same s hs
    simp only [catPaging, rows, sized_db, sized_clock, hdb, hclock]

/-- The statement and the service agree on what is active. -/
theorem helpActiveAt_iff (r : DistanceRow) :
    helpActiveAt clock r = (toDiscoverCat clock r).activeAlert.isSome := by
  unfold helpActiveAt toDiscoverCat deriveActiveAlert
  cases r.needsHelp with
  | none => rfl
  | some u =>
    cases hexpires : u.needsHelpExpiresAt with
    | none => simp [hexpires]
    | some expiresAt =>
      by_cases hactive : clock < expiresAt
      · simp [hexpires, hactive]
      · simp [hexpires, hactive]

/-- Page after page, every cat that the viewer can see is nearby, and the filter for help returns
those that have an alert. -/
def SameAlerted (texts : Cursors.Texts) (geo : Geometry) (clock : Instant) (viewer : Option UUID)
    (db : Database) : Prop :=
  ∀ point nears helps nearPages helpPages,
    Complete texts geo ⟨.nearby, point, viewer⟩ clock db nears nearPages →
    Complete texts geo ⟨.needsHelp, point, viewer⟩ clock db helps helpPages →
    (∀ c ∈ db.tables.cats, listed viewer db c = true →
      ∃ x ∈ nearPages.flatMap DiscoverPage.items, x.id = c.id) ∧
    helpPages.flatMap DiscoverPage.items =
      (nearPages.flatMap DiscoverPage.items).filter fun x => x.activeAlert.isSome

theorem same_alerted (texts : Cursors.Texts) (geo : Geometry) (clock : Instant)
    (viewer : Option UUID) (db : Database) : SameAlerted texts geo clock viewer db := by
  intro point nears helps nearPages helpPages hnear hhelp
  rw [hnear.items, hhelp.items]
  constructor
  · intro c hc hlisted
    refine ⟨_, mem_ordered.mpr (List.mem_map_of_mem (List.mem_map_of_mem
      (List.mem_filter.mpr ⟨hc, hlisted⟩))), rfl⟩
  · rw [← ordered_filter]
    · congr 1
      simp only [catPaging, rows, List.filter_map]
      congr 1
      exact List.filter_congr fun r _ => helpActiveAt_iff r
    · exact nodup_catPositions

end Pages

section Successions

variable {cfg : Config} {env : Env} {w : World} {t : Tables} {catId : UUID}

/-- The request succeeds, and takes these help marks away. -/
inductive Clears (w : World) : Backend.Request → (Update → Bool) → Prop
  | cleared {env : Env} {catId : Option UUID} {updateId userId : UUID}
      {correction : UpdateCorrection} (hclears : correction.clearNeedsHelp = true)
      (hok : (correctOwnUpdate env catId (some updateId) userId correction w).1.isOk = true) :
      Clears w ⟨env, .correctOwnUpdate catId (some updateId) userId correction⟩
        fun u => u.id == updateId
  | deleted {env : Env} {catId : Option UUID} {updateId userId : UUID}
      (hok : (CatServices.deleteOwnUpdate env catId (some updateId) userId w).1.isOk = true) :
      Clears w ⟨env, .deleteOwnUpdate catId (some updateId) userId⟩ fun u => u.id == updateId
  | accountDeleted {env : Env} {a : UUID}
      (hok : (AccountServices.delete env a w).1.isOk = true) :
      Clears w ⟨env, .deleteAccount a⟩ fun u => u.authorUserId == some a

/-- A rewriting that unmakes exactly the marks that go. -/
theorem marks_updateWhere {us : List Update} {p gone : Update → Bool} {f : Update → Update}
    (hgone : ∀ u ∈ us, isMark catId u = true → p u = gone u)
    (hf : ∀ u ∈ us, p u = true → isMark catId (f u) = false) :
    (updateWhere p f us).filter (isMark catId) =
      (us.filter (isMark catId)).filter fun u => !gone u := by
  induction us with
  | nil => rfl
  | cons u us ih =>
    have hrest := ih (fun v hv => hgone v (List.mem_cons_of_mem _ hv))
      fun v hv => hf v (List.mem_cons_of_mem _ hv)
    unfold updateWhere at hrest ⊢
    rw [List.map_cons, List.filter_cons, List.filter_cons, hrest]
    cases hp : p u with
    | true =>
      have hlost := hf u List.mem_cons_self hp
      rw [if_pos rfl, hlost, if_neg Bool.false_ne_true]
      cases hmark : isMark catId u with
      | false => rfl
      | true =>
        have hgone := hgone u List.mem_cons_self hmark
        rw [hp] at hgone
        rw [if_pos rfl, List.filter_cons, ← hgone]
        rfl
    | false =>
      rw [if_neg Bool.false_ne_true]
      cases hmark : isMark catId u with
      | false => rfl
      | true =>
        have hgone := hgone u List.mem_cons_self hmark
        rw [hp] at hgone
        rw [if_pos rfl, if_pos rfl, List.filter_cons, ← hgone]
        rfl

theorem eq_of_update_id_eq {db : Database} {u v : Update} (hu : u ∈ db.tables.updates)
    (hv : v ∈ db.tables.updates) (hid : u.id = v.id) : u = v :=
  (db.valid.holds .updatesPkey).eq_of_key_eq hu hv (congrArg some hid) (by simp)

theorem mark_live {u : Update} (h : isMark catId u = true) :
    u.catId = catId ∧ u.needsHelp = true ∧ u.deletedAt = none := by
  simpa [isMark, and_assoc] using h

/-- A rewriting of the one row it names. -/
theorem marks_of_row {db : Database} {updateId : UUID} {row : Update} {p : Update → Bool}
    {f : Update → Update} (hrow : row ∈ db.tables.updates) (hp : p row = true)
    (hid : ∀ u, p u = true → u.id = updateId) (hf : ∀ u, isMark catId (f u) = false) :
    (updateWhere p f db.tables.updates).filter (isMark catId) =
      (marks catId db.tables).filter fun u => !(u.id == updateId) := by
  refine marks_updateWhere (fun u hu _ => ?_) fun u _ _ => hf u
  rw [Bool.eq_iff_iff, beq_iff_eq]
  constructor
  · exact hid u
  · intro heq
    rw [eq_of_update_id_eq hu hrow (heq.trans (hid row hp).symm)]
    exact hp

theorem prepareCorrection_named {catId : Option UUID} {updateId userId : UUID}
    {correction : UpdateCorrection} {params : Store.CorrectOwnUpdateParams}
    (h : prepareCorrection env catId (some updateId) userId correction = .ok params) :
    params.id = updateId ∧ params.clearNeedsHelp = correction.clearNeedsHelp := by
  unfold prepareCorrection at h
  split at h
  · cases h
  · rename_i hnone
    cases hnone
  · rename_i hsome
    cases hsome
    obtain ⟨statuses, -, h⟩ := bind_eq_ok.mp h
    obtain ⟨_, -, h⟩ := bind_eq_ok.mp h
    cases h
    exact ⟨rfl, rfl⟩

theorem cleared_marks {catId' : Option UUID} {updateId userId : UUID}
    {correction : UpdateCorrection} (hclears : correction.clearNeedsHelp = true)
    (hok : (correctOwnUpdate env catId' (some updateId) userId correction w).1.isOk = true) :
    marks catId (correctOwnUpdate env catId' (some updateId) userId correction w).2.db.tables =
      (marks catId w.db.tables).filter fun u => !(u.id == updateId) := by
  rcases @correctOwnUpdate_rows env w catId' (some updateId) userId correction with
    ⟨herror, -⟩ | ⟨params, carries, hprepare, ⟨row, hrow, hmatches⟩, hupdates, -⟩
  · rw [hok] at herror
    cases herror
  · obtain ⟨hid, hclear⟩ := prepareCorrection_named hprepare
    rw [marks, hupdates]
    refine marks_of_row hrow hmatches (fun u hu => ?_) fun u => ?_
    · simp only [CorrectOrdinaryUpdateParams.matches, Store.CorrectOwnUpdateParams.row,
        Bool.and_eq_true, beq_iff_eq] at hu
      exact hu.1.1.1.1.1.1.trans hid
    · simp [isMark, CorrectOrdinaryUpdateParams.assign, Store.CorrectOwnUpdateParams.row, hclear,
        hclears]

/-- An update that is answered as deleted although no row was is deleted already. -/
theorem already_deleted {catId updateId userId : UUID} {windowStart : Instant} {db : Database}
    (h : resolveCorrectionFailure catId updateId userId windowStart false db = .ok ()) :
    ∀ u ∈ db.tables.updates, u.id = updateId → u.deletedAt ≠ none := by
  unfold resolveCorrectionFailure at h
  split at h
  · cases h
  · cases h
  · rename_i row holds hcheck
    obtain ⟨old, hone, hcheck⟩ := bind_eq_ok.mp hcheck
    cases hcheck
    obtain ⟨hrow, hmatch⟩ := List.mem_filter.mp (one_eq_ok hone)
    simp only [Bool.and_eq_true, beq_iff_eq] at hmatch
    intro u hu hid hlive
    obtain rfl := eq_of_update_id_eq hu hrow (hid.trans hmatch.1.symm)
    rw [hlive] at h
    split at h
    · cases h
    · split at h
      · cases h
      · simp only [Option.isSome_none, Bool.false_eq_true, if_false] at h
        split at h
        · cases h
        · split at h <;> cases h

theorem deleted_marks {catId' : Option UUID} {updateId userId : UUID}
    (hok : (CatServices.deleteOwnUpdate env catId' (some updateId) userId w).1.isOk = true) :
    marks catId (CatServices.deleteOwnUpdate env catId' (some updateId) userId w).2.db.tables =
      (marks catId w.db.tables).filter fun u => !(u.id == updateId) := by
  cases catId' with
  | none => cases hok
  | some cat =>
    have heffect := (@deleteOwnUpdate_effect env w cat updateId userId).2
    rw [marks, heffect.updates]
    have hnamed : ∀ u, Corrections.admits (ownDeletion env cat updateId userId) w.db u = true →
        u.id = updateId := by
      intro u hu
      simp only [Corrections.admits, Bool.and_eq_true, beq_iff_eq] at hu
      exact hu.1.1.1.1.1.1
    have hlost : ∀ u : Update, isMark catId { u with deletedAt := some env.clock } = false := by
      intro u
      simp [isMark]
    by_cases hrow : ∃ row ∈ w.db.tables.updates,
        Corrections.admits (ownDeletion env cat updateId userId) w.db row = true
    · obtain ⟨row, hrow, hadmits⟩ := hrow
      exact marks_of_row hrow hadmits hnamed hlost
    · -- no row was deleted now, so the answer says that it was before
      have hnone : one (w.db.tables.updates.filter
          (Corrections.admits (ownDeletion env cat updateId userId) w.db)) = .error .noRows := by
        apply one_eq_noRows.mpr
        apply List.filter_eq_nil_iff.mpr
        intro u hu hadmits
        exact hrow ⟨u, hu, hadmits⟩
      have hdelete : UpdateQueries.deleteOwnUpdate (ownDeletion env cat updateId userId) w.db =
          .error .noRows := bind_eq_error.mpr (.inl hnone)
      have hresolve : resolveCorrectionFailure cat updateId userId
          (env.clock - updateCorrectionWindow) false w.db = .ok () := by
        simp only [ownDeletion] at hdelete
        simp only [CatServices.deleteOwnUpdate, hdelete] at hok
        cases hanswer : resolveCorrectionFailure cat updateId userId
          (env.clock - updateCorrectionWindow) false w.db with
        | ok _ => rfl
        | error e =>
          rw [hanswer] at hok
          cases hok
      refine marks_updateWhere (fun u hu hmark => ?_) fun u _ _ => hlost u
      rw [Bool.eq_iff_iff, beq_iff_eq]
      constructor
      · exact hnamed u
      · intro hid
        exact absurd (mark_live hmark).2.2 (already_deleted hresolve u hu hid)

/-- The deletion of an account takes its marks from the cats that stay. -/
theorem accountDeleted_marks {a : UUID} (hl : Linked w.db.tables) {c : Cat}
    (hc : c ∈ (AccountServices.delete env a w).2.db.tables.cats) :
    marks c.id (AccountServices.delete env a w).2.db.tables =
      (marks c.id w.db.tables).filter fun u => !(u.authorUserId == some a) := by
  rcases @deleteAccount_effect env w a hl with ⟨hnone, hsame, -⟩ | ⟨-, hdeleted, -⟩
  · rw [marks, hsame.updates]
    refine (List.filter_eq_self.mpr fun u hu => ?_).symm
    -- there is no such account, so nobody's updates go
    have hauthor : u.authorUserId ≠ some a := by
      intro hauthor
      obtain ⟨v, hv, hid⟩ := w.db.valid.holds .updatesAuthorUserIdFkey u
        (List.mem_filter.mp hu).1 a hauthor
      exact List.any_eq_false.mp hnone v hv (by simp [hid])
    simp [hauthor]
  · have hcat : catFace c ∈ (deleteWhere (ownCat a) w.db.tables.cats).map catFace := by
      rw [← hdeleted.cats]
      exact List.mem_map_of_mem hc
    obtain ⟨old, hold, hface⟩ := List.mem_map.mp hcat
    have hid : (catFace old).id = (catFace c).id := by rw [hface]
    obtain ⟨hold, hother⟩ := mem_deleteWhere.mp hold
    have hkept : onOwnCat a w.db.tables.cats c.id = false := by
      refine List.any_eq_false.mpr fun c' hc' hown => ?_
      obtain ⟨hid', hown⟩ := Bool.and_eq_true_iff.mp hown
      rw [eq_of_id_eq hold hc' ((beq_iff_eq.mp hid').trans hid.symm)] at hown
      rw [hother] at hown
      cases hown
    rw [marks, hdeleted.updates, deleteWhere, List.filter_filter, marks, List.filter_filter]
    refine List.filter_congr fun u _ => ?_
    cases hmark : isMark c.id u with
    | false => simp
    | true => simp [accountUpdate, (mark_live hmark).1, hkept]

theorem cleared_by_request {r : Backend.Request} {gone : Update → Bool} (h : Clears w r gone)
    (hl : Linked w.db.tables) {c : Cat} (hc : c ∈ (serve cfg r w).db.tables.cats) :
    marks c.id (serve cfg r w).db.tables = (marks c.id w.db.tables).filter fun u => !gone u := by
  cases h with
  | cleared hclears hok => exact cleared_marks hclears hok
  | deleted hok => exact deleted_marks hok
  | accountDeleted hok => exact accountDeleted_marks hl hc

/-- The alert is as old as the newest mark, while that is active. -/
theorem Law.createdAt {clock : Instant} {us : List Update} {alert : Option ActiveAlert}
    (h : Law clock us alert) {u : Update} (hu : u ∈ us)
    (hnewest : ∀ v ∈ us, v.createdAt ≤ u.createdAt) (hactive : clock < needsHelpExpiresAt u.createdAt) :
    ∃ a, alert = some a ∧ a.createdAt = u.createdAt := by
  obtain ⟨a, halert⟩ := Option.ne_none_iff_exists'.mp (h.active.mpr ⟨u, hu, hactive⟩)
  obtain ⟨v, hv, hfirst, -, hat, -⟩ := h.newest a halert
  refine ⟨a, halert, hat.trans (le_antisymm (hnewest v hv) ?_)⟩
  rcases hfirst u hu with hlt | ⟨heq, -⟩
  · exact hlt.le
  · exact heq.le

theorem law_of_reachable (h : Reachable (next cfg) Start w) (clock : Instant) (catId : UUID) :
    Law clock (marks catId w.db.tables) (alertOf clock (marks catId w.db.tables)) := by
  refine law_of_timed fun u hu => ?_
  obtain ⟨hu, hmark⟩ := List.mem_filter.mp hu
  exact (reachable_timed h).2 u hu (mark_live hmark).2.1

end Successions

/-- Two calls for help for the same cat. -/
def twoMarks : List Backend.Request :=
  WriteResponses.signIn ++
    [⟨plainEnv 3, .createOrdinaryUpdate
       { catId := some 1, userId := 20, statuses := [], needsHelp := true }⟩,
     ⟨plainEnv 4, .createOrdinaryUpdate
       { catId := some 1, userId := 20, statuses := [], needsHelp := true }⟩]

def secondDeleted : Backend.Request :=
  ⟨plainEnv 5, .deleteOwnUpdate (some 1) (some 40) 20⟩

end Tekir.ActiveAlerts
