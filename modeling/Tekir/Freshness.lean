import Tekir.ArchiveEffects

/-!
# The freshness of a cat

`last_update_at` is a stored running maximum, while the times per status are derived when they
are read. A run keeps the two in step precisely if every removal of updates leaves each cat
another live update as recent as its stored time.
-/
namespace Tekir.Freshness
open Machine Table Schema Statements CatQueries DeletionQueries Environment CatServices Backend
  Integrity ServiceEffects UpdateCreation ArchiveEffects

section Latest

variable {α : Type} {f : α → ℤ} {rows : List α} {r : α} {x : ℤ}

/-- The latest of the times of the rows. -/
def latest (f : α → ℤ) (rows : List α) : Option ℤ :=
  (rows.map f).max?

theorem latest_eq_some : latest f rows = some x ↔ (∃ r ∈ rows, f r = x) ∧ ∀ r ∈ rows, f r ≤ x := by
  unfold latest
  rw [List.max?_eq_some_iff]
  simp

theorem latest_eq_none : latest f rows = none ↔ rows = [] := by
  unfold latest
  rw [List.max?_eq_none_iff]
  simp

theorem latest_append_singleton :
    latest f (rows ++ [r]) = some ((latest f rows).elim (f r) fun l => max l (f r)) := by
  apply latest_eq_some.mpr
  cases h : latest f rows with
  | none =>
    rw [latest_eq_none.mp h]
    simp
  | some l =>
    obtain ⟨⟨q, hq, hql⟩, hmax⟩ := latest_eq_some.mp h
    simp only [Option.elim_some]
    constructor
    · rcases le_total (f r) l with hle | hle
      · exact ⟨q, List.mem_append_left _ hq, hql.trans (max_eq_left hle).symm⟩
      · exact ⟨r, List.mem_append_right _ (List.mem_singleton.mpr rfl), (max_eq_right hle).symm⟩
    · intro q' hq'
      rcases List.mem_append.mp hq' with hq' | hq'
      · exact (hmax q' hq').trans (le_max_left _ _)
      · rw [List.mem_singleton.mp hq']
        exact le_max_right _ _

/-- Dropping rows leaves the latest time precisely if a row that stays has it as well. -/
theorem latest_filter_iff {q : α → Bool} {last : Option ℤ} (h : last = latest f rows) :
    last = latest f (rows.filter q) ↔ ∀ r ∈ rows, q r = false → last = some (f r) →
      ∃ r' ∈ rows, q r' = true ∧ f r' = f r := by
  subst h
  constructor
  · intro heq r _ _ hlast
    obtain ⟨⟨r', hr', hf⟩, -⟩ := latest_eq_some.mp (heq.symm.trans hlast)
    obtain ⟨hmem, hq⟩ := List.mem_filter.mp hr'
    exact ⟨r', hmem, hq, hf⟩
  · intro hkept
    cases hlast : latest f rows with
    | none => simp [latest_eq_none.mp hlast, latest]
    | some x =>
      symm
      obtain ⟨⟨r, hr, hf⟩, hmax⟩ := latest_eq_some.mp hlast
      refine latest_eq_some.mpr ⟨?_, fun q' hq' => hmax q' (List.mem_filter.mp hq').1⟩
      cases hq : q r with
      | true => exact ⟨r, List.mem_filter.mpr ⟨hr, hq⟩, hf⟩
      | false =>
        obtain ⟨r', hr', hq', hf'⟩ := hkept r hr hq (by rw [hlast, hf])
        exact ⟨r', List.mem_filter.mpr ⟨hr', hq'⟩, hf'.trans hf⟩

end Latest

/-- The update is on the cat and not deleted. -/
def liveOn (catId : UUID) (u : Update) : Bool :=
  u.catId == catId && u.deletedAt.isNone

/-- The time of the newest live update of the cat. -/
def newestLive (catId : UUID) (updates : List Update) : Option Instant :=
  latest Update.createdAt (updates.filter (liveOn catId))

/-- The stored time of every cat that is not deleted is the one of its newest live update. -/
def Fresh (t : Tables) : Prop :=
  ∀ c ∈ t.cats, c.status ≠ .deleted → c.lastUpdateAt = newestLive c.id t.updates

instance (t : Tables) : Decidable (Fresh t) :=
  inferInstanceAs (Decidable (∀ c ∈ t.cats, c.status ≠ .deleted → _ = _))

/-- What `GetCatDetail` shows is the time of the newest live update, and no status is later. -/
def DetailFresh (db : Database) : Prop :=
  ∀ clock id caller detail, getCatDetail clock id caller db = .ok detail →
    detail.lastUpdateAt = newestLive id db.tables.updates ∧
    ∀ at' ∈ [detail.lastSeenAt, detail.lastFedAt, detail.lastWaterAt], ∀ s ∈ at',
      ∃ l ∈ detail.lastUpdateAt, s ≤ l

/-- The request takes the cat away with its owner's account. -/
def takesAway (r : Request) (c : Cat) : Bool :=
  match r.op with
  | .deleteAccount a => ownCat a c
  | _ => false

/-- A removal that takes the newest live update of a cat leaves it another one as recent. -/
def Spares (w : World) (r : Request) : Prop :=
  ∀ c ∈ w.db.tables.cats, c.status ≠ .deleted → takesAway r c = false →
    ∀ u ∈ w.db.tables.updates, liveOn c.id u = true → removes r w.db u = true →
      c.lastUpdateAt = some u.createdAt →
        ∃ v ∈ w.db.tables.updates, liveOn c.id v = true ∧ removes r w.db v = false ∧
          v.createdAt = u.createdAt

instance (w : World) (r : Request) : Decidable (Spares w r) :=
  inferInstanceAs (Decidable (∀ c ∈ w.db.tables.cats, c.status ≠ .deleted → takesAway r c = false →
    ∀ u ∈ w.db.tables.updates, liveOn c.id u = true → removes r w.db u = true →
      c.lastUpdateAt = some u.createdAt → ∃ v ∈ w.db.tables.updates, _ ∧ _ ∧ _))

section Detail

variable {db : Database} {clock : Instant} {id : UUID} {caller : Option UUID} {detail : CatDetail}

/-- A detail is the one of a cat that is not deleted. -/
theorem getCatDetail_eq_ok (h : getCatDetail clock id caller db = .ok detail) :
    ∃ c ∈ db.tables.cats, c.id = id ∧ c.status ≠ .deleted ∧
      detail.lastUpdateAt = c.lastUpdateAt ∧
      detail.lastSeenAt = (newestWithStatus id .seen db).map Update.createdAt ∧
      detail.lastFedAt = (newestWithStatus id .fed db).map Update.createdAt ∧
      detail.lastWaterAt = (newestWithStatus id .waterProvided db).map Update.createdAt := by
  unfold getCatDetail at h
  split at h
  · cases h
  · cases h
  · rename_i row hrow
    cases h
    obtain ⟨c, hone, hrow⟩ := bind_eq_ok.mp hrow
    cases hrow
    obtain ⟨hmem, hmatch⟩ := List.mem_filter.mp (one_eq_ok hone)
    simp only [visible, Bool.and_eq_true, beq_iff_eq, bne_iff_ne, ne_eq] at hmatch
    refine ⟨c, hmem, hmatch.1, hmatch.2.1, rfl, ?_, ?_, ?_⟩ <;> rw [hmatch.1]

/-- A cat that is not deleted is shown to a guest. -/
theorem exists_detail {c : Cat} (hc : c ∈ db.tables.cats) (hactive : c.status ≠ .deleted) :
    ∃ detail, getCatDetail clock c.id none db = .ok detail := by
  have hrow : ∃ row, getCatByID c.id none db = .ok row := by
    unfold getCatByID
    cases hrows : db.tables.cats.filter fun c' => c'.id == c.id && visible none db c' with
    | nil =>
      have hnone := List.filter_eq_nil_iff.mp hrows c hc
      simp [visible, AccountQueries.blocks, hactive] at hnone
    | cons c' cs => exact ⟨_, rfl⟩
  obtain ⟨row, hrow⟩ := hrow
  unfold getCatDetail
  rw [hrow]
  exact ⟨_, rfl⟩

/-- The newest update with a status is a live one of the cat. -/
theorem newestWithStatus_live {status : Status} {u : Update}
    (h : newestWithStatus id status db = some u) :
    u ∈ db.tables.updates.filter (liveOn id) := by
  have hmem := List.mem_of_mem_head? (Option.mem_def.mpr h)
  obtain ⟨hu, hmatch⟩ := List.mem_filter.mp (mem_orderBy.mp hmem)
  simp only [Bool.and_eq_true] at hmatch
  exact List.mem_filter.mpr ⟨hu, by simp [liveOn, hmatch.1.1, hmatch.2]⟩

/-- No status is later than the newest live update. -/
theorem newestWithStatus_le {status : Status} {s : Instant}
    (h : s ∈ (newestWithStatus id status db).map Update.createdAt) :
    ∃ l ∈ newestLive id db.tables.updates, s ≤ l := by
  obtain ⟨u, hu, rfl⟩ := Option.map_eq_some_iff.mp h
  have hlive := newestWithStatus_live hu
  cases hlast : newestLive id db.tables.updates with
  | none =>
    rw [newestLive, latest_eq_none] at hlast
    rw [hlast] at hlive
    cases hlive
  | some l => exact ⟨l, rfl, (latest_eq_some.mp hlast).2 u hlive⟩

theorem detailFresh_iff : DetailFresh db ↔ Fresh db.tables := by
  constructor
  · intro h c hc hactive
    obtain ⟨detail, hdetail⟩ := @exists_detail _ 0 c hc hactive
    obtain ⟨c', hc', hid, -, hlast, -⟩ := getCatDetail_eq_ok hdetail
    have heq : c' = c :=
      (db.valid.holds .catsPkey).eq_of_key_eq hc' hc (congrArg some hid) (by simp)
    rw [← (h 0 c.id none detail hdetail).1, hlast, heq]
  · intro h clock id caller detail hdetail
    obtain ⟨c, hc, rfl, hactive, hlast, hseen, hfed, hwater⟩ := getCatDetail_eq_ok hdetail
    have hfresh : detail.lastUpdateAt = newestLive c.id db.tables.updates :=
      hlast.trans (h c hc hactive)
    refine ⟨hfresh, fun at' hat s hs => ?_⟩
    rw [hfresh]
    simp only [List.mem_cons, List.not_mem_nil, or_false] at hat
    rcases hat with rfl | rfl | rfl
    · rw [hseen] at hs
      exact newestWithStatus_le hs
    · rw [hfed] at hs
      exact newestWithStatus_le hs
    · rw [hwater] at hs
      exact newestWithStatus_le hs

end Detail

section Steps

variable {cfg : Config} {t t' : Tables} {us us' : List Update} {catId : UUID}

/-- Only the cat, the time and the deletion of the rows count. -/
theorem newestLive_map {g : Update → Update} (hcat : ∀ u, (g u).catId = u.catId)
    (htime : ∀ u, (g u).createdAt = u.createdAt) (hdeleted : ∀ u, (g u).deletedAt = u.deletedAt) :
    newestLive catId (us.map g) = newestLive catId us := by
  have hlive : liveOn catId ∘ g = liveOn catId := by
    funext u
    simp [liveOn, hcat, hdeleted]
  have htimes : Update.createdAt ∘ g = Update.createdAt := funext htime
  simp only [newestLive, latest, List.filter_map, List.map_map, hlive, htimes]

theorem newestLive_faces (h : us'.map face = us.map face) :
    newestLive catId us' = newestLive catId us := by
  have hface : ∀ us, newestLive catId (us.map face) = newestLive catId us :=
    fun us => newestLive_map (fun _ => rfl) (fun _ => rfl) fun _ => rfl
  rw [← hface us', h, hface us]

theorem exists_of_faces {cs cs' : List Cat} (h : cs'.map catFace = cs.map catFace) {c' : Cat}
    (hc' : c' ∈ cs') : ∃ c ∈ cs, c.id = c'.id ∧ c.status = c'.status ∧
      c.lastUpdateAt = c'.lastUpdateAt ∧ c.createdByUserId = c'.createdByUserId := by
  have hmem : catFace c' ∈ cs.map catFace := h ▸ List.mem_map.mpr ⟨c', hc', rfl⟩
  obtain ⟨c, hc, heq⟩ := List.mem_map.mp hmem
  have hid : (catFace c).id = (catFace c').id := by rw [heq]
  have hstatus : (catFace c).status = (catFace c').status := by rw [heq]
  have hlast : (catFace c).lastUpdateAt = (catFace c').lastUpdateAt := by rw [heq]
  have howner : (catFace c).createdByUserId = (catFace c').createdByUserId := by rw [heq]
  exact ⟨c, hc, hid, hstatus, hlast, howner⟩

theorem kept_fresh (h : SameFaces t t') (hfresh : Fresh t) : Fresh t' := by
  intro c' hc' hactive
  obtain ⟨c, hc, hid, hstatus, hlast, -⟩ := exists_of_faces h.cats hc'
  rw [← hlast, ← hid, newestLive_faces h.updates]
  exact hfresh c hc (hstatus ▸ hactive)

/-- A new cat has no updates. -/
theorem catCreated_fresh {cat : Cat} {photo : CatMedium} {db db' : Database}
    (h : CatCreated cat photo db.tables db'.tables) (hfresh : Fresh db.tables) :
    Fresh db'.tables := by
  intro c hc hactive
  rw [h.cats] at hc
  rw [h.updates]
  rcases List.mem_append.mp hc with hc | hc
  · exact hfresh c hc hactive
  · obtain rfl := List.mem_singleton.mp hc
    have hkey := db'.valid.holds .catsPkey
    simp only [Constraint.Holds, h.cats] at hkey
    rw [h.never]
    symm
    apply latest_eq_none.mpr
    apply List.filter_eq_nil_iff.mpr
    intro u hu hlive
    simp only [liveOn, Bool.and_eq_true, beq_iff_eq] at hlive
    obtain ⟨c', hc', hid⟩ := db.valid.holds .updatesCatIdFkey u hu u.catId rfl
    have hne := (uniqueOn_append_singleton.mp hkey).2 c' hc'
    simp [hid, hlive.1] at hne

/-- A new update raises the time of its cat, if it is later. -/
theorem created_fresh {cmId : UUID} {arg : Store.CreateOrdinaryUpdateParams}
    (h : Created cmId arg t t') (hfresh : Fresh t) : Fresh t' := by
  intro c' hc' hactive
  rw [h.cats] at hc'
  obtain ⟨c, hc, rfl⟩ := mem_updateWhere.mp hc'
  rw [h.updates, newestLive, List.filter_append]
  have hlast := hfresh c hc
  by_cases hcat : c.id = arg.catId
  · simp only [hcat, beq_self_eq_true, if_true] at hactive ⊢
    have hlive : [arg.row.insert t.updatesSeq].filter (liveOn arg.catId) =
        [arg.row.insert t.updatesSeq] := by
      apply List.filter_eq_self.mpr
      intro u hu
      rw [List.mem_singleton.mp hu]
      simp [liveOn]
    rw [hlive, latest_append_singleton, greatest, hlast hactive, newestLive, hcat]
    rfl
  · have hother : [arg.row.insert t.updatesSeq].filter (liveOn c.id) = [] := by
      apply List.filter_eq_nil_iff.mpr
      intro u hu
      rw [List.mem_singleton.mp hu]
      simpa [liveOn] using Ne.symm hcat
    simp only [hcat, beq_iff_eq, if_false] at hactive ⊢
    rw [hother, List.append_nil]
    exact hlast hactive

/-- Updates that are deleted count as little as updates that are gone. -/
theorem newestLive_deleted {p : Update → Bool} {now : Instant} :
    newestLive catId (Table.updateWhere p (fun u => { u with deletedAt := some now }) us) =
      latest Update.createdAt ((us.filter (liveOn catId)).filter fun u => !p u) := by
  unfold newestLive latest
  congr 1
  induction us with
  | nil => rfl
  | cons u us ih =>
    have hdead : liveOn catId { u with deletedAt := some now } = false := by simp [liveOn]
    simp only [updateWhere, List.map_cons, List.filter_cons] at ih ⊢
    cases hp : p u <;> cases hlive : liveOn catId u <;> simpa [hp, hlive, hdead] using ih

/-- The removed updates of a cat left it another one as recent. -/
theorem spared_iff {p : Update → Bool} {last : Option Instant} (h : last = newestLive catId us) :
    last = latest Update.createdAt ((us.filter (liveOn catId)).filter fun u => !p u) ↔
      ∀ u ∈ us, liveOn catId u = true → p u = true → last = some u.createdAt →
        ∃ v ∈ us, liveOn catId v = true ∧ p v = false ∧ v.createdAt = u.createdAt := by
  rw [latest_filter_iff h]
  simp only [List.mem_filter, Bool.not_eq_eq_eq_not, Bool.not_false, Bool.not_true, and_imp,
    and_assoc]

end Steps

section Runs

variable {cfg : Config} {w w' : World} {r : Request}

/-- Nothing is taken off, so there is nothing to make up for. -/
theorem spares_of_removes (h : ∀ u, removes r w.db u = false) : Spares w r := by
  intro c _ _ _ u _ _ hu
  rw [h u] at hu
  cases hu

theorem step_fresh_iff (hl : Linked w.db.tables) (hfresh : Fresh w.db.tables)
    (hstep : freshNext cfg w r = some w') : Fresh w'.db.tables ↔ Spares w r := by
  obtain ⟨hid, -, rfl⟩ := freshNext_eq_some.mp hstep
  cases @serve_effect cfg _ r hl with
  | kept hr h => exact iff_of_true (kept_fresh h hfresh) (spares_of_removes hr)
  | catCreated hr cat photo h => exact iff_of_true (catCreated_fresh h hfresh) (spares_of_removes hr)
  | updateCreated hr userId arg h =>
    exact iff_of_true (created_fresh (h.created hid) hfresh) (spares_of_removes hr)
  | claimed hr deviceId userId h =>
    refine iff_of_true (fun c hc hactive => ?_) (spares_of_removes hr)
    rw [h.cats] at hc
    rw [h.updates, updateWhere, newestLive_map]
    · exact hfresh c hc hactive
    all_goals
      intro u
      split <;> rfl
  | catDeleted hr p h =>
    refine iff_of_true (fun c' hc' hactive => ?_) (spares_of_removes hr)
    rw [h.cats] at hc'
    obtain ⟨c, hc, rfl⟩ := mem_updateWhere.mp hc'
    rw [h.updates]
    split at hactive
    · exact absurd rfl hactive
    · rename_i hp
      rw [if_neg hp]
      exact hfresh c hc hactive
  | updateDeleted catId updateId userId hop h =>
    have hstays : ∀ c, takesAway r c = false := fun c => by simp [takesAway, hop]
    unfold Fresh Spares
    rw [h.cats, h.updates]
    simp only [newestLive_deleted, hstays, forall_const]
    constructor
    · intro h' c hc hactive
      exact (spared_iff (hfresh c hc hactive)).mp (h' c hc hactive)
    · intro h' c hc hactive
      exact (spared_iff (hfresh c hc hactive)).mpr (h' c hc hactive)
  | accountDeleted a hop hr h =>
    have htakes : ∀ c, takesAway r c = ownCat a c := fun c => by simp [takesAway, hop]
    have hlive : ∀ c : Cat, newestLive c.id (serve cfg r w).db.tables.updates =
        latest Update.createdAt ((w.db.tables.updates.filter (liveOn c.id)).filter
          fun u => !removes r w.db u) := by
      intro c
      rw [h.updates, newestLive, deleteWhere, hr, List.filter_comm]
    constructor
    · intro h' c hc hactive hstays
      apply (spared_iff (hfresh c hc hactive)).mp
      rw [← hlive]
      have hkept : c ∈ deleteWhere (ownCat a) w.db.tables.cats :=
        mem_deleteWhere.mpr ⟨hc, by rw [← htakes, hstays]⟩
      obtain ⟨c', hc', hcid, hstatus, hlast, -⟩ := exists_of_faces h.cats.symm hkept
      rw [← hlast, ← hcid]
      exact h' c' hc' (hstatus ▸ hactive)
    · intro h' c' hc' hactive
      obtain ⟨c, hc, hcid, hstatus, hlast, howner⟩ := exists_of_faces h.cats hc'
      obtain ⟨hc, hown⟩ := mem_deleteWhere.mp hc
      rw [← hlast, ← hcid, hlive]
      have hactive : c.status ≠ .deleted := hstatus ▸ hactive
      exact (spared_iff (hfresh c hc hactive)).mpr (h' c hc hactive (by rw [htakes, hown]))

theorem next_linked {w : World} (hl : Linked w.db.tables) (h : freshNext cfg w r = some w') :
    Linked w'.db.tables := by
  obtain ⟨-, hkey, rfl⟩ := freshNext_eq_some.mp h
  exact serve_linked hkey hl

/-- From the first account on, the shown times are the ones of the newest live updates in every
state of a run precisely if every removal of updates spares them. -/
theorem detail_fresh_iff_spared (hw : Genesis w) (hcats : w.db.tables.cats = [])
    (rs : List Request) :
    Always (freshNext cfg) (fun w => DetailFresh w.db) w rs ↔ Each (freshNext cfg) Spares w rs := by
  refine always_iff_each (J := fun w => Linked w.db.tables) (fun _ _ _ => next_linked) ?_
    (genesis_linked hw) (detailFresh_iff.mpr ?_)
  · intro s a t hl hfresh hstep
    rw [detailFresh_iff]
    exact step_fresh_iff hl (detailFresh_iff.mp hfresh) hstep
  · intro c hc
    rw [hcats] at hc
    cases hc

end Runs

instance (db : Database) : Decidable (DetailFresh db) :=
  decidable_of_iff (Fresh db.tables) detailFresh_iff.symm

def emptyWorld : World where
  db := ⟨{}, valid_empty⟩

theorem emptyWorld_genesis : Genesis emptyWorld :=
  ⟨rfl, rfl, rfl, rfl, by simp [emptyWorld], rfl, rfl⟩

/-- An account adds a cat and an update on it. -/
def firstUpdate : List Request :=
  [⟨plainEnv 1, .register "ios" none⟩,
   ⟨plainEnv 2, .verifyOTP "5551112233" "" 10⟩,
   ⟨plainEnv 3, .createCat { userId := 20, area := ⟨41, 29⟩ }⟩,
   ⟨plainEnv 4, .createOrdinaryUpdate { catId := some 31, userId := 20, statuses := ["seen"] }⟩]

/-- The first of two updates is deleted. -/
theorem detail_fresh_older_deleted : Always (freshNext plainConfig) (fun w => DetailFresh w.db)
    emptyWorld (firstUpdate ++
      [⟨plainEnv 5, .createOrdinaryUpdate { catId := some 31, userId := 20, statuses := ["fed"] }⟩,
       ⟨plainEnv 6, .deleteOwnUpdate (some 31) (some 40) 20⟩]) :=
  (detail_fresh_iff_spared emptyWorld_genesis rfl _).mpr (by decide +kernel)

/-- The only update is deleted: the cat keeps its time. -/
theorem detail_stale_newest_deleted :
    ¬ Always (freshNext plainConfig) (fun w => DetailFresh w.db) emptyWorld
      (firstUpdate ++ [⟨plainEnv 5, .deleteOwnUpdate (some 31) (some 40) 20⟩]) :=
  not_always_of_test (by decide +kernel)

end Tekir.Freshness
