import Tekir.Integrity

/-!
# Concurrent corrections of one update

`Store.CorrectOwnUpdate` runs under READ COMMITTED. Its first statement takes a snapshot,
waits for the lock of the update's row and then looks at the newest version of the
row, while its sub-query over `update_statuses` still answers from the snapshot; the
statuses are replaced by later statements, under the lock. A state of the machine is
what has been committed, the statements that wait and the transaction that holds the
row.
-/
namespace Tekir.CorrectionRace
open Machine Table Schema Statements UpdateQueries Store

/-- A correction whose first statement is waiting, with what its snapshot says about the
statuses of the update. -/
structure Waiting where
  arg : CorrectOwnUpdateParams
  carries : Bool

/-- The transaction that holds the row, with the tables as it sees them. -/
structure Holder where
  arg : CorrectOwnUpdateParams
  work : Database
  written : Bool := false

structure State where
  db : Database
  waiting : List Waiting := []
  holder : Option Holder := none

inductive Action
  /-- The first statement starts. -/
  | begin (arg : CorrectOwnUpdateParams)
  /-- It is given the row. -/
  | lock (k : ℕ)
  /-- The other statements of the transaction. -/
  | write
  | commit
  | abort

/-- What follows `CorrectOrdinaryUpdate`; reading the statuses back changes nothing. -/
def writeStatuses (arg : CorrectOwnUpdateParams) (db : Database) : Except Error Database :=
  if arg.replaceStatuses then replaceStatuses arg.id arg.statuses db else .ok db

/-- The corrections of the update `u`. A statement that matches no row ends its transaction. -/
def step (u : UUID) (s : State) : Action → Option State
  | .begin arg =>
    if arg.id = u then
      let carries := carriesStatus u s.db.tables.updateStatuses
      if s.db.tables.updates.any (arg.row.matches carries) then
        some { s with waiting := s.waiting ++ [{ arg, carries }] }
      else some s
    else none
  | .lock k =>
    match s.holder, s.waiting[k]? with
    | none, some w =>
      let s := { s with waiting := s.waiting.eraseIdx k }
      match recheckCorrection w.arg.row w.carries s.db with
      | .ok (_, work) => some { s with holder := some { arg := w.arg, work } }
      | .error _ => some s
    | _, _ => none
  | .write =>
    match s.holder with
    | some ⟨arg, work, false⟩ =>
      match writeStatuses arg work with
      | .ok work => some { s with holder := some { arg, work, written := true } }
      | .error _ => some { s with holder := none }
    | _ => none
  | .commit =>
    match s.holder with
    | some ⟨_, work, true⟩ => some { s with db := work, holder := none }
    | _ => none
  | .abort => s.holder.map fun _ => { s with holder := none }

/-- The update, unless deleted, has a status or is marked as needing help. -/
def NotHollow (u : UUID) (t : Tables) : Prop :=
  ∀ row ∈ t.updates, row.id = u → row.deletedAt = none →
    carriesStatus u t.updateStatuses = true ∨ row.needsHelp = true

instance (u : UUID) (t : Tables) : Decidable (NotHollow u t) :=
  inferInstanceAs (Decidable (∀ row ∈ t.updates, _ → _ → _ ∨ _))

/-- A correction that commits brings a status set, or keeps the help mark, or finds a status
the update has by then. -/
def Admits (u : UUID) (s : State) : Action → Prop
  | .commit => ∀ h ∈ s.holder, h.arg.replaceStatuses = true ∨
      (∃ row ∈ s.db.tables.updates, row.id = u ∧ row.needsHelp = true ∧
        h.arg.clearNeedsHelp = false) ∨
      carriesStatus u s.db.tables.updateStatuses = true
  | .begin _ | .lock _ | .write | .abort => True

instance (u : UUID) (s : State) (a : Action) : Decidable (Admits u s a) := by
  cases a <;> unfold Admits <;> infer_instance

variable {u : UUID} {s s' : State} {a : Action}

section Statements

variable {db db' : Database}

theorem recheckCorrection_ok {arg : CorrectOrdinaryUpdateParams} {carries : Bool} {row : Update}
    (h : recheckCorrection arg carries db = .ok (row, db')) :
    (∃ r ∈ db.tables.updates, arg.matches carries r = true) ∧
      db'.tables = { db.tables with
        updates := updateWhere (arg.matches carries) arg.assign db.tables.updates } := by
  obtain ⟨r, hone, h⟩ := bind_eq_ok.mp h
  obtain ⟨db₁, hwrite, h⟩ := bind_eq_ok.mp h
  cases h
  obtain ⟨hr, hmatch⟩ := List.mem_filter.mp (one_eq_ok hone)
  exact ⟨⟨r, hr, hmatch⟩, write_eq_ok.mp hwrite⟩

theorem carriesStatus_append {statuses : List UpdateStatus} {row : UpdateStatus}
    (hid : row.updateId = u) : carriesStatus u (statuses ++ [row]) = true := by
  simp [carriesStatus, hid]

/-- After a status was written the update carries one. -/
theorem createUpdateStatus_carries {status : Status}
    (h : createUpdateStatus u status db = .ok db') :
    db'.tables.updates = db.tables.updates ∧
      carriesStatus u db'.tables.updateStatuses = true := by
  unfold createUpdateStatus at h
  split at h
  · rename_i hany
    cases h
    refine ⟨rfl, ?_⟩
    obtain ⟨s, hs, heq⟩ := List.any_eq_true.mp hany
    exact List.any_eq_true.mpr ⟨s, hs, (Bool.and_eq_true_iff.mp heq).1⟩
  · rw [write_eq_ok.mp h]
    exact ⟨rfl, carriesStatus_append rfl⟩

theorem createStatuses_carries {statuses : List Status}
    (h : statuses.foldlM (fun db status => createUpdateStatus u status db) db = .ok db') :
    db'.tables.updates = db.tables.updates ∧ carriesStatus u db'.tables.updateStatuses =
      (carriesStatus u db.tables.updateStatuses || !statuses.isEmpty) := by
  induction statuses generalizing db with
  | nil =>
    cases h
    simp
  | cons status statuses ih =>
    rw [List.foldlM_cons] at h
    obtain ⟨db₁, h₁, h⟩ := bind_eq_ok.mp h
    obtain ⟨hrows₁, hcarries₁⟩ := createUpdateStatus_carries h₁
    obtain ⟨hrows, hcarries⟩ := ih h
    refine ⟨hrows.trans hrows₁, ?_⟩
    rw [hcarries, hcarries₁]
    simp

theorem replaceStatuses_carries {statuses : List Status}
    (h : replaceStatuses u statuses db = .ok db') :
    db'.tables.updates = db.tables.updates ∧
      carriesStatus u db'.tables.updateStatuses = !statuses.isEmpty := by
  obtain ⟨db₁, hwrite, h⟩ := bind_eq_ok.mp h
  obtain ⟨hrows, hcarries⟩ := createStatuses_carries h
  rw [write_eq_ok.mp hwrite] at hrows hcarries
  refine ⟨hrows, hcarries.trans ?_⟩
  simp [carriesStatus]

/-- What the later statements make of the status table. -/
theorem writeStatuses_carries {arg : CorrectOwnUpdateParams}
    (h : writeStatuses arg db = .ok db') :
    db'.tables.updates = db.tables.updates ∧ carriesStatus arg.id db'.tables.updateStatuses =
      if arg.replaceStatuses then !arg.statuses.isEmpty
      else carriesStatus arg.id db.tables.updateStatuses := by
  unfold writeStatuses at h
  split at h
  · rename_i hreplace
    rw [if_pos hreplace]
    exact replaceStatuses_carries h
  · rename_i hkeep
    cases h
    simp [hkeep]

/-- Alone, the four actions are the store's transaction. -/
theorem exec_correctOwnUpdate {arg : CorrectOwnUpdateParams} {r : Update × List Status}
    (h : correctOwnUpdate arg db = .ok (r, db')) :
    exec (step arg.id) ⟨db, [], none⟩ [.begin arg, .lock 0, .write, .commit] =
      some ⟨db', [], none⟩ := by
  obtain ⟨⟨row, db₁⟩, hcorrect, h⟩ := bind_eq_ok.mp h
  obtain ⟨⟨m, hm, hmatch⟩, -⟩ := recheckCorrection_ok hcorrect
  have hbegin : db.tables.updates.any
      (arg.row.matches (carriesStatus arg.id db.tables.updateStatuses)) = true :=
    List.any_eq_true.mpr ⟨m, hm, hmatch⟩
  have hlock : recheckCorrection arg.row (carriesStatus arg.id db.tables.updateStatuses) db =
      .ok (row, db₁) := hcorrect
  have hwrite : writeStatuses arg db₁ = .ok db' := by
    unfold writeStatuses
    dsimp only at h
    split at h
    · rename_i hreplace
      obtain ⟨db₂, hstatuses, h⟩ := bind_eq_ok.mp h
      cases h
      rw [if_pos hreplace, hstatuses]
    · rename_i hkeep
      cases h
      rw [if_neg hkeep]
  simp [exec, step, hbegin, hlock, hwrite]

end Statements

section Invariant

/-- What the holder's tables are made of: the statement found the committed row and rewrote
it, and the statuses are the committed ones until they are replaced. -/
structure HolderSound (u : UUID) (t : Tables) (h : Holder) : Prop where
  target : h.arg.id = u
  found : ∃ carries, (∃ r ∈ t.updates, h.arg.row.matches carries r = true) ∧
    h.work.tables.updates = updateWhere (h.arg.row.matches carries) h.arg.row.assign t.updates
  statuses : carriesStatus u h.work.tables.updateStatuses =
    if h.written && h.arg.replaceStatuses then !h.arg.statuses.isEmpty
    else carriesStatus u t.updateStatuses

structure Sound (u : UUID) (s : State) : Prop where
  waiting : ∀ w ∈ s.waiting, w.arg.id = u
  holder : ∀ h ∈ s.holder, HolderSound u s.db.tables h

theorem matches_iff {arg : CorrectOwnUpdateParams} {carries : Bool} {r : Update} :
    arg.row.matches carries r = true ↔
      r.id = arg.id ∧ r.catId = arg.catId ∧ r.authorUserId = some arg.authorUserId ∧
      r.kind = .ordinary ∧ r.deletedAt = none ∧ arg.windowStart < r.createdAt ∧
      ((if arg.replaceStatuses then !arg.statuses.isEmpty else carries) = true ∨
        r.needsHelp = true ∧ arg.clearNeedsHelp = false) := by
  simp only [CorrectOrdinaryUpdateParams.matches, Bool.and_eq_true, Bool.or_eq_true, beq_iff_eq,
    decide_eq_true_eq, Option.isNone_iff_eq_none, Bool.not_eq_true', and_assoc]
  rfl

theorem step_sound (hs : Sound u s) (h : step u s a = some s') : Sound u s' := by
  cases a with
  | begin arg =>
    simp only [step] at h
    split at h
    · rename_i hid
      split at h
      · cases h
        refine ⟨fun w hw => ?_, hs.holder⟩
        rcases List.mem_append.mp hw with hw | hw
        · exact hs.waiting w hw
        · rw [List.mem_singleton.mp hw]
          exact hid
      · cases h
        exact hs
    · cases h
  | lock k =>
    simp only [step] at h
    split at h
    · rename_i w hnone hw
      have hwaiting : ∀ w ∈ s.waiting.eraseIdx k, w.arg.id = u :=
        fun w hw => hs.waiting w (List.mem_of_mem_eraseIdx hw)
      split at h
      · rename_i r work hrecheck
        cases h
        obtain ⟨hfound, ht⟩ := recheckCorrection_ok hrecheck
        refine ⟨hwaiting, fun held hheld => ?_⟩
        cases hheld
        refine ⟨hs.waiting w (List.mem_of_getElem? hw), ⟨w.carries, hfound, ?_⟩, ?_⟩
        · rw [ht]
        · rw [ht]
          rfl
      · cases h
        refine ⟨hwaiting, fun held hheld => ?_⟩
        rw [hnone] at hheld
        cases hheld
    · cases h
  | write =>
    simp only [step] at h
    split at h
    · rename_i arg work hholder
      have hheld := hs.holder _ hholder
      split at h
      · rename_i work' hwrite
        cases h
        refine ⟨hs.waiting, fun held hheld' => ?_⟩
        cases hheld'
        obtain ⟨hrows, hcarries⟩ := writeStatuses_carries hwrite
        obtain ⟨carries, hfound, hwork⟩ := hheld.found
        refine ⟨hheld.target, ⟨carries, hfound, hrows.trans hwork⟩, ?_⟩
        have hid : arg.id = u := hheld.target
        rw [hid] at hcarries
        rw [hcarries, hheld.statuses]
        simp
      · cases h
        exact ⟨hs.waiting, by simp⟩
    · cases h
  | commit =>
    simp only [step] at h
    split at h
    · cases h
      exact ⟨hs.waiting, by simp⟩
    · cases h
  | abort =>
    obtain ⟨_, -, rfl⟩ := Option.map_eq_some_iff.mp h
    exact ⟨hs.waiting, by simp⟩

/-- The committed correction leaves its row with a status or with the help mark precisely
if it was admitted. -/
theorem commit_notHollow_iff {arg : CorrectOwnUpdateParams} {work : Database}
    (hheld : HolderSound u s.db.tables ⟨arg, work, true⟩)
    (hholder : s.holder = some ⟨arg, work, true⟩) :
    NotHollow u work.tables ↔ Admits u s .commit := by
  obtain ⟨carries, ⟨r, hr, hmatch⟩, hwork⟩ := hheld.found
  have hstatuses := hheld.statuses
  have hid : arg.id = u := hheld.target
  obtain ⟨hrid, -, -, -, hlive, -, hpost⟩ := matches_iff.mp hmatch
  have hunique : ∀ q ∈ s.db.tables.updates, q.id = u → q = r := fun q hq hqid =>
    (s.db.valid.holds .updatesPkey).eq_of_key_eq hq hr
      (congrArg some (hqid.trans (hrid.trans hid).symm)) (by simp)
  -- the one row of the update is the rewritten one
  have hrow : NotHollow u work.tables ↔ carriesStatus u work.tables.updateStatuses = true ∨
      r.needsHelp = true ∧ arg.clearNeedsHelp = false := by
    dsimp only at hwork
    constructor
    · intro h
      have hmem : arg.row.assign r ∈ work.tables.updates := by
        rw [hwork]
        exact mem_updateWhere.mpr ⟨r, hr, if_pos hmatch⟩
      simpa [CorrectOrdinaryUpdateParams.assign, CorrectOwnUpdateParams.row] using
        h _ hmem (hrid.trans hid) hlive
    · intro h row hrow hrowid _
      rw [hwork] at hrow
      obtain ⟨q, hq, rfl⟩ := mem_updateWhere.mp hrow
      have hqid : q.id = u := by
        split at hrowid <;> exact hrowid
      obtain rfl := hunique q hq hqid
      rw [if_pos hmatch]
      simpa [CorrectOrdinaryUpdateParams.assign, CorrectOwnUpdateParams.row] using h
  rw [hrow, hstatuses]
  simp only [Admits, hholder, Option.mem_some_iff, forall_eq']
  by_cases hreplace : arg.replaceStatuses = true
  · simp only [hreplace, if_true] at hpost
    simpa [hreplace] using hpost
  · have hhelp : (∃ row ∈ s.db.tables.updates, row.id = u ∧ row.needsHelp = true ∧
        arg.clearNeedsHelp = false) ↔ r.needsHelp = true ∧ arg.clearNeedsHelp = false := by
      constructor
      · rintro ⟨row, hrow, hrowid, hkept⟩
        exact hunique row hrow hrowid ▸ hkept
      · intro hkept
        exact ⟨r, hr, hrid.trans hid, hkept⟩
    simp only [hreplace, Bool.and_false, Bool.false_eq_true, if_false, false_or, hhelp]
    exact or_comm

/-- Until a correction commits its work is its own. -/
theorem step_db (hcommit : a ≠ .commit) (h : step u s a = some s') : s'.db = s.db := by
  cases a with
  | commit => exact absurd rfl hcommit
  | abort =>
    obtain ⟨_, -, rfl⟩ := Option.map_eq_some_iff.mp h
    rfl
  | begin arg | lock k | write =>
    simp only [step] at h
    split at h
    · split at h <;> cases h <;> rfl
    · cases h

theorem step_notHollow_iff (hs : Sound u s) (hp : NotHollow u s.db.tables)
    (h : step u s a = some s') : NotHollow u s'.db.tables ↔ Admits u s a := by
  by_cases hcommit : a = .commit
  · subst hcommit
    simp only [step] at h
    split at h
    · rename_i arg work hholder
      cases h
      exact commit_notHollow_iff (hs.holder _ hholder) hholder
    · cases h
  · rw [step_db hcommit h]
    refine iff_of_true hp ?_
    cases a with
    | commit => exact absurd rfl hcommit
    | begin arg | lock k | write | abort => trivial

end Invariant

/-- A live help update with one status. -/
def fedAndMarked : Database where
  tables :=
    { users := [{ id := 2, phone := "+905551112233", phoneVerifiedAt := 0 }]
      cats := [{ id := 1, name := none, area := ⟨41, 29⟩, createdAt := 0 }]
      updates := [{ id := 3, catId := 1, createdAt := 10, seq := 1, needsHelp := true
                    needsHelpExpiresAt := some 20, authorUserId := some 2 }]
      updateStatuses := [{ updateId := 3, status := .fed }] }
  valid := by decide

/-- The patch `{"statuses": []}`. -/
def emptyStatuses : CorrectOwnUpdateParams where
  id := 3
  catId := 1
  authorUserId := 2
  setComment := false
  comment := none
  updatedAt := 11
  windowStart := 0
  replaceStatuses := true
  statuses := []
  clearNeedsHelp := false

/-- The patch `{"needs_help": false}`. -/
def clearHelp : CorrectOwnUpdateParams :=
  { emptyStatuses with updatedAt := 12, replaceStatuses := false, clearNeedsHelp := true }

end Tekir.CorrectionRace
