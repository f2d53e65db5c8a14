import Tekir.Backend
import Mathlib.Data.List.Perm.Subperm

/-!
# One notification per activation

Help marks on one cat are created by concurrent transactions. Each one has its
`created_at` from the clock of its process and its `seq` from the insert, waits for the
lock of the cat's row, and then decides in `CreateNotificationOutbox` whether an earlier
live mark covers it. Positions and locks need not come in the same order. The statuses
and the gallery entry of the transactions are left out.
-/
namespace Tekir.HelpMarkEligibility
open Machine Table Schema Statements CatQueries UpdateQueries NotificationQueries Store
open CatServices (needsHelpExpiresAt)

/-- An inserted mark and the sequence number it drew. -/
structure Inserted where
  arg : CreateOrdinaryUpdateParams
  seq : ℕ

def Inserted.row (m : Inserted) : Update :=
  m.arg.row.insert m.seq

/-- The outbox row with the verdict, and whether the statement saw a covering mark. -/
structure Verdict where
  outbox : NotificationOutbox
  covered : Bool

/-- The transaction that holds the cat's row. -/
structure Holder where
  mark : Inserted
  verdict : Option Verdict := none

/-- What has been committed, the transactions that wait for the cat's row, and its holder. -/
structure State where
  db : Database
  pending : List Inserted := []
  holder : Option Holder := none

inductive Action
  /-- `CreateUpdate`. -/
  | insert (arg : CreateOrdinaryUpdateParams)
  /-- `UpdateCatLastUpdateAt` is given the row. -/
  | lock (k : ℕ)
  /-- `CreateNotificationOutbox`. -/
  | verdict (outboxId : UUID) (now : Instant)
  | commit
  | abort
  /-- The author takes a committed mark off. -/
  | clear (id : UUID) (updatedAt : Instant)
  | delete (id : UUID) (deletedAt : Instant)

def State.inFlight (s : State) : List Inserted :=
  s.holder.toList.map Holder.mark ++ s.pending

/-- A sequence number is drawn for good, whatever becomes of the transaction. -/
def nextval (db : Database) : Database where
  tables := { db.tables with updatesSeq := db.tables.updatesSeq + 1 }
  valid := by
    refine valid_iff.mpr fun c => ?_
    have h := db.valid.holds c
    cases c
    all_goals exact h

/-- What the transaction adds to the committed tables. -/
def insertMark (m : Inserted) (outbox : NotificationOutbox) (t : Tables) : Tables :=
  { t with
    updates := t.updates ++ [m.row]
    cats := updateWhere (fun c => c.id == m.arg.catId)
      (fun c => { c with lastUpdateAt := greatest c.lastUpdateAt m.arg.createdAt }) t.cats
    notificationOutbox := t.notificationOutbox ++ [outbox] }

/-- The outbox row of the mark, decided on the committed rows and the transaction's own. -/
def decideOutbox (id : UUID) (now : Instant) (m : Inserted) (updates : List Update) :
    NotificationOutbox :=
  { id, updateId := m.row.id, catId := m.row.catId
    needsHelpEligible := needsHelpEligible (updates ++ [m.row]) m.row, createdAt := now }

/-- A help mark on the cat, as the service asks for it, under a fresh identifier. -/
def Acceptable (c : UUID) (s : State) (arg : CreateOrdinaryUpdateParams) : Prop :=
  arg.catId = c ∧ arg.needsHelp = true ∧
    arg.needsHelpExpiresAt = some (needsHelpExpiresAt arg.createdAt) ∧
    (∀ u ∈ s.db.tables.updates, u.id ≠ arg.id) ∧ ∀ m ∈ s.inFlight, m.arg.id ≠ arg.id

instance (c : UUID) (s : State) (arg : CreateOrdinaryUpdateParams) :
    Decidable (Acceptable c s arg) :=
  inferInstanceAs (Decidable (_ ∧ _ ∧ _ ∧ (∀ u ∈ s.db.tables.updates, _) ∧ ∀ m ∈ s.inFlight, _))

/-- The marks of the cat `c`. What violates a constraint cannot be committed. -/
def step (c : UUID) (s : State) : Action → Option State
  | .insert arg =>
    if Acceptable c s arg then
      some { s with db := nextval s.db, pending := s.pending ++ [⟨arg, s.db.tables.updatesSeq⟩] }
    else none
  | .lock k =>
    match s.holder, s.pending[k]? with
    | none, some m => some { s with pending := s.pending.eraseIdx k, holder := some { mark := m } }
    | _, _ => none
  | .verdict outboxId now =>
    match s.holder with
    | some ⟨m, none⟩ =>
      let outbox := decideOutbox outboxId now m s.db.tables.updates
      let covered := s.db.tables.updates.any (coveredBy m.row)
      some { s with holder := some { mark := m, verdict := some { outbox, covered } } }
    | _ => none
  | .commit =>
    match s.holder with
    | some ⟨m, some v⟩ =>
      match s.db.write (insertMark m v.outbox) with
      | .ok db => some { s with db, holder := none }
      | .error _ => none
    | _ => none
  | .abort => s.holder.map fun _ => { s with holder := none }
  | .clear id updatedAt =>
    match s.db.write fun t =>
        { t with
          updates := updateWhere (fun u => u.id == id)
            (fun u => { u with
              needsHelp := false, needsHelpExpiresAt := none, needsHelpCategory := none
              updatedAt := some updatedAt }) t.updates } with
    | .ok db => some { s with db }
    | .error _ => none
  | .delete id deletedAt =>
    match s.db.write fun t =>
        { t with
          updates := updateWhere (fun u => u.id == id)
            (fun u => { u with deletedAt := some deletedAt }) t.updates } with
    | .ok db => some { s with db }
    | .error _ => none

/-- The help marks on the cat that were neither cleared nor deleted. -/
def marks (c : UUID) (t : Tables) : List Update :=
  t.updates.filter fun u => u.catId == c && u.needsHelp && u.deletedAt.isNone

/-- The outbox row of the mark is eligible. -/
def Eligible (t : Tables) (u : Update) : Prop :=
  ∃ o ∈ t.notificationOutbox, o.updateId = u.id ∧ o.needsHelpEligible = true

/-- The windows of 72 hours share an instant. -/
def Overlap (u v : Update) : Prop :=
  u.createdAt < needsHelpExpiresAt v.createdAt ∧ v.createdAt < needsHelpExpiresAt u.createdAt

/-- Of two live marks whose windows overlap at most one is eligible. -/
def OneActivation (c : UUID) (t : Tables) : Prop :=
  ∀ u ∈ marks c t, ∀ v ∈ marks c t, u.id ≠ v.id → Overlap u v → Eligible t u → ¬ Eligible t v

/-- The mark `v` has the later position. -/
def Before (u v : Update) : Prop :=
  u.createdAt < v.createdAt ∨ u.createdAt = v.createdAt ∧ u.seq < v.seq

/-- A mark that was not covered at its verdict commits only while no eligible mark of a later
position lies in its window. -/
def Admits (c : UUID) (s : State) : Action → Prop
  | .commit => ∀ h ∈ s.holder, ∀ v ∈ h.verdict, v.covered = false →
      ∀ q ∈ marks c s.db.tables, Before h.mark.row q →
        q.createdAt < needsHelpExpiresAt h.mark.row.createdAt → ¬ Eligible s.db.tables q
  | .insert _ | .lock _ | .verdict _ _ | .abort | .clear _ _ | .delete _ _ => True

instance (t : Tables) (u : Update) : Decidable (Eligible t u) :=
  inferInstanceAs (Decidable (∃ o ∈ t.notificationOutbox, _ ∧ _))

instance (u v : Update) : Decidable (Overlap u v) :=
  inferInstanceAs (Decidable (_ ∧ _))

instance (u v : Update) : Decidable (Before u v) :=
  inferInstanceAs (Decidable (_ ∨ _ ∧ _))

instance (c : UUID) (t : Tables) : Decidable (OneActivation c t) :=
  inferInstanceAs (Decidable (∀ u ∈ marks c t, ∀ v ∈ marks c t, _ → _ → _ → ¬ _))

instance (c : UUID) (s : State) (a : Action) : Decidable (Admits c s a) := by
  cases a <;> unfold Admits <;> infer_instance

variable {c : UUID} {s s' : State} {a : Action} {t : Tables}

theorem mem_marks {u : Update} : u ∈ marks c t ↔
    u ∈ t.updates ∧ u.catId = c ∧ u.needsHelp = true ∧ u.deletedAt = none := by
  simp [marks, and_assoc]

theorem lt_needsHelpExpiresAt (at' : Instant) : at' < needsHelpExpiresAt at' :=
  Int.lt_add_of_pos_right _ (by decide)

/-- Positions with different sequence numbers are ordered. -/
theorem before_of_not_before {u v : Update} (h : ¬ Before u v) (hseq : v.seq ≠ u.seq) :
    Before v u := by
  obtain ⟨hle, htie⟩ := not_or.mp h
  rcases (not_lt.mp hle).lt_or_eq with hlt | heq
  · exact .inl hlt
  · exact .inr ⟨heq, lt_of_le_of_ne (not_lt.mp fun hlt => htie ⟨heq.symm, hlt⟩) hseq⟩

/-- A covering mark is live, on the same cat, at an earlier position and still active. -/
theorem coveredBy_iff {u p : Update} (hcat : p.catId = u.catId) (hhelp : p.needsHelp = true)
    (hlive : p.deletedAt = none) (hid : p.id ≠ u.id)
    (hexpires : p.needsHelpExpiresAt = some (needsHelpExpiresAt p.createdAt)) :
    coveredBy u p = true ↔ Before p u ∧ u.createdAt < needsHelpExpiresAt p.createdAt := by
  simp [coveredBy, hcat, hhelp, hlive, hid, hexpires, Before]

theorem coveredBy_self (u : Update) : coveredBy u u = false := by
  simp [coveredBy]

/-- The flag of the outbox row says that no committed mark covers the new one. -/
theorem decideOutbox_eligible {id : UUID} {now : Instant} {m : Inserted} {updates : List Update}
    (hhelp : m.arg.needsHelp = true) : (decideOutbox id now m updates).needsHelpEligible =
      !updates.any (coveredBy m.row) := by
  have hrow : m.row.needsHelp = true := hhelp
  simp [decideOutbox, needsHelpEligible, hrow, coveredBy_self]

@[simp] theorem row_id (m : Inserted) : m.row.id = m.arg.id := rfl

/-- Alone, the four actions are the store's transaction. -/
theorem exec_createOrdinaryUpdate {arg : CreateOrdinaryUpdateParams} {db db' : Database}
    {catMediaId outboxId id : UUID} {now : Instant} (hstatuses : arg.statuses = [])
    (hmedia : arg.mediaId = none) (hnew : Acceptable arg.catId ⟨db, [], none⟩ arg)
    (h : createOrdinaryUpdate catMediaId outboxId now arg db = .ok (id, db')) :
    exec (step arg.catId) ⟨db, [], none⟩
      [.insert arg, .lock 0, .verdict outboxId now, .commit] = some ⟨db', [], none⟩ := by
  obtain ⟨⟨id', db₁⟩, hcreate, h⟩ := bind_eq_ok.mp h
  obtain ⟨db₂, hfold, h⟩ := bind_eq_ok.mp h
  obtain ⟨db₃, hlast, h⟩ := bind_eq_ok.mp h
  obtain ⟨db₄, hgallery, h⟩ := bind_eq_ok.mp h
  obtain ⟨db₅, houtbox, h⟩ := bind_eq_ok.mp h
  cases h
  rw [hstatuses] at hfold
  cases hfold
  obtain ⟨db₆, hwrite, hcreate⟩ := bind_eq_ok.mp hcreate
  cases hcreate
  have hgallery' : db₄ = db₃ := by
    unfold linkGallery at hgallery
    rw [hmedia] at hgallery
    cases hgallery
    rfl
  have hfresh : ∀ u ∈ db.tables.updates, u.id ≠ arg.id := hnew.2.2.2.1
  have hany : (db.tables.updates.any fun u => u.id == arg.row.id) = false := by
    refine List.any_eq_false.mpr fun u hu => ?_
    simpa [CreateOrdinaryUpdateParams.row] using hfresh u hu
  have hnone : (db.tables.updates.filter fun u => u.id == arg.id) = [] := by
    refine List.filter_eq_nil_iff.mpr fun u hu => ?_
    simpa using hfresh u hu
  have ht₁ := write_eq_ok.mp hwrite
  simp only [hany, Bool.false_eq_true, if_false] at ht₁
  have ht₃ := write_eq_ok.mp hlast
  have ht₅ := write_eq_ok.mp houtbox
  rw [hgallery', ht₃, ht₁] at ht₅
  have hcommit : (nextval db).write (insertMark ⟨arg, db.tables.updatesSeq⟩
      (decideOutbox outboxId now ⟨arg, db.tables.updatesSeq⟩ db.tables.updates)) = .ok db' := by
    refine write_eq_ok.mpr (ht₅.trans ?_)
    have hown : ((db.tables.updates ++ [arg.row.insert db.tables.updatesSeq]).filter fun u =>
        u.id == arg.row.id) = [arg.row.insert db.tables.updatesSeq] := by
      rw [List.filter_append]
      simp [hnone, CreateOrdinaryUpdateParams.row, CreateUpdateParams.insert,
        CreateUpdateParams.assign]
    simp only [hown, List.map_cons, List.map_nil]
    rfl
  simp only [exec_cons, exec_nil, step, hnew, if_true, Option.bind_some, List.nil_append,
    List.getElem?_cons_zero, List.eraseIdx_cons_zero]
  rw [show (nextval db).tables.updates = db.tables.updates from rfl, hcommit]
  rfl

section Invariant

/-- What the verdict says about the committed marks. -/
structure VerdictSound (c : UUID) (t : Tables) (m : Inserted) (v : Verdict) : Prop where
  target : v.outbox.updateId = m.arg.id
  flag : v.outbox.needsHelpEligible = !v.covered
  uncovered : v.covered = false → ∀ q ∈ marks c t, coveredBy m.row q = false

structure Sound (c : UUID) (s : State) : Prop where
  window : ∀ u ∈ marks c s.db.tables,
    u.needsHelpExpiresAt = some (needsHelpExpiresAt u.createdAt)
  asked : ∀ m ∈ s.inFlight, m.arg.catId = c ∧ m.arg.needsHelp = true ∧
    m.arg.needsHelpExpiresAt = some (needsHelpExpiresAt m.arg.createdAt)
  drawn : ∀ u ∈ marks c s.db.tables, u.seq < s.db.tables.updatesSeq
  drawnInFlight : ∀ m ∈ s.inFlight, m.seq < s.db.tables.updatesSeq
  apart : ∀ m ∈ s.inFlight, ∀ u ∈ marks c s.db.tables, u.seq ≠ m.seq
  apartInFlight : (s.inFlight.map Inserted.seq).Nodup
  verdict : ∀ h ∈ s.holder, ∀ v ∈ h.verdict, VerdictSound c s.db.tables h.mark v

/-- A transaction fewer, or fewer marks, leave everything sound. -/
theorem Sound.shrink (hs : Sound c s) {db : Database} {pending : List Inserted}
    {holder : Option Holder} (hmarks : ∀ u ∈ marks c db.tables, u ∈ marks c s.db.tables)
    (hseq : db.tables.updatesSeq = s.db.tables.updatesSeq)
    (hflight : (State.inFlight ⟨db, pending, holder⟩).Subperm s.inFlight)
    (hholder : ∀ h ∈ holder, ∀ v ∈ h.verdict, VerdictSound c db.tables h.mark v) :
    Sound c ⟨db, pending, holder⟩ where
  window u hu := hs.window u (hmarks u hu)
  asked m hm := hs.asked m (hflight.subset hm)
  drawn u hu := hseq ▸ hs.drawn u (hmarks u hu)
  drawnInFlight m hm := hseq ▸ hs.drawnInFlight m (hflight.subset hm)
  apart m hm u hu := hs.apart m (hflight.subset hm) u (hmarks u hu)
  apartInFlight := by
    obtain ⟨l, hperm, hsub⟩ := hflight
    exact (hperm.map _).nodup_iff.mp ((hsub.map _).nodup hs.apartInFlight)
  verdict := hholder

theorem VerdictSound.shrink {t' : Tables} {m : Inserted} {v : Verdict}
    (h : VerdictSound c t m v) (hmarks : ∀ u ∈ marks c t', u ∈ marks c t) :
    VerdictSound c t' m v :=
  ⟨h.target, h.flag, fun hv q hq => h.uncovered hv q (hmarks q hq)⟩

/-- An author who takes a mark off leaves the other marks as they are. -/
theorem marks_takeOff {id : UUID} {f : Update → Update} {t' : Tables}
    (hoff : ∀ u, (f u).needsHelp = false ∨ (f u).deletedAt ≠ none)
    (ht : t' = { t with updates := updateWhere (fun u => u.id == id) f t.updates }) :
    ∀ u ∈ marks c t', u ∈ marks c t := by
  intro u' hu'
  rw [mem_marks, ht] at hu'
  obtain ⟨hmem, hcat, hhelp, hlive⟩ := hu'
  obtain ⟨u, hu, heq⟩ := mem_updateWhere.mp hmem
  split at heq
  · exfalso
    rw [← heq] at hhelp hlive
    rcases hoff u with h | h
    · rw [h] at hhelp
      cases hhelp
    · exact h hlive
  · exact mem_marks.mpr ⟨heq ▸ hu, hcat, hhelp, hlive⟩

theorem mem_marks_insert {m : Inserted} {o : NotificationOutbox} {u : Update} :
    u ∈ marks c (insertMark m o t) → u ∈ marks c t ∨ u = m.row := by
  intro hu
  obtain ⟨hmem, hrest⟩ := mem_marks.mp hu
  rcases List.mem_append.mp hmem with hmem | hmem
  · exact .inl (mem_marks.mpr ⟨hmem, hrest⟩)
  · exact .inr (List.mem_singleton.mp hmem)

theorem mem_marks_insert_old {m : Inserted} {o : NotificationOutbox} {u : Update}
    (hu : u ∈ marks c t) : u ∈ marks c (insertMark m o t) := by
  obtain ⟨hmem, hrest⟩ := mem_marks.mp hu
  exact mem_marks.mpr ⟨List.mem_append_left _ hmem, hrest⟩

/-- A new mark draws a number nobody else has. -/
theorem insert_sound (hs : Sound c s) {arg : CreateOrdinaryUpdateParams}
    (hacc : Acceptable c s arg) :
    Sound c { s with
      db := nextval s.db, pending := s.pending ++ [⟨arg, s.db.tables.updatesSeq⟩] } := by
  have hflight : (State.inFlight ⟨nextval s.db,
      s.pending ++ [⟨arg, s.db.tables.updatesSeq⟩], s.holder⟩) =
      s.inFlight ++ [⟨arg, s.db.tables.updatesSeq⟩] := by
    simp [State.inFlight]
  refine ⟨hs.window, fun m hm => ?_, fun u hu => ?_, fun m hm => ?_, fun m hm u hu => ?_, ?_,
    fun held hheld v hv => (hs.verdict held hheld v hv).shrink fun _ => id⟩
  · rw [hflight] at hm
    rcases List.mem_append.mp hm with hm | hm
    · exact hs.asked m hm
    · rw [List.mem_singleton.mp hm]
      exact ⟨hacc.1, hacc.2.1, hacc.2.2.1⟩
  · exact Nat.lt_succ_of_lt (hs.drawn u hu)
  · rw [hflight] at hm
    rcases List.mem_append.mp hm with hm | hm
    · exact Nat.lt_succ_of_lt (hs.drawnInFlight m hm)
    · rw [List.mem_singleton.mp hm]
      exact Nat.lt_succ_self _
  · rw [hflight] at hm
    rcases List.mem_append.mp hm with hm | hm
    · exact hs.apart m hm u hu
    · rw [List.mem_singleton.mp hm]
      exact (hs.drawn u hu).ne
  · rw [hflight, List.map_append, List.map_singleton]
    refine List.Nodup.append hs.apartInFlight (List.nodup_singleton _) ?_
    intro seq hseq hmem
    rw [List.mem_singleton.mp hmem] at hseq
    obtain ⟨m, hm, heq⟩ := List.mem_map.mp hseq
    exact absurd heq (hs.drawnInFlight m hm).ne

/-- The mark of the holder joins the committed ones. -/
theorem commit_sound (hs : Sound c s) {m : Inserted} {v : Verdict} {db : Database}
    (hholder : s.holder = some ⟨m, some v⟩)
    (hwrite : s.db.write (insertMark m v.outbox) = .ok db) :
    Sound c { s with db, holder := none } := by
  have ht := write_eq_ok.mp hwrite
  have hflight : s.inFlight = m :: s.pending := by simp [State.inFlight, hholder]
  have hasked := hs.asked m (hflight ▸ List.mem_cons_self)
  have hnodup := hs.apartInFlight
  rw [hflight, List.map_cons, List.nodup_cons] at hnodup
  have hpending : ∀ p ∈ s.pending, p ∈ s.inFlight :=
    fun p hp => hflight ▸ List.mem_cons_of_mem _ hp
  refine ⟨fun u hu => ?_, fun p hp => hs.asked p (hpending p hp), fun u hu => ?_,
    fun p hp => ?_, fun p hp u hu => ?_, hnodup.2, by simp⟩
  · rw [ht] at hu
    rcases mem_marks_insert hu with hu | rfl
    · exact hs.window u hu
    · exact hasked.2.2
  · rw [ht] at hu ⊢
    rcases mem_marks_insert hu with hu | rfl
    · exact hs.drawn u hu
    · exact hs.drawnInFlight m (hflight ▸ List.mem_cons_self)
  · rw [ht]
    exact hs.drawnInFlight p (hpending p hp)
  · rw [ht] at hu
    rcases mem_marks_insert hu with hu | rfl
    · exact hs.apart p (hpending p hp) u hu
    · intro heq
      exact hnodup.1 (List.mem_map.mpr ⟨p, hp, heq.symm⟩)

theorem takeOff_sound (hs : Sound c s) {id : UUID} {f : Update → Update} {db : Database}
    (hoff : ∀ u, (f u).needsHelp = false ∨ (f u).deletedAt ≠ none)
    (ht : db.tables =
      { s.db.tables with updates := updateWhere (fun u => u.id == id) f s.db.tables.updates }) :
    Sound c { s with db } := by
  have hmarks := marks_takeOff (c := c) hoff ht
  exact hs.shrink hmarks (by rw [ht]) (List.Subperm.refl _)
    fun held hheld v hv => (hs.verdict held hheld v hv).shrink hmarks

theorem step_sound (hs : Sound c s) (h : step c s a = some s') : Sound c s' := by
  cases a with
  | insert arg =>
    simp only [step] at h
    split at h
    · rename_i hacc
      cases h
      exact insert_sound hs hacc
    · cases h
  | lock k =>
    simp only [step] at h
    split at h
    · rename_i m hnone hm
      cases h
      refine hs.shrink (fun _ => id) rfl (List.Perm.subperm ?_) ?_
      · obtain ⟨hk, rfl⟩ := List.getElem?_eq_some_iff.mp hm
        simpa [State.inFlight, hnone] using List.getElem_cons_eraseIdx_perm hk
      · intro held hheld v hv
        cases hheld
        cases hv
    · cases h
  | verdict outboxId now =>
    simp only [step] at h
    split at h
    · rename_i m hholder
      cases h
      have hasked := hs.asked m (by simp [State.inFlight, hholder])
      have hflight : (State.inFlight ⟨s.db, s.pending, some ⟨m, some
          ⟨decideOutbox outboxId now m s.db.tables.updates,
            s.db.tables.updates.any (coveredBy m.row)⟩⟩⟩) = s.inFlight := by
        simp [State.inFlight, hholder]
      refine hs.shrink (fun _ => id) rfl (hflight ▸ List.Subperm.refl _) fun held hheld v hv => ?_
      cases hheld
      cases hv
      refine ⟨rfl, decideOutbox_eligible hasked.2.1, fun hcovered q hq => ?_⟩
      simpa using List.any_eq_false.mp hcovered q (mem_marks.mp hq).1
    · cases h
  | commit =>
    simp only [step] at h
    split at h
    · rename_i m v hholder
      split at h
      · rename_i db hwrite
        cases h
        exact commit_sound hs hholder hwrite
      · cases h
    · cases h
  | abort =>
    obtain ⟨_, hholder, rfl⟩ := Option.map_eq_some_iff.mp h
    exact hs.shrink (fun _ => id) rfl (List.Sublist.subperm (by simp [State.inFlight, hholder]))
      (by simp)
  | clear id updatedAt =>
    simp only [step] at h
    split at h
    · rename_i db hwrite
      cases h
      exact takeOff_sound hs (fun _ => .inl rfl) (write_eq_ok.mp hwrite)
    · cases h
  | delete id deletedAt =>
    simp only [step] at h
    split at h
    · rename_i db hwrite
      cases h
      exact takeOff_sound hs (fun _ => .inr (by simp)) (write_eq_ok.mp hwrite)
    · cases h

variable {m : Inserted} {o : NotificationOutbox}

theorem eligible_old {u : Update} (htarget : o.updateId = m.arg.id) (hid : u.id ≠ m.arg.id) :
    Eligible (insertMark m o t) u ↔ Eligible t u := by
  constructor
  · rintro ⟨o', ho', hid', hflag⟩
    rcases List.mem_append.mp ho' with ho' | ho'
    · exact ⟨o', ho', hid', hflag⟩
    · rw [List.mem_singleton.mp ho', htarget] at hid'
      exact absurd hid'.symm hid
  · rintro ⟨o', ho', h⟩
    exact ⟨o', List.mem_append_left _ ho', h⟩

/-- The mark's own flag is the one its transaction decided. -/
theorem eligible_new (htarget : o.updateId = m.arg.id)
    (hnone : ∀ o' ∈ t.notificationOutbox, o'.updateId ≠ m.arg.id) :
    Eligible (insertMark m o t) m.row ↔ o.needsHelpEligible = true := by
  constructor
  · rintro ⟨o', ho', hid', hflag⟩
    rcases List.mem_append.mp ho' with ho' | ho'
    · exact absurd hid' (hnone o' ho')
    · rwa [List.mem_singleton.mp ho'] at hflag
  · intro hflag
    exact ⟨o, List.mem_append_right _ (List.mem_singleton.mpr rfl), htarget, hflag⟩

/-- A mark that commits joins the others without a second activation precisely if it was
admitted: earlier marks in its window would have covered it. -/
theorem commit_oneActivation_iff {v : Verdict} {db : Database} (hs : Sound c s)
    (hp : OneActivation c s.db.tables) (hholder : s.holder = some ⟨m, some v⟩)
    (hwrite : s.db.write (insertMark m v.outbox) = .ok db) :
    OneActivation c db.tables ↔ Admits c s .commit := by
  have ht := write_eq_ok.mp hwrite
  obtain ⟨htarget, hflag, huncovered⟩ := hs.verdict _ hholder v rfl
  have hflight : m ∈ s.inFlight := by simp [State.inFlight, hholder]
  obtain ⟨hcat, hhelp, hexpires⟩ := hs.asked m hflight
  dsimp only at htarget huncovered
  -- no committed row has the new identifier
  have hfresh : ∀ u ∈ s.db.tables.updates, u.id ≠ m.arg.id := by
    have huniq := db.valid.holds .updatesPkey
    rw [Constraint.Holds, ht] at huniq
    intro u hu
    simpa using (uniqueOn_append_singleton.mp huniq).2 u hu
  have hnone : ∀ o ∈ s.db.tables.notificationOutbox, o.updateId ≠ m.arg.id := by
    intro o ho hid
    obtain ⟨u, hu, heq⟩ := s.db.valid.holds .notificationOutboxUpdateIdFkey o ho o.updateId rfl
    exact hfresh u hu (heq.trans hid)
  have hold : ∀ u ∈ marks c s.db.tables, (Eligible db.tables u ↔ Eligible s.db.tables u) := by
    intro u hu
    rw [ht]
    exact eligible_old htarget (hfresh u (mem_marks.mp hu).1)
  have hnew : Eligible db.tables m.row ↔ v.covered = false := by
    rw [ht, eligible_new htarget hnone, hflag, Bool.not_eq_true']
  have hrow : m.row ∈ marks c db.tables := by
    rw [ht]
    exact mem_marks.mpr ⟨List.mem_append_right _ (List.mem_singleton.mpr rfl), hcat, hhelp, rfl⟩
  simp only [Admits, hholder, Option.mem_some_iff, forall_eq']
  constructor
  · intro h hcovered q hq hbefore hwindow hq'
    have hmem : q ∈ marks c db.tables := by
      rw [ht]
      exact mem_marks_insert_old hq
    refine h m.row hrow q hmem (Ne.symm (hfresh q (mem_marks.mp hq).1)) ⟨?_, hwindow⟩
      (hnew.mpr hcovered) ((hold q hq).mpr hq')
    have hle : m.row.createdAt ≤ q.createdAt := by
      rcases hbefore with hlt | ⟨heq, -⟩
      · exact hlt.le
      · exact heq.le
    exact hle.trans_lt (lt_needsHelpExpiresAt q.createdAt)
  · intro hadm
    -- an old mark and the new one
    have hpair : ∀ q ∈ marks c s.db.tables, Overlap m.row q → Eligible db.tables m.row →
        ¬ Eligible db.tables q := by
      intro q hq hoverlap helig hqelig
      have hcovered := hnew.mp helig
      obtain ⟨hmem, hqcat, hqhelp, hqlive⟩ := mem_marks.mp hq
      have hseq := hs.apart m hflight q hq
      by_cases hbefore : Before m.row q
      · exact hadm hcovered q hq hbefore hoverlap.2 ((hold q hq).mp hqelig)
      · have hcov := huncovered hcovered q hq
        rw [Bool.eq_false_iff] at hcov
        refine hcov ((coveredBy_iff (hqcat.trans hcat.symm) hqhelp hqlive (hfresh q hmem)
          (hs.window q hq)).mpr ⟨?_, hoverlap.1⟩)
        exact before_of_not_before hbefore hseq
    intro u hu w hw hne hoverlap hu' hw'
    rw [ht] at hu hw
    rcases mem_marks_insert hu with hu | rfl <;> rcases mem_marks_insert hw with hw | rfl
    · exact hp u hu w hw hne hoverlap ((hold u hu).mp hu') ((hold w hw).mp hw')
    · exact hpair u hu ⟨hoverlap.2, hoverlap.1⟩ hw' hu'
    · exact hpair w hw hoverlap hu' hw'
    · exact hne rfl

/-- Other actions add no mark and touch no outbox row. -/
theorem OneActivation.shrink {t' : Tables} (hp : OneActivation c t)
    (hmarks : ∀ u ∈ marks c t', u ∈ marks c t)
    (houtbox : t'.notificationOutbox = t.notificationOutbox) : OneActivation c t' := by
  intro u hu w hw hne hoverlap hu' hw'
  unfold Eligible at hu' hw'
  rw [houtbox] at hu' hw'
  exact hp u (hmarks u hu) w (hmarks w hw) hne hoverlap hu' hw'

/-- Until a mark commits no mark and no outbox row is added. -/
theorem step_quiet (hcommit : a ≠ .commit) (h : step c s a = some s') :
    (∀ u ∈ marks c s'.db.tables, u ∈ marks c s.db.tables) ∧
      s'.db.tables.notificationOutbox = s.db.tables.notificationOutbox := by
  cases a with
  | commit => exact absurd rfl hcommit
  | insert arg | lock k | verdict outboxId now =>
    simp only [step] at h
    split at h
    · cases h
      exact ⟨fun _ => id, rfl⟩
    · cases h
  | abort =>
    obtain ⟨_, -, rfl⟩ := Option.map_eq_some_iff.mp h
    exact ⟨fun _ => id, rfl⟩
  | clear id updatedAt =>
    simp only [step] at h
    split at h
    · rename_i db hwrite
      cases h
      have ht := write_eq_ok.mp hwrite
      exact ⟨marks_takeOff (fun _ => .inl rfl) ht, by rw [ht]⟩
    · cases h
  | delete id deletedAt =>
    simp only [step] at h
    split at h
    · rename_i db hwrite
      cases h
      have ht := write_eq_ok.mp hwrite
      exact ⟨marks_takeOff (fun _ => .inr (by simp)) ht, by rw [ht]⟩
    · cases h

theorem step_oneActivation_iff (hs : Sound c s) (hp : OneActivation c s.db.tables)
    (h : step c s a = some s') : OneActivation c s'.db.tables ↔ Admits c s a := by
  by_cases hcommit : a = .commit
  · subst hcommit
    simp only [step] at h
    split at h
    · rename_i m v hholder
      split at h
      · rename_i db hwrite
        cases h
        exact commit_oneActivation_iff hs hp hholder hwrite
      · cases h
    · cases h
  · obtain ⟨hmarks, houtbox⟩ := step_quiet hcommit h
    refine iff_of_true (hp.shrink hmarks houtbox) ?_
    cases a with
    | commit => exact absurd rfl hcommit
    | insert _ | lock _ | verdict _ _ | abort | clear _ _ | delete _ _ => trivial

theorem marks_start {db : Database}
    (h : ∀ u ∈ db.tables.updates, u.catId = c → u.needsHelp = false) : marks c db.tables = [] := by
  refine List.filter_eq_nil_iff.mpr fun u hu hmark => ?_
  simp only [Bool.and_eq_true, beq_iff_eq] at hmark
  rw [h u hu hmark.1.1] at hmark
  cases hmark.1.2

end Invariant

/-- In every run of concurrent help marks on a cat that had none, at most one of two
overlapping live marks is eligible, in every committed state, precisely if every mark
that commits is admitted. -/
theorem one_activation_iff_admitted {db : Database}
    (h : ∀ u ∈ db.tables.updates, u.catId = c → u.needsHelp = false) (as : List Action) :
    Always (step c) (fun s => OneActivation c s.db.tables) ⟨db, [], none⟩ as ↔
      Each (step c) (Admits c) ⟨db, [], none⟩ as := by
  have hmarks := marks_start h
  refine always_iff_each (J := Sound c) (fun _ _ _ => step_sound)
    (fun _ _ _ => step_oneActivation_iff) ⟨?_, ?_, ?_, ?_, ?_, ?_, ?_⟩ ?_
  · simp [hmarks]
  · simp [State.inFlight]
  · simp [hmarks]
  · simp [State.inFlight]
  · simp [State.inFlight]
  · simp [State.inFlight]
  · simp
  · simp [OneActivation, hmarks]

/-- A cat without any update. -/
def quietCat : Database where
  tables :=
    { users := [{ id := 2, phone := "+905551112233", phoneVerifiedAt := 0 }]
      cats := [{ id := 1, name := none, area := ⟨41, 29⟩, createdAt := 0 }] }
  valid := by decide

/-- A mark on it, stamped at the given instant. -/
def markAt (id : UUID) (createdAt : Instant) : CreateOrdinaryUpdateParams where
  id := id
  catId := 1
  authorDeviceId := none
  authorUserId := 2
  comment := none
  createdAt := createdAt
  statuses := []
  needsHelp := true
  needsHelpExpiresAt := some (needsHelpExpiresAt createdAt)

/-- Two marks that commit in the order of their positions. -/
theorem marks_in_order : Always (step 1) (fun s => OneActivation 1 s.db.tables)
    ⟨quietCat, [], none⟩
    [.insert (markAt 10 5), .insert (markAt 11 6), .lock 0, .verdict 20 7, .commit, .lock 0,
      .verdict 21 8, .commit] :=
  (one_activation_iff_admitted (by decide) _).mpr (by decide +kernel)

/-- The mark with the later stamp is given the cat first: both marks are eligible. -/
theorem marks_out_of_order : ¬ Always (step 1) (fun s => OneActivation 1 s.db.tables)
    ⟨quietCat, [], none⟩
    [.insert (markAt 10 5), .insert (markAt 11 6), .lock 1, .verdict 20 7, .commit, .lock 0,
      .verdict 21 8, .commit] :=
  not_always_of_test (by decide +kernel)

end Tekir.HelpMarkEligibility
