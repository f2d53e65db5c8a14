import Tekir.Backend

/-!
# Guessing a one-time code

`VerifyOTP` reads the code row, checks `attempts` against the limit and compares the
hashes; a mismatch is recorded by a statement of its own, which increments without
another look at the limit. Calls that run at the same time are therefore interleaved
between their read and their increment.
-/
namespace Tekir.OtpGuessing
open Machine Table Schema Statements AccountQueries Environment AccountServices Backend

/-- `inFlight` holds the rows of the calls that found a mismatch and have not recorded it,
`reported` those of the calls that answered with a mismatch. -/
structure State where
  db : Database
  inFlight : List UUID := []
  reported : List UUID := []

inductive Call
  /-- `RequestOTP` issues a code. -/
  | request (env : Env) (rawPhone : String)
  /-- A `VerifyOTP` reads the row and compares. -/
  | guess (rawPhone code : String) (now : Instant)
  /-- A call in flight records its mismatch and answers. -/
  | report (row : UUID)
  /-- A `VerifyOTP` with the right code consumes it. -/
  | consume (env : Env) (row : UUID) (hash phone : String)

/-- The row the presented code is compared with and does not match. -/
def mismatch (cfg : Config) (rawPhone code : String) (now : Instant) (db : Database) :
    Option OtpCode :=
  match normalizePhone rawPhone with
  | .error _ => none
  | .ok phone =>
    match readOTP phone now db with
    | .error _ => none
    | .ok row => if hashOTPCode cfg phone code = row.codeHash then none else some row

def step (cfg : Config) (s : State) : Call → Option State
  | .request env rawPhone => some { s with db := (requestOTP cfg env rawPhone { db := s.db }).2.db }
  | .guess rawPhone code now =>
    match mismatch cfg rawPhone code now s.db with
    | none => some s
    | some row => some { s with inFlight := row.id :: s.inFlight }
  | .report row =>
    if row ∈ s.inFlight then
      match incrementOtpAttempts row s.db with
      | .error _ => some { s with inFlight := s.inFlight.erase row }
      | .ok db =>
        some { db, inFlight := s.inFlight.erase row, reported := row :: s.reported }
    else none
  | .consume env row hash phone =>
    match consumeOtpCodeIfValid env.clock row hash env.clock phone s.db with
    | .error _ => some s
    | .ok (_, db) => some { s with db }

/-- No code was guessed at more often than its limit, and its counter is not beyond it. -/
def Limited (s : State) : Prop :=
  ∀ row ∈ s.db.tables.otpCodes,
    row.attempts ≤ row.maxAttempts ∧ (s.reported.count row.id : ℤ) ≤ row.maxAttempts

/-- A wrong guess is compared only while the recorded attempts and the calls still in flight
on its row are fewer than the limit. -/
def Admits (cfg : Config) (s : State) : Call → Prop
  | .guess rawPhone code now => ∀ row ∈ mismatch cfg rawPhone code now s.db,
      row.attempts + s.inFlight.count row.id < row.maxAttempts
  | .request _ _ | .report _ | .consume _ _ _ _ => True

instance (s : State) : Decidable (Limited s) :=
  inferInstanceAs (Decidable (∀ row ∈ s.db.tables.otpCodes, _ ∧ _))

instance (cfg : Config) (s : State) (c : Call) : Decidable (Admits cfg s c) := by
  cases c <;> unfold Admits <;> infer_instance

variable {cfg : Config} {s s' : State} {c : Call}

/-- What the counters mean. -/
structure Counted (s : State) : Prop where
  reported : ∀ row ∈ s.db.tables.otpCodes, row.attempts = s.reported.count row.id
  rows : ∀ id ∈ s.inFlight ++ s.reported, ∃ row ∈ s.db.tables.otpCodes, row.id = id

/-- Even after all calls in flight are recorded the limit is not exceeded. -/
def Room (s : State) : Prop :=
  ∀ row ∈ s.db.tables.otpCodes, row.attempts + s.inFlight.count row.id ≤ row.maxAttempts

section Statements

/-- A row keeps its identifier, its limit and its attempts. -/
def sameCount (row : OtpCode) : UUID × ℤ × ℤ :=
  (row.id, row.maxAttempts, row.attempts)

/-- `RequestOTP` leaves the codes alone or adds a fresh one. -/
theorem request_codes (cfg : Config) (env : Env) (rawPhone : String) (w : World) :
    (requestOTP cfg env rawPhone w).2.db.tables.otpCodes = w.db.tables.otpCodes ∨
    ∃ row, (requestOTP cfg env rawPhone w).2.db.tables.otpCodes = w.db.tables.otpCodes ++ [row] ∧
      row.attempts = 0 ∧ row.maxAttempts = cfg.otpMaxAttempts := by
  unfold requestOTP
  split
  · exact .inl rfl
  · exact .inl rfl
  · dsimp only
    split
    · exact .inl rfl
    · split
      · exact .inl rfl
      · rename_i h
        have ht := congrArg Tables.otpCodes (write_eq_ok.mp h)
        exact .inr ⟨_, ht, rfl, rfl⟩

theorem consume_codes {env : Env} {id r : UUID} {hash phone : String} {db db' : Database}
    (h : consumeOtpCodeIfValid env.clock id hash env.clock phone db = .ok (r, db')) :
    db'.tables.otpCodes.map sameCount = db.tables.otpCodes.map sameCount := by
  obtain ⟨row, -, h⟩ := bind_eq_ok.mp h
  obtain ⟨db₁, hwrite, h⟩ := bind_eq_ok.mp h
  cases h
  rw [write_eq_ok.mp hwrite]
  refine map_updateWhere (fun _ => ?_) _
  rfl

/-- No constraint speaks about the attempts, so the increment always succeeds. -/
theorem increment_ok (id : UUID) (db : Database) :
    ∃ db', incrementOtpAttempts id db = .ok db' ∧
      db'.tables.otpCodes = updateWhere (fun o => o.id == id)
        (fun o => { o with attempts := o.attempts + 1 }) db.tables.otpCodes := by
  refine ⟨_, write_ok (valid_iff.mpr fun c => ?_), rfl⟩
  have h := db.valid.holds c
  cases c
  case otpCodesPkey => exact h.updateWhere _ fun _ => rfl
  all_goals exact h

/-- A mismatch is found on a stored row. -/
theorem mismatch_mem {rawPhone code : String} {now : Instant} {db : Database} {row : OtpCode}
    (h : mismatch cfg rawPhone code now db = some row) : row ∈ db.tables.otpCodes := by
  unfold mismatch at h
  split at h
  · cases h
  · split at h
    · cases h
    · rename_i phone _ _ row' hread
      split at h
      · cases h
      · cases h
        unfold readOTP at hread
        split at hread
        · cases hread
        · cases hread
        · rename_i latest hget
          obtain ⟨_, -, hread⟩ := bind_eq_ok.mp hread
          cases hread
          have hlatest := Option.mem_toList.mp (one_eq_ok hget)
          have hmem := List.mem_of_mem_head? hlatest
          exact (List.mem_filter.mp (mem_orderBy.mp hmem)).1

/-- A call that nobody interrupts is a guess and, on a mismatch, its report. -/
theorem verifyOTP_mismatch {env : Env} {rawPhone code : String} {deviceId : UUID} {w : World}
    {row : OtpCode} (hlocal : env.external = none)
    (h : mismatch cfg rawPhone code env.clock w.db = some row) :
    ∃ db', incrementOtpAttempts row.id w.db = .ok db' ∧
      verifyOTP cfg env rawPhone code deviceId w =
        (.error .otpCodeMismatch, { w with db := db' }) := by
  obtain ⟨db', hinc, -⟩ := increment_ok row.id w.db
  refine ⟨db', hinc, ?_⟩
  unfold mismatch at h
  unfold verifyOTP
  split at h
  · cases h
  · rename_i phone hphone
    split at h
    · cases h
    · rename_i row' hread
      split at h
      · cases h
      · rename_i hne
        cases h
        simp only [hphone, hlocal, hread, hne, if_false, hinc]

end Statements

section Invariants

/-- Rows that only differ in what `sameCount` ignores. -/
theorem mem_of_same {rows rows' : List OtpCode} (h : rows'.map sameCount = rows.map sameCount)
    {row' : OtpCode} (hrow : row' ∈ rows') : ∃ row ∈ rows, row.id = row'.id ∧
      row.maxAttempts = row'.maxAttempts ∧ row.attempts = row'.attempts := by
  have hmem : sameCount row' ∈ rows.map sameCount := h ▸ List.mem_map.mpr ⟨row', hrow, rfl⟩
  obtain ⟨row, hrow, heq⟩ := List.mem_map.mp hmem
  simp only [sameCount, Prod.mk.injEq] at heq
  exact ⟨row, hrow, heq⟩

/-- What a call does to the rows and to the two lists. -/
inductive Effect (cfg : Config) (s : State) : Call → State → Prop
  | same {c : Call} {db : Database}
      (h : db.tables.otpCodes.map sameCount = s.db.tables.otpCodes.map sameCount) :
      Effect cfg s c { s with db }
  | issued {env : Env} {rawPhone : String} {db : Database} {row : OtpCode}
      (h : db.tables.otpCodes = s.db.tables.otpCodes ++ [row]) (hattempts : row.attempts = 0)
      (hmax : row.maxAttempts = cfg.otpMaxAttempts) :
      Effect cfg s (.request env rawPhone) { s with db }
  | guessed {rawPhone code : String} {now : Instant} {row : OtpCode}
      (h : mismatch cfg rawPhone code now s.db = some row) :
      Effect cfg s (.guess rawPhone code now) { s with inFlight := row.id :: s.inFlight }
  | reported {id : UUID} {db : Database} (hmem : id ∈ s.inFlight)
      (h : db.tables.otpCodes = updateWhere (fun o => o.id == id)
        (fun o => { o with attempts := o.attempts + 1 }) s.db.tables.otpCodes) :
      Effect cfg s (.report id)
        { db, inFlight := s.inFlight.erase id, reported := id :: s.reported }

theorem effect_of_step (h : step cfg s c = some s') : Effect cfg s c s' := by
  cases c with
  | request env rawPhone =>
    cases h
    rcases request_codes cfg env rawPhone { db := s.db } with heq | ⟨row, heq, h0, hmax⟩
    · exact .same (congrArg _ heq)
    · exact .issued heq h0 hmax
  | guess rawPhone code now =>
    simp only [step] at h
    split at h
    · cases h
      exact .same rfl
    · rename_i hrow
      cases h
      exact .guessed hrow
  | report id =>
    simp only [step] at h
    split at h
    · rename_i hmem
      obtain ⟨db', hinc, heq⟩ := increment_ok id s.db
      rw [hinc] at h
      cases h
      exact .reported hmem heq
    · cases h
  | consume env row hash phone =>
    simp only [step] at h
    split at h
    · cases h
      exact .same rfl
    · rename_i hconsume
      cases h
      exact .same (consume_codes hconsume)

/-- A row the statement adds has an identifier of its own. -/
theorem issued_fresh {db : Database} {row : OtpCode}
    (h : db.tables.otpCodes = s.db.tables.otpCodes ++ [row]) :
    ∀ r ∈ s.db.tables.otpCodes, r.id ≠ row.id := by
  have huniq := db.valid.holds .otpCodesPkey
  rw [Constraint.Holds, h, uniqueOn_append_singleton] at huniq
  intro r hr
  simpa using huniq.2 r hr

theorem step_counted (hc : Counted s) (h : step cfg s c = some s') : Counted s' := by
  cases effect_of_step h with
  | same heq =>
    refine ⟨fun row' hrow' => ?_, fun id hid => ?_⟩
    · obtain ⟨row, hrow, hid, -, hattempts⟩ := mem_of_same heq hrow'
      rw [← hid, ← hattempts]
      exact hc.reported row hrow
    · obtain ⟨row, hrow, rfl⟩ := hc.rows id hid
      obtain ⟨row', hrow', hid', -⟩ := mem_of_same heq.symm hrow
      exact ⟨row', hrow', hid'⟩
  | @issued _ _ db row heq hattempts hmax =>
    have hfresh := issued_fresh heq
    refine ⟨fun r hr => ?_, fun id hid => ?_⟩
    · dsimp only at hr ⊢
      rw [heq] at hr
      rcases List.mem_append.mp hr with hr | hr
      · exact hc.reported r hr
      · rw [List.mem_singleton.mp hr, hattempts, List.count_eq_zero.mpr]
        · rfl
        · intro hmem
          obtain ⟨r', hr', hid⟩ := hc.rows _ (List.mem_append_right _ hmem)
          exact hfresh r' hr' hid
    · obtain ⟨r, hr, hid⟩ := hc.rows id hid
      exact ⟨r, heq ▸ List.mem_append_left _ hr, hid⟩
  | guessed hrow =>
    refine ⟨hc.reported, fun id hid => ?_⟩
    rcases List.mem_cons.mp hid with rfl | hid
    · exact ⟨_, mismatch_mem hrow, rfl⟩
    · exact hc.rows id hid
  | @reported id db hmem heq =>
    refine ⟨fun row' hrow' => ?_, fun id' hid' => ?_⟩
    · dsimp only at hrow' ⊢
      rw [heq] at hrow'
      obtain ⟨row, hrow, rfl⟩ := mem_updateWhere.mp hrow'
      have hcount := hc.reported row hrow
      by_cases hid : row.id = id
      · simp [hid, hcount]
      · simp [hid, hcount, List.count_cons_of_ne (Ne.symm hid)]
    · have hold : id' ∈ s.inFlight ++ s.reported := by
        rcases List.mem_append.mp hid' with h' | h'
        · exact List.mem_append_left _ (List.mem_of_mem_erase h')
        · rcases List.mem_cons.mp h' with rfl | h'
          · exact List.mem_append_left _ hmem
          · exact List.mem_append_right _ h'
      obtain ⟨row, hrow, rfl⟩ := hc.rows id' hold
      refine ⟨if row.id == id then { row with attempts := row.attempts + 1 } else row, ?_, ?_⟩
      · rw [heq]
        exact mem_updateWhere.mpr ⟨row, hrow, rfl⟩
      · split <;> rfl

/-- How `attempts + calls in flight` of a row moves. -/
theorem reported_load {id : UUID} (row : OtpCode) (hmem : id ∈ s.inFlight) :
    let row' := if row.id == id then { row with attempts := row.attempts + 1 } else row
    row'.id = row.id ∧ row'.maxAttempts = row.maxAttempts ∧
      row'.attempts + ((s.inFlight.erase id).count row.id : ℤ) =
        row.attempts + s.inFlight.count row.id := by
  by_cases hid : row.id = id
  · have hpos : 0 < s.inFlight.count id := List.count_pos_iff.mpr hmem
    simp only [hid, beq_self_eq_true, if_true, List.count_erase_self, true_and]
    omega
  · simp [hid, List.count_erase_of_ne hid]

/-- An admitted call leaves room, so what is in flight can be recorded. -/
theorem step_room (hlimit : 0 ≤ cfg.otpMaxAttempts) (hc : Counted s) (hr : Room s)
    (hadm : Admits cfg s c) (h : step cfg s c = some s') : Room s' := by
  cases effect_of_step h with
  | same heq =>
    intro row' hrow'
    obtain ⟨row, hrow, hid, hmax, hattempts⟩ := mem_of_same heq hrow'
    rw [← hid, ← hmax, ← hattempts]
    exact hr row hrow
  | @issued _ _ db row heq hattempts hmax =>
    have hfresh := issued_fresh heq
    intro r hr'
    dsimp only at hr' ⊢
    rw [heq] at hr'
    rcases List.mem_append.mp hr' with hr' | hr'
    · exact hr r hr'
    · rw [List.mem_singleton.mp hr', hattempts, hmax, List.count_eq_zero.mpr]
      · simpa using hlimit
      · intro hmem
        obtain ⟨r', hr', hid⟩ := hc.rows _ (List.mem_append_left _ hmem)
        exact hfresh r' hr' hid
  | @guessed _ _ _ row hrow =>
    intro r hr'
    have hroom := hr r hr'
    by_cases hid : r.id = row.id
    · have hsame : r = row := (s.db.valid.holds .otpCodesPkey).eq_of_key_eq hr' (mismatch_mem hrow)
        (congrArg some hid) (by simp)
      have hlt := hadm row hrow
      simp only [hsame, List.count_cons_self]
      omega
    · simpa [List.count_cons_of_ne (Ne.symm hid)] using hroom
  | @reported id db hmem heq =>
    intro row' hrow'
    dsimp only at hrow' ⊢
    rw [heq] at hrow'
    obtain ⟨row, hrow, rfl⟩ := mem_updateWhere.mp hrow'
    obtain ⟨hid, hmax, hload⟩ := reported_load row hmem
    rw [hid, hmax, hload]
    exact hr row hrow

/-- A row whose recorded attempts and calls in flight exceed its limit. -/
def Overrun (s : State) : Prop :=
  ∃ row ∈ s.db.tables.otpCodes, row.maxAttempts < row.attempts + s.inFlight.count row.id

/-- Nothing takes a call in flight back. -/
theorem step_overrun (ho : Overrun s) (h : step cfg s c = some s') : Overrun s' := by
  obtain ⟨row, hrow, hlt⟩ := ho
  cases effect_of_step h with
  | same heq =>
    obtain ⟨row', hrow', hid, hmax, hattempts⟩ := mem_of_same heq.symm hrow
    refine ⟨row', hrow', ?_⟩
    rw [hid, hmax, hattempts]
    exact hlt
  | issued heq => exact ⟨row, heq ▸ List.mem_append_left _ hrow, hlt⟩
  | @guessed _ _ _ guessedRow =>
    refine ⟨row, hrow, ?_⟩
    have hle : s.inFlight.count row.id ≤ (guessedRow.id :: s.inFlight).count row.id :=
      List.count_le_count_cons
    dsimp only
    omega
  | @reported id db hmem heq =>
    obtain ⟨hid, hmax, hload⟩ := reported_load row hmem
    refine ⟨_, heq ▸ mem_updateWhere.mpr ⟨row, hrow, rfl⟩, ?_⟩
    rw [hid, hmax, hload]
    exact hlt

/-- A call that is not admitted overruns its row. -/
theorem overrun_of_not_admitted (hadm : ¬ Admits cfg s c) (h : step cfg s c = some s') :
    Overrun s' := by
  cases effect_of_step h with
  | same =>
    cases c with
    | guess rawPhone code now =>
      simp only [Admits, not_forall] at hadm
      obtain ⟨row, hrow, -⟩ := hadm
      simp only [step, Option.mem_def.mp hrow] at h
      have hlen := congrArg (fun t : Option State => t.map fun t => t.inFlight.length) h
      simp at hlen
    | _ => exact absurd trivial hadm
  | issued => exact absurd trivial hadm
  | reported => exact absurd trivial hadm
  | @guessed _ _ _ row hrow =>
    simp only [Admits, hrow, Option.mem_some_iff, forall_eq', not_lt] at hadm
    refine ⟨row, mismatch_mem hrow, ?_⟩
    simp only [List.count_cons_self]
    omega

theorem limited_of_room (hc : Counted s) (hr : Room s) : Limited s := by
  intro row hrow
  have hcount := hc.reported row hrow
  have hroom := hr row hrow
  constructor <;> omega

theorem not_overrun (hl : Limited s) (hidle : s.inFlight = []) : ¬ Overrun s := by
  rintro ⟨row, hrow, hlt⟩
  have hle := (hl row hrow).1
  simp only [hidle, List.count_nil] at hlt
  omega

end Invariants

/-- From a genesis state, no code is guessed at beyond its limit in any run whose guesses are
all admitted; and a run after which no call is in flight stays within the limits only if
they were. -/
theorem guesses_limited {w : World} (hw : Genesis w) (hlimit : 0 ≤ cfg.otpMaxAttempts)
    (calls : List Call) :
    (Each (step cfg) (Admits cfg) ⟨w.db, [], []⟩ calls →
      Always (step cfg) Limited ⟨w.db, [], []⟩ calls) ∧
    ∀ s, exec (step cfg) ⟨w.db, [], []⟩ calls = some s → s.inFlight = [] → Limited s →
      Each (step cfg) (Admits cfg) ⟨w.db, [], []⟩ calls := by
  have hnone : ∀ row, row ∉ w.db.tables.otpCodes := by simp [hw.otpCodes]
  have hstart : Counted ⟨w.db, [], []⟩ :=
    ⟨fun row hrow => absurd hrow (hnone row), by simp⟩
  constructor
  · intro hadm
    refine (hadm.always (I := fun s => Counted s ∧ Room s) ?_
      ⟨hstart, fun row hrow => absurd hrow (hnone row)⟩).mono fun s h => limited_of_room h.1 h.2
    intro s c s' hI hc h
    exact ⟨step_counted hI.1 h, step_room hlimit hI.1 hI.2 hc h⟩
  · intro s hexec hidle hl
    exact each_of_final (B := Overrun) (fun _ _ _ => step_overrun)
      (fun _ _ _ => overrun_of_not_admitted) hexec (not_overrun hl hidle)

/-- One code with a limit of five and, at the same time, `n` wrong guesses at it. -/
def guessRun (n : ℕ) : List Call :=
  .request { plainEnv 1 with external := none, otpCode := "123456" } "5551112233" ::
    (List.replicate n (.guess "5551112233" "000000" 2) ++ List.replicate n (.report 10))

/-- Five guesses at a time are within the limit. -/
theorem five_guesses_limited :
    Always (step plainConfig) Limited ⟨seedWorld.db, [], []⟩ (guessRun 5) :=
  (guesses_limited seedWorld_genesis (by decide) _).1 (by decide +kernel)

/-- Six calls read the row before the first of them writes; all of them compare and report. -/
theorem sixth_guess_not_limited :
    ¬ Always (step plainConfig) Limited ⟨seedWorld.db, [], []⟩ (guessRun 6) :=
  not_always_of_test (by decide +kernel)

end Tekir.OtpGuessing
