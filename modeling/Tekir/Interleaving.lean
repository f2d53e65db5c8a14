import Tekir.Machine
import Tekir.Programs
import Mathlib.Data.List.FinRange
import Mathlib.Logic.Function.Basic

/-!
# Interleaved calls

Up to `n` calls run against one database, one step of one call at a time. A statement
takes its snapshot first and completes later, when no other open transaction holds a
write that clashes with its own. Writes become visible at the commit. A statement or a
commit can be lost, and transactions outside the model commit in between. The history
and the log record every commit and every result.
-/
namespace Tekir.Interleaving
open Machine Programs

variable {B W Q ε O α : Type} {R : Q → Type} {n : ℕ}

theorem neZero_two : @NeZero ℕ Zero.ofOfNat0 2 :=
  ⟨Nat.succ_ne_zero 1⟩

/-- The two calls of a race are numerals. -/
scoped instance twoCalls : @NeZero ℕ Zero.ofOfNat0 2 :=
  neZero_two

/-- One call. Tickets are drawn in the order in which calls start. -/
structure Entry (W Q : Type) (R : Q → Type) (ε O : Type) where
  ticket : ℕ
  op : O
  loc : Local W Q R ε := {}

structure Call (B W Q : Type) (R : Q → Type) (ε O α : Type) extends Entry W Q R ε O where
  prog : Prog Q R ε α
  snapshot : Option B := none

structure Done (W Q : Type) (R : Q → Type) (ε O α : Type) extends Entry W Q R ε O where
  result : α

/-- A committed transaction; one outside the model has no author. -/
structure Commit (B W Q : Type) (R : Q → Type) (ε O : Type) where
  author : Option (ℕ × O)
  loc : Local W Q R ε := {}
  base : B
  next : B

def Commit.writes (c : Commit B W Q R ε O) : List W :=
  c.loc.writes

structure State (B W Q : Type) (R : Q → Type) (ε O α : Type) (n : ℕ) where
  base : B
  calls : Fin n → Option (Call B W Q R ε O α) := fun _ => none
  tickets : ℕ := 0
  history : List (Commit B W Q R ε O) := []
  log : List (Done W Q R ε O α) := []

inductive Action (B O : Type) (n : ℕ)
  | call (i : Fin n) (op : O)
  /-- The next part of the call. -/
  | run (i : Fin n)
  /-- The statement or the commit that comes next is lost. -/
  | fail (i : Fin n)
  | others (b : B)

/-- What the next part of a call comes to. -/
inductive Move (B W Q : Type) (R : Q → Type) (ε O α : Type)
  | goes (c : Call B W Q R ε O α)
  | commits (c : Call B W Q R ε O α) (b : B)
  | returns (a : α)

namespace Call

def began (c : Call B W Q R ε O α) (b : B) : Call B W Q R ε O α :=
  { c with snapshot := some b }

/-- The call after a statement got its answer. -/
def asked (E : Engine B W Q R ε) (c : Call B W Q R ε O α) (q : Q)
    (next : Except ε (R q) → Prog Q R ε α) (r : Except ε (R q)) (new : List W) :
    Call B W Q R ε O α :=
  { c with prog := next r, snapshot := none, loc := c.loc.ask E q r new }

def dropped (c : Call B W Q R ε O α) (next : Prog Q R ε α) : Call B W Q R ε O α :=
  { c with prog := next, snapshot := none, loc := c.loc.drop }

def published (c : Call B W Q R ε O α) (next : Prog Q R ε α) : Call B W Q R ε O α :=
  { c with prog := next, snapshot := none, loc := c.loc.publish }

/-- A statement that begins takes its snapshot; it completes when `free` grants its locks. -/
def run (E : Engine B W Q R ε) (free : List W → Bool) (base : B) (c : Call B W Q R ε O α) :
    Option (Move B W Q R ε O α) :=
  match c.prog with
  | .ret a => some (.returns a)
  | .rollback next => some (.goes (c.dropped next))
  | .commit next =>
    if c.loc.aborted then some (.goes (c.dropped (next false)))
    else (E.view c.loc.writes base).map fun b => .commits (c.published (next true)) b
  | .stmt q next =>
    if c.loc.aborted then some (.goes (c.asked E q next (.error E.lost) []))
    else (E.view c.loc.writes base).bind fun b =>
      match c.snapshot with
      | none => some (.goes (c.began b))
      | some b₀ =>
        if free (E.effect q b₀ b) then
          some (.goes (c.asked E q next (E.answer q b₀ b) (E.effect q b₀ b)))
        else none

def fail (E : Engine B W Q R ε) (c : Call B W Q R ε O α) : Option (Call B W Q R ε O α) :=
  match c.prog with
  | .ret _ | .rollback _ => none
  | .commit next => some (c.dropped (next false))
  | .stmt q next => some (c.asked E q next (.error E.lost) [])

end Call

namespace State

/-- No other open transaction holds a write that clashes with these. -/
def free (E : Engine B W Q R ε) (s : State B W Q R ε O α n) (i : Fin n) (ws : List W) : Bool :=
  (List.finRange n).all fun j => j == i ||
    (s.calls j).all fun c => c.loc.writes.all fun w => ws.all fun w' => !E.clash w w'

/-- The writes of all open transactions. -/
def held (s : State B W Q R ε O α n) : List W :=
  (List.finRange n).flatMap fun j => (s.calls j).elim [] fun c => c.loc.writes

/-- A call that starts now. -/
def first (s : State B W Q R ε O α n) (program : O → Prog Q R ε α) (op : O) :
    Call B W Q R ε O α :=
  { ticket := s.tickets, op, prog := program op }

def put (s : State B W Q R ε O α n) (i : Fin n) (c : Call B W Q R ε O α) :
    Move B W Q R ε O α → State B W Q R ε O α n
  | .goes c' => { s with calls := Function.update s.calls i (some c') }
  | .commits c' b =>
    { s with
      base := b, calls := Function.update s.calls i (some c')
      history := s.history ++
        [{ author := some (c.ticket, c.op), loc := c.loc, base := s.base, next := b }] }
  | .returns a =>
    { s with
      calls := Function.update s.calls i none
      log := s.log ++ [{ toEntry := c.toEntry, result := a }] }

end State

theorem free_iff {E : Engine B W Q R ε} {s : State B W Q R ε O α n} {i : Fin n} {ws : List W} :
    s.free E i ws = true ↔
      ∀ j, j ≠ i → ∀ c, s.calls j = some c → ∀ w ∈ c.loc.writes, ∀ w' ∈ ws,
        E.clash w w' = false := by
  simp only [State.free, List.all_eq_true, List.mem_finRange, forall_true_left, Bool.or_eq_true,
    beq_iff_eq, Option.all_eq_true, Bool.not_eq_true']
  refine forall_congr' fun j => ?_
  rw [or_iff_not_imp_left]

/-- A step that is not enabled waits. -/
def step (E : Engine B W Q R ε) (program : O → Prog Q R ε α) (s : State B W Q R ε O α n) :
    Action B O n → Option (State B W Q R ε O α n)
  | .call i op =>
    match s.calls i with
    | some _ => none
    | none =>
      some { s with
        calls := Function.update s.calls i (some (s.first program op)), tickets := s.tickets + 1 }
  | .run i => (s.calls i).bind fun c => (c.run E (s.free E i) s.base).map (s.put i c)
  | .fail i =>
    if E.fails then (s.calls i).bind fun c => (c.fail E).map fun c' => s.put i c (.goes c') else none
  | .others b =>
    if E.foreign s.held s.base b then
      some { s with base := b, history := s.history ++ [{ author := none, base := s.base, next := b }] }
    else none

/-- Nothing is running and nothing has been recorded. -/
structure Idle (s : State B W Q R ε O α n) : Prop where
  calls : ∀ i, s.calls i = none
  tickets : s.tickets = 0
  history : s.history = []
  log : s.log = []

variable {E : Engine B W Q R ε} {program : O → Prog Q R ε α}
  {s s' : State B W Q R ε O α n} {a : Action B O n}

/-- What one action does, case by case. -/
inductive Step (E : Engine B W Q R ε) (program : O → Prog Q R ε α)
    (s : State B W Q R ε O α n) : Action B O n → State B W Q R ε O α n → Prop
  | called (i : Fin n) (op : O) (idle : s.calls i = none) :
      Step E program s (.call i op)
        { s with
          calls := Function.update s.calls i (some (s.first program op))
          tickets := s.tickets + 1 }
  | returned (i : Fin n) (c : Call B W Q R ε O α) (a : α) (hc : s.calls i = some c)
      (hprog : c.prog = .ret a) : Step E program s (.run i) (s.put i c (.returns a))
  /-- A rollback, or a commit that does not take place. -/
  | dropped (i : Fin n) (c : Call B W Q R ε O α) (next : Prog Q R ε α)
      (hc : s.calls i = some c)
      (hprog : c.prog = .rollback next ∨ ∃ k, c.prog = .commit k ∧ next = k false ∧
        (E.fails = true ∨ c.loc.aborted = true))
      {a : Action B O n} (ha : a = .run i ∨ a = .fail i) :
      Step E program s a (s.put i c (.goes (c.dropped next)))
  | committed (i : Fin n) (c : Call B W Q R ε O α) (k : Bool → Prog Q R ε α) (b : B)
      (hc : s.calls i = some c) (hprog : c.prog = .commit k) (hlive : c.loc.aborted = false)
      (hview : E.view c.loc.writes s.base = some b) :
      Step E program s (.run i) (s.put i c (.commits (c.published (k true)) b))
  | began (i : Fin n) (c : Call B W Q R ε O α) (q : Q) (k : Except ε (R q) → Prog Q R ε α)
      (b : B) (hc : s.calls i = some c) (hprog : c.prog = .stmt q k)
      (hlive : c.loc.aborted = false) (hsnapshot : c.snapshot = none)
      (hview : E.view c.loc.writes s.base = some b) :
      Step E program s (.run i) (s.put i c (.goes (c.began b)))
  | answered (i : Fin n) (c : Call B W Q R ε O α) (q : Q) (k : Except ε (R q) → Prog Q R ε α)
      (b₀ b : B) (hc : s.calls i = some c) (hprog : c.prog = .stmt q k)
      (hlive : c.loc.aborted = false) (hsnapshot : c.snapshot = some b₀)
      (hview : E.view c.loc.writes s.base = some b) (hfree : s.free E i (E.effect q b₀ b) = true) :
      Step E program s (.run i)
        (s.put i c (.goes (c.asked E q k (E.answer q b₀ b) (E.effect q b₀ b))))
  /-- A statement that is lost, or asked in an aborted transaction. -/
  | lost (i : Fin n) (c : Call B W Q R ε O α) (q : Q) (k : Except ε (R q) → Prog Q R ε α)
      (hc : s.calls i = some c) (hprog : c.prog = .stmt q k)
      (hlost : E.fails = true ∨ c.loc.aborted = true)
      {a : Action B O n} (ha : a = .run i ∨ a = .fail i) :
      Step E program s a (s.put i c (.goes (c.asked E q k (.error E.lost) [])))
  | others (b : B) (hforeign : E.foreign s.held s.base b = true) :
      Step E program s (.others b)
        { s with
          base := b
          history := s.history ++ [{ author := none, base := s.base, next := b }] }

theorem step_fail_cases {i : Fin n} (h : step E program s (.fail i) = some s') :
    Step E program s (.fail i) s' := by
  obtain ⟨hfails, h⟩ := Option.ite_none_right_eq_some.mp h
  obtain ⟨c, hc, hs'⟩ := Option.bind_eq_some_iff.mp h
  obtain ⟨c', hc', rfl⟩ := Option.map_eq_some_iff.mp hs'
  unfold Call.fail at hc'
  cases hprog : c.prog with
  | ret a => simp [hprog] at hc'
  | rollback next => simp [hprog] at hc'
  | commit next =>
    obtain rfl : c.dropped (next false) = c' := by simpa [hprog] using hc'
    exact .dropped i c _ hc (.inr ⟨next, hprog, rfl, .inl hfails⟩) (.inr rfl)
  | stmt q next =>
    obtain rfl : c.asked E q next (.error E.lost) [] = c' := by simpa [hprog] using hc'
    exact .lost i c q next hc hprog (.inl hfails) (.inr rfl)

theorem step_run_cases {i : Fin n} (h : step E program s (.run i) = some s') :
    Step E program s (.run i) s' := by
  obtain ⟨c, hc, hs'⟩ := Option.bind_eq_some_iff.mp h
  obtain ⟨m, hm, rfl⟩ := Option.map_eq_some_iff.mp hs'
  unfold Call.run at hm
  cases hprog : c.prog with
  | ret a =>
    obtain rfl : .returns a = m := by simpa [hprog] using hm
    exact .returned i c a hc hprog
  | rollback next =>
    obtain rfl : .goes (c.dropped next) = m := by simpa [hprog] using hm
    exact .dropped i c next hc (.inl hprog) (.inl rfl)
  | commit next =>
    cases hlive : c.loc.aborted with
    | true =>
      obtain rfl : .goes (c.dropped (next false)) = m := by simpa [hprog, hlive] using hm
      exact .dropped i c _ hc (.inr ⟨next, hprog, rfl, .inr hlive⟩) (.inl rfl)
    | false =>
      simp only [hprog, hlive, Bool.false_eq_true, if_false] at hm
      obtain ⟨b, hb, rfl⟩ := Option.map_eq_some_iff.mp hm
      exact .committed i c next b hc hprog hlive hb
  | stmt q next =>
    cases hlive : c.loc.aborted with
    | true =>
      obtain rfl : .goes (c.asked E q next (.error E.lost) []) = m := by
        simpa [hprog, hlive] using hm
      exact .lost i c q next hc hprog (.inr hlive) (.inl rfl)
    | false =>
      simp only [hprog, hlive, Bool.false_eq_true, if_false] at hm
      obtain ⟨b, hb, hm⟩ := Option.bind_eq_some_iff.mp hm
      cases hsnapshot : c.snapshot with
      | none =>
        obtain rfl : .goes (c.began b) = m := by simpa [hsnapshot] using hm
        exact .began i c q next b hc hprog hlive hsnapshot hb
      | some b₀ =>
        simp only [hsnapshot] at hm
        split at hm
        · rename_i hfree
          obtain rfl := Option.some.inj hm
          exact .answered i c q next b₀ b hc hprog hlive hsnapshot hb hfree
        · cases hm

theorem step_cases (h : step E program s a = some s') : Step E program s a s' := by
  cases a with
  | call i op =>
    simp only [step] at h
    cases hc : s.calls i with
    | some c => simp [hc] at h
    | none =>
      simp only [hc, Option.some.injEq] at h
      exact h ▸ .called i op hc
  | run i => exact step_run_cases h
  | fail i => exact step_fail_cases h
  | others b =>
    simp only [step] at h
    split at h
    · rename_i hforeign
      exact Option.some.inj h ▸ .others b hforeign
    · cases h

/-- What a statement that completes comes to. -/
theorem put_of_answered {i : Fin n} {c : Call B W Q R ε O α} {q : Q} {k : Except ε (R q) → Prog Q R ε α}
    {b₀ b : B} (hc : s.calls i = some c) (hprog : c.prog = .stmt q k) (hlive : c.loc.aborted = false)
    (hsnapshot : c.snapshot = some b₀) (hview : E.view c.loc.writes s.base = some b)
    (h : step E program s (.run i) = some s') :
    s' = s.put i c (.goes (c.asked E q k (E.answer q b₀ b) (E.effect q b₀ b))) := by
  obtain ⟨c', hc', hs'⟩ := Option.bind_eq_some_iff.mp h
  obtain rfl : c = c' := Option.some.inj (hc.symm.trans hc')
  obtain ⟨m, hm, rfl⟩ := Option.map_eq_some_iff.mp hs'
  simp only [Call.run, hprog, hlive, Bool.false_eq_true, if_false, hview, Option.bind_some,
    hsnapshot] at hm
  split at hm
  · cases hm
    rfl
  · cases hm

section Alone

/-- Call `i` is the only open one, and stands at `p`. -/
structure Lone (s : State B W Q R ε O α n) (i : Fin n) (c : Call B W Q R ε O α)
    (p : Prog Q R ε α) (l : Local W Q R ε) (b : B) : Prop where
  call : s.calls i = some c
  prog : c.prog = p
  loc : c.loc = l
  snapshot : c.snapshot = none
  base : s.base = b
  others : ∀ j, j ≠ i → s.calls j = none

variable {i : Fin n} {c : Call B W Q R ε O α} {p : Prog Q R ε α} {l l' : Local W Q R ε}
  {b b' : B} {r : α}

theorem Lone.goes (h : Lone s i c p l b) (c' : Call B W Q R ε O α) (hc' : c'.snapshot = none) :
    Lone (s.put i c (.goes c')) i c' c'.prog c'.loc b := by
  refine ⟨by simp [State.put], rfl, rfl, hc', h.base, fun j hj => ?_⟩
  simp [State.put, Function.update_of_ne hj, h.others j hj]

theorem Lone.commits (h : Lone s i c p l b) (c' : Call B W Q R ε O α) (hc' : c'.snapshot = none) :
    Lone (s.put i c (.commits c' b')) i c' c'.prog c'.loc b' := by
  refine ⟨by simp [State.put], rfl, rfl, hc', rfl, fun j hj => ?_⟩
  simp [State.put, Function.update_of_ne hj, h.others j hj]

theorem Lone.free (h : Lone s i c p l b) {c' : Call B W Q R ε O α} (ws : List W) :
    (s.put i c (.goes c')).free E i ws = true := by
  refine free_iff.mpr fun j hj d hd => ?_
  simp [State.put, Function.update_of_ne hj, h.others j hj] at hd

end Alone

end Tekir.Interleaving
