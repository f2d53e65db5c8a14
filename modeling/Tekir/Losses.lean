import Tekir.Interleaving

/-!
# Calls some of whose statements are lost

A call that has the database to itself, of which a given choice of statements and commits
is lost. A call that gives up at every loss before its commit, and only reads afterwards,
leaves a change behind and fails in one case only: the loss is that of its last statement.
-/
namespace Tekir.Losses
open Machine Programs Interleaving

variable {B W Q ε O α β : Type} {R : Q → Type} {n : ℕ}

/-- The losses of what is left of a call after its first statement or commit. -/
def later (lost : ℕ → Bool) : ℕ → Bool :=
  fun k => lost (k + 1)

/-- The first loss is that of the last of `m` statements and commits. -/
def LosesLast (lost : ℕ → Bool) (m : ℕ) : Prop :=
  ∃ k, m = k + 1 ∧ lost k = true ∧ ∀ i < k, lost i = false

variable {lost : ℕ → Bool}

@[simp] theorem not_losesLast_zero : ¬ LosesLast lost 0 := by
  rintro ⟨k, hk, -⟩
  omega

theorem losesLast_one : LosesLast lost 1 ↔ lost 0 = true := by
  constructor
  · rintro ⟨k, hk, hlost, -⟩
    obtain rfl : k = 0 := by omega
    exact hlost
  · exact fun h => ⟨0, rfl, h, fun i hi => by omega⟩

theorem losesLast_succ {m : ℕ} (hm : m ≠ 0) :
    LosesLast lost (m + 1) ↔ lost 0 = false ∧ LosesLast (later lost) m := by
  constructor
  · rintro ⟨k, hk, hlost, hbefore⟩
    obtain ⟨k, rfl⟩ : ∃ k', k = k' + 1 := ⟨k - 1, by omega⟩
    exact ⟨hbefore 0 (by omega), k, by omega, hlost, fun i hi => hbefore (i + 1) (by omega)⟩
  · rintro ⟨hfirst, k, rfl, hlost, hbefore⟩
    refine ⟨k + 1, rfl, hlost, fun i hi => ?_⟩
    cases i with
    | zero => exact hfirst
    | succ i => exact hbefore i (by omega)

section Runs

variable (E : Engine B W Q R ε)

/-- `lost k` says whether the `k`-th statement or commit is lost. -/
def lossy : Prog Q R ε α → (ℕ → Bool) → Local W Q R ε → B → Option (α × Local W Q R ε × B)
  | .ret a, _, l, b => some (a, l, b)
  | .rollback next, lost, l, b => lossy next lost l.drop b
  | .commit next, lost, l, b =>
    if lost 0 || l.aborted then lossy (next false) (later lost) l.drop b
    else (E.view l.writes b).bind fun b' => lossy (next true) (later lost) l.publish b'
  | .stmt q next, lost, l, b =>
    if lost 0 || l.aborted then
      lossy (next (.error E.lost)) (later lost) (l.ask E q (.error E.lost) []) b
    else (E.view l.writes b).bind fun v =>
      lossy (next (E.answer q v v)) (later lost) (l.ask E q (E.answer q v v) (E.effect q v v)) b

/-- How many statements and commits the call comes to if none is lost. -/
def asked : Prog Q R ε α → Local W Q R ε → B → ℕ
  | .ret _, _, _ => 0
  | .rollback next, l, b => asked next l.drop b
  | .commit next, l, b =>
    (if l.aborted then asked (next false) l.drop b
      else (E.view l.writes b).elim 0 fun b' => asked (next true) l.publish b') + 1
  | .stmt q next, l, b =>
    (if l.aborted then asked (next (.error E.lost)) (l.ask E q (.error E.lost) []) b
      else (E.view l.writes b).elim 0 fun v =>
        asked (next (E.answer q v v)) (l.ask E q (E.answer q v v) (E.effect q v v)) b) + 1

variable {E} {p : Prog Q R ε α} {l l' : Local W Q R ε} {b b' : B} {a : α}

/-- With nothing lost the call does what it does alone. -/
theorem lossy_none : lossy E p (fun _ => false) l b = p.alone E l b := by
  induction p generalizing l b with
  | ret a => rfl
  | rollback next ih => exact ih
  | commit next ih =>
    simp only [lossy, Prog.alone, Bool.false_or]
    split
    · exact ih false
    · exact congrArg _ (funext fun b' => ih true)
  | stmt q next ih =>
    simp only [lossy, Prog.alone, Bool.false_or]
    split
    · exact ih _
    · exact congrArg _ (funext fun v => ih _)

/-- A call whose statements keep its view there always returns. -/
theorem exists_lossy (hlive : ∀ ws b v q, E.view ws b = some v →
    ∃ v', E.view (ws ++ E.effect q v v) b = some v') {v : B} (hview : E.view l.writes b = some v) :
    ∃ x, lossy E p lost l b = some x := by
  induction p generalizing lost l b v with
  | ret a => exact ⟨_, rfl⟩
  | rollback next ih => exact ih (E.view_nil b)
  | commit next ih =>
    simp only [lossy, hview, Option.bind_some]
    split
    · exact ih false (E.view_nil b)
    · exact ih true (E.view_nil v)
  | stmt q next ih =>
    simp only [lossy, hview, Option.bind_some]
    split
    · exact ih _ (by simpa using hview)
    · obtain ⟨v', hv'⟩ := hlive _ _ _ q hview
      exact ih _ hv'

end Runs

section Shapes

/-- Nothing is committed, whatever the statements answer. -/
def Silent : Prog Q R ε α → Prop
  | .ret _ => True
  | .rollback next => Silent next
  | .commit _ => False
  | .stmt _ next => ∀ r, Silent (next r)

/-- Nothing is asked any more. -/
def Returns (ends : α → Prop) : Prog Q R ε α → Prop
  | .ret a => ends a
  | .rollback next => Returns ends next
  | .commit _ | .stmt _ _ => False

variable {E : Engine B W Q R ε} {p : Prog Q R ε α} {f : α → Prog Q R ε β}
  {l l' : Local W Q R ε} {b b' : B} {a : α}

theorem silent_bind (hp : Silent p) (hf : ∀ a, Silent (f a)) : Silent (p.bind f) := by
  induction p with
  | ret a => exact hf a
  | rollback next ih => exact ih hp
  | commit next ih => exact hp.elim
  | stmt q next ih => exact fun r => ih r (hp r)

theorem silent_andThen {p : Prog Q R ε (Except ε α)} {f : α → Prog Q R ε (Except ε β)}
    (hp : Silent p) (hf : ∀ a, Silent (f a)) : Silent (p.andThen f) := by
  refine silent_bind hp fun r => ?_
  cases r with
  | ok a => exact hf a
  | error e => trivial

theorem silent_read {q : Q} : Silent (Prog.read q : Prog Q R ε (Except ε (R q))) :=
  fun _ => trivial

/-- A silent call changes nothing. -/
theorem Silent.base_eq (hp : Silent p) (h : lossy E p lost l b = some (a, l', b')) : b' = b := by
  induction p generalizing lost l with
  | ret a =>
    cases h
    rfl
  | rollback next ih => exact ih hp h
  | commit next ih => exact hp.elim
  | stmt q next ih =>
    simp only [lossy] at h
    split at h
    · exact ih _ (hp _) h
    · obtain ⟨v, -, h⟩ := Option.bind_eq_some_iff.mp h
      exact ih _ (hp _) h

theorem Returns.lossy_eq (E : Engine B W Q R ε) (lost : ℕ → Bool) {ends : α → Prop}
    (hp : Returns ends p) : ∃ a l', ends a ∧ lossy E p lost l b = some (a, l', b) := by
  induction p generalizing l with
  | ret a => exact ⟨a, l, hp, rfl⟩
  | rollback next ih => exact ih hp
  | commit next ih => exact hp.elim
  | stmt q next ih => exact hp.elim

theorem Returns.asked_eq {ends : α → Prop} (hp : Returns ends p) : asked E p l b = 0 := by
  induction p generalizing l with
  | ret a => rfl
  | rollback next ih => exact ih hp
  | commit next ih => exact hp.elim
  | stmt q next ih => exact hp.elim

end Shapes

section Once

variable {E : Engine B W Q R ε} {b b' : B}

def isError : Except ε α → Prop
  | .error _ => True
  | .ok _ => False

def isOk : Except ε α → Prop
  | .error _ => False
  | .ok _ => True

/-- Before its commit the call gives up at every loss. After it, it asks for one thing more,
which is there, and returns. -/
def CommitsOnce (E : Engine B W Q R ε) (b : B) :
    Prog Q R ε (Except ε α) → Local W Q R ε → Prop
  | .ret _, _ => True
  | .rollback next, l => CommitsOnce E b next l.drop
  | .commit next, l =>
    Silent (next false) ∧ ∀ b', E.view l.writes b = some b' → ∃ q k, next true = .stmt q k ∧
      Returns isError (k (.error E.lost)) ∧ ∃ a, E.answer q b' b' = .ok a ∧ Returns isOk (k (.ok a))
  | .stmt q next, l =>
    Silent (next (.error E.lost)) ∧ ∀ v, E.view l.writes b = some v →
      CommitsOnce E b (next (E.answer q v v)) (l.ask E q (E.answer q v v) (E.effect q v v))

/-- What holds where a part of a call ends, before any commit; whoever loses a statement
reports that. -/
def Leads (E : Engine B W Q R ε) (b : B) (post : Local W Q R ε → Except ε α → Prop) :
    Prog Q R ε (Except ε α) → Local W Q R ε → Prop
  | .ret r, l => post l r
  | .rollback next, l => Leads E b post next l.drop
  | .commit _, _ => False
  | .stmt q next, l =>
    Returns (· = .error E.lost) (next (.error E.lost)) ∧ ∀ v, E.view l.writes b = some v →
      Leads E b post (next (E.answer q v v)) (l.ask E q (E.answer q v v) (E.effect q v v))

variable {p : Prog Q R ε (Except ε α)} {l : Local W Q R ε}

section Parts

variable {post : Local W Q R ε → Except ε α → Prop} {q : Q}

theorem Returns.silent_bind {ends : α → Prop} {p : Prog Q R ε α} {f : α → Prog Q R ε β}
    (hp : Returns ends p) (hf : ∀ a, ends a → Silent (f a)) : Silent (p.bind f) := by
  induction p with
  | ret a => exact hf a hp
  | rollback next ih => exact ih hp
  | commit next ih => exact hp.elim
  | stmt q next ih => exact hp.elim

theorem Returns.bind {ends : α → Prop} {ends' : β → Prop} {p : Prog Q R ε α}
    {f : α → Prog Q R ε β} (hp : Returns ends p) (hf : ∀ a, ends a → Returns ends' (f a)) :
    Returns ends' (p.bind f) := by
  induction p with
  | ret a => exact hf a hp
  | rollback next ih => exact ih hp
  | commit next ih => exact hp.elim
  | stmt q next ih => exact hp.elim

theorem leads_query {post : Local W Q R ε → Except ε (R q) → Prop}
    (h : ∀ v, E.view l.writes b = some v →
      post (l.ask E q (E.answer q v v) (E.effect q v v)) (E.answer q v v)) :
    Leads E b post (Prog.query q) l :=
  ⟨rfl, h⟩

theorem leads_read {post : Local W Q R ε → Except ε (R q) → Prop} (hl : l.writes = [])
    (h : post (l.ask E q (E.answer q b b) (E.effect q b b)).drop (E.answer q b b)) :
    Leads E b post (Prog.read q) l := by
  refine ⟨rfl, fun v hv => ?_⟩
  rw [hl, E.view_nil] at hv
  cases hv
  exact h

/-- A part of a call and what comes after it. -/
theorem Leads.commitsOnce {f : Except ε α → Prog Q R ε (Except ε β)} (hp : Leads E b post p l)
    (hlost : Silent (f (.error E.lost))) (hf : ∀ l r, post l r → CommitsOnce E b (f r) l) :
    CommitsOnce E b (p.bind f) l := by
  induction p generalizing l with
  | ret r => exact hf l r hp
  | rollback next ih => exact ih hp
  | commit next ih => exact hp.elim
  | stmt q next ih =>
    refine ⟨hp.1.silent_bind fun r hr => ?_, fun v hv => ih _ (hp.2 v hv)⟩
    rw [hr]
    exact hlost

theorem Leads.bind {f : Except ε α → Prog Q R ε (Except ε β)}
    {post' : Local W Q R ε → Except ε β → Prop} (hp : Leads E b post p l)
    (hlost : Returns (· = .error E.lost) (f (.error E.lost)))
    (hf : ∀ l r, post l r → Leads E b post' (f r) l) : Leads E b post' (p.bind f) l := by
  induction p generalizing l with
  | ret r => exact hf l r hp
  | rollback next ih => exact ih hp
  | commit next ih => exact hp.elim
  | stmt q next ih =>
    refine ⟨hp.1.bind fun r hr => ?_, fun v hv => ih _ (hp.2 v hv)⟩
    rw [hr]
    exact hlost

theorem Leads.andThen {f : α → Prog Q R ε (Except ε β)} {post' : Local W Q R ε → Except ε β → Prop}
    (hp : Leads E b post p l) (hok : ∀ l a, post l (.ok a) → Leads E b post' (f a) l)
    (herror : ∀ l e, post l (.error e) → post' l (.error e)) :
    Leads E b post' (p.andThen f) l := by
  refine hp.bind rfl fun l r hr => ?_
  cases r with
  | ok a => exact hok l a hr
  | error e => exact herror l e hr

theorem Leads.mono {post' : Local W Q R ε → Except ε α → Prop} (hp : Leads E b post p l)
    (h : ∀ l r, post l r → post' l r) : Leads E b post' p l := by
  induction p generalizing l with
  | ret r => exact h l r hp
  | rollback next ih => exact ih hp
  | commit next ih => exact hp.elim
  | stmt q next ih => exact ⟨hp.1, fun v hv => ih _ (hp.2 v hv)⟩

end Parts

theorem Silent.commitsOnce (hp : Silent p) : CommitsOnce E b p l := by
  induction p generalizing l with
  | ret a => trivial
  | rollback next ih => exact ih hp
  | commit next ih => exact hp.elim
  | stmt q next ih => exact ⟨hp _, fun v _ => ih _ (hp _)⟩

theorem Leads.commitsOnce_andThen {post : Local W Q R ε → Except ε α → Prop}
    {f : α → Prog Q R ε (Except ε β)} (hp : Leads E b post p l)
    (hf : ∀ l a, post l (.ok a) → CommitsOnce E b (f a) l) : CommitsOnce E b (p.andThen f) l := by
  refine hp.commitsOnce trivial fun l r hr => ?_
  cases r with
  | ok a => exact hf l a hr
  | error e => trivial

/-- A transaction and what its result leads to. -/
theorem Leads.commitsOnce_transaction {post : Local W Q R ε → Except ε α → Prop} {lost' : ε}
    {f : Except ε α → Prog Q R ε (Except ε β)} (hp : Leads E b post p l)
    (herror : ∀ e, Silent (f (.error e)))
    (hcommit : ∀ l a b', post l (.ok a) → E.view l.writes b = some b' →
      ∃ q k, f (.ok a) = .stmt q k ∧ Returns isError (k (.error E.lost)) ∧
        ∃ x, E.answer q b' b' = .ok x ∧ Returns isOk (k (.ok x))) :
    CommitsOnce E b ((Prog.transaction lost' p).bind f) l := by
  rw [Prog.transaction, Prog.bind_assoc]
  refine hp.commitsOnce (herror _) fun l r hr => ?_
  cases r with
  | ok a => exact ⟨herror lost', fun b' hview => hcommit l a b' hr hview⟩
  | error e => exact (show Silent (.rollback (f (.error e))) from herror e).commitsOnce

/-- The call fails, and yet `changed` says that it has left something behind. -/
def FailsChanged (E : Engine B W Q R ε) (changed : B → Prop) (p : Prog Q R ε (Except ε α))
    (lost : ℕ → Bool) (l : Local W Q R ε) (b : B) : Prop :=
  ∃ e l' b', lossy E p lost l b = some (.error e, l', b') ∧ changed b'

/-- With nothing lost, the call leaves something behind. -/
def Changes (E : Engine B W Q R ε) (changed : B → Prop) (p : Prog Q R ε (Except ε α))
    (l : Local W Q R ε) (b : B) : Prop :=
  ∃ r l' b', p.alone E l b = some (r, l', b') ∧ changed b'

variable {changed : B → Prop}

theorem Silent.not_failsChanged (hp : Silent p) (hb : ¬ changed b) :
    ¬ FailsChanged E changed p lost l b := by
  rintro ⟨e, l', b', h, hchanged⟩
  exact hb (hp.base_eq h ▸ hchanged)

theorem Silent.not_changes (hp : Silent p) (hb : ¬ changed b) : ¬ Changes E changed p l b := by
  rintro ⟨r, l', b', h, hchanged⟩
  rw [← lossy_none] at h
  exact hb (hp.base_eq h ▸ hchanged)

/-- A call that asks nothing changes nothing. -/
theorem not_changes_of_asked (h : asked E p l b = 0) (hb : ¬ changed b) :
    ¬ Changes E changed p l b := by
  induction p generalizing l with
  | ret a =>
    rintro ⟨r, l', b', hrun, hchanged⟩
    cases hrun
    exact hb hchanged
  | rollback next ih => exact ih h
  | commit next ih => exact absurd h (Nat.succ_ne_zero _)
  | stmt q next ih => exact absurd h (Nat.succ_ne_zero _)

/-- The call fails and leaves something behind precisely if it does so with nothing lost and
loses its last statement only. -/
theorem CommitsOnce.failsChanged_iff (h : CommitsOnce E b p l) (hb : ¬ changed b) :
    FailsChanged E changed p lost l b ↔
      Changes E changed p l b ∧ LosesLast lost (asked E p l b) := by
  induction p generalizing lost l with
  | ret a =>
    have hsilent : Silent (.ret a : Prog Q R ε (Except ε α)) := trivial
    exact iff_of_false (hsilent.not_failsChanged hb) fun hc => hsilent.not_changes hb hc.1
  | rollback next ih => exact ih h
  | stmt q next ih =>
    obtain ⟨hsilent, hnext⟩ := h
    simp only [FailsChanged, Changes, lossy, Prog.alone, asked]
    by_cases haborted : l.aborted = true
    · simp only [haborted, Bool.or_true, if_true]
      refine iff_of_false (hsilent.not_failsChanged hb) fun hc => ?_
      exact hsilent.not_changes hb hc.1
    · simp only [haborted, Bool.or_false, Bool.false_eq_true, if_false]
      cases hview : E.view l.writes b with
      | none =>
        simp only [Option.bind_none, reduceCtorEq, false_and, exists_false, iff_false]
        split
        · exact hsilent.not_failsChanged hb
        · simp
      | some v =>
        simp only [Option.bind_some, Option.elim_some]
        have hrest : FailsChanged E changed (next (E.answer q v v)) (later lost) _ b ↔ _ :=
          ih _ (hnext v hview)
        by_cases hasked : asked E (next (E.answer q v v))
            (l.ask E q (E.answer q v v) (E.effect q v v)) b = 0
        · have hsame : ¬ Changes E changed _ _ b := not_changes_of_asked hasked hb
          refine iff_of_false ?_ fun hc => hsame hc.1
          split
          · exact hsilent.not_failsChanged hb
          · exact fun hf => hsame (hrest.mp hf).1
        · rw [losesLast_succ hasked]
          cases hlost : lost 0 with
          | true =>
            simp only [if_true, reduceCtorEq, false_and, and_false, iff_false]
            exact hsilent.not_failsChanged hb
          | false =>
            simp only [Bool.false_eq_true, if_false, true_and]
            exact hrest
  | commit next ih =>
    obtain ⟨hsilent, hnext⟩ := h
    simp only [FailsChanged, Changes, lossy, Prog.alone, asked]
    by_cases haborted : l.aborted = true
    · simp only [haborted, Bool.or_true, if_true]
      refine iff_of_false (hsilent.not_failsChanged hb) fun hc => ?_
      exact hsilent.not_changes hb hc.1
    · simp only [haborted, Bool.or_false, Bool.false_eq_true, if_false]
      cases hview : E.view l.writes b with
      | none =>
        simp only [Option.bind_none, reduceCtorEq, false_and, exists_false, iff_false]
        split
        · exact hsilent.not_failsChanged hb
        · simp
      | some b' =>
        obtain ⟨q, k, hstmt, hfails, a, ha, hworks⟩ := hnext b' hview
        simp only [Option.bind_some, Option.elim_some, hstmt, lossy, Prog.alone, asked,
          Local.publish_aborted, Local.publish_writes, E.view_nil, Bool.or_false, ha,
          Bool.false_eq_true, if_false, hworks.asked_eq]
        rw [losesLast_succ (by simp), losesLast_one]
        -- the statement after the commit is lost, or it is answered and the call works
        cases hlost : lost 0 with
        | true =>
          simp only [if_true, reduceCtorEq, false_and, and_false, iff_false]
          exact hsilent.not_failsChanged hb
        | false =>
          simp only [Bool.false_eq_true, if_false, true_and]
          obtain ⟨r, l₁, hr, halone⟩ := hworks.lossy_eq E (fun _ => false)
            (l := l.publish.ask E q (.ok a) (E.effect q b' b')) (b := b')
          rw [lossy_none] at halone
          simp only [halone, Option.some.injEq, Prod.mk.injEq]
          cases hlast : later lost 0 with
          | true =>
            simp only [if_true, and_true]
            obtain ⟨r', l₂, hr', hrun⟩ := hfails.lossy_eq E (later (later lost))
              (l := l.publish.ask E q (.error E.lost) []) (b := b')
            cases r' with
            | ok a' => exact hr'.elim
            | error e =>
              rw [hrun]
              simp
          | false =>
            simp only [Bool.false_eq_true, if_false, and_false, iff_false]
            obtain ⟨r', l₂, hr', hrun⟩ := hworks.lossy_eq E (later (later lost))
              (l := l.publish.ask E q (.ok a) (E.effect q b' b')) (b := b')
            cases r' with
            | ok a' =>
              rw [hrun]
              simp
            | error e => exact hr'.elim

end Once

section Alone

variable {O : Type} {E : Engine B W Q R ε} {program : O → Prog Q R ε α}
  {s : State B W Q R ε O α n} {i : Fin n} {c : Call B W Q R ε O α} {p : Prog Q R ε α}
  {l l' : Local W Q R ε} {b b' : B} {r : α}

/-- A call that runs while no other one is open, with some of its statements lost. -/
theorem exists_exec_lossy (program : O → Prog Q R ε α) (hfails : E.fails = true) (h : Lone s i c p l b)
    (hrun : lossy E p lost l b = some (r, l', b')) :
    ∃ as s', exec (step E program) s as = some s' ∧ s'.base = b' ∧ (∀ j, s'.calls j = none) ∧
      s'.log = s.log ++ [{ c with loc := l', result := r }] := by
  induction p generalizing lost s c l b with
  | ret a =>
    cases hrun
    refine ⟨[.run i], s.put i c (.returns r), ?_, h.base, fun j => ?_, ?_⟩
    · simp [step, h.call, Call.run, h.prog]
    · by_cases hj : j = i
      · simp [State.put, hj]
      · simp [State.put, Function.update_of_ne hj, h.others j hj]
    · simp [State.put, ← h.loc]
  | rollback next ih =>
    have hstep : step E program s (.run i) = some (s.put i c (.goes (c.dropped next))) := by
      simp [step, h.call, Call.run, h.prog]
    obtain ⟨as, s', has, hrest⟩ := ih (h.goes (c.dropped next) rfl)
      (by simpa [lossy, Call.dropped, h.loc] using hrun)
    exact ⟨.run i :: as, s', by simp [hstep, has], hrest⟩
  | commit next ih =>
    simp only [lossy] at hrun
    split at hrun
    · have hstep : step E program s (.fail i) =
          some (s.put i c (.goes (c.dropped (next false)))) := by
        simp [step, hfails, h.call, Call.fail, h.prog]
      obtain ⟨as, s', has, hrest⟩ := ih false (h.goes (c.dropped (next false)) rfl)
        (by simpa [Call.dropped, h.loc] using hrun)
      exact ⟨.fail i :: as, s', by simp [hstep, has], hrest⟩
    · rename_i hlive
      simp only [Bool.or_eq_true, not_or, Bool.not_eq_true] at hlive
      obtain ⟨b₁, hb₁, hrun⟩ := Option.bind_eq_some_iff.mp hrun
      have hstep : step E program s (.run i) =
          some (s.put i c (.commits (c.published (next true)) b₁)) := by
        simp [step, h.call, Call.run, h.prog, h.loc, hlive.2, h.base, hb₁]
      obtain ⟨as, s', has, hrest⟩ := ih true (h.commits (c.published (next true)) rfl)
        (by simpa [Call.published, h.loc] using hrun)
      exact ⟨.run i :: as, s', by simp [hstep, has], hrest⟩
  | stmt q next ih =>
    simp only [lossy] at hrun
    split at hrun
    · have hstep : step E program s (.fail i) =
          some (s.put i c (.goes (c.asked E q next (.error E.lost) []))) := by
        simp [step, hfails, h.call, Call.fail, h.prog]
      obtain ⟨as, s', has, hrest⟩ := ih _ (h.goes (c.asked E q next (.error E.lost) []) rfl)
        (by simpa [Call.asked, h.loc] using hrun)
      exact ⟨.fail i :: as, s', by simp [hstep, has], hrest⟩
    · rename_i hlive
      simp only [Bool.or_eq_true, not_or, Bool.not_eq_true] at hlive
      obtain ⟨v, hv, hrun⟩ := Option.bind_eq_some_iff.mp hrun
      have hbegan : step E program s (.run i) = some (s.put i c (.goes (c.began v))) := by
        simp [step, h.call, Call.run, h.prog, h.loc, hlive.2, h.base, hv, h.snapshot]
      have hfree : (s.put i c (.goes (c.began v))).free E i (E.effect q v v) = true := h.free _
      have hanswered : step E program (s.put i c (.goes (c.began v))) (.run i) =
          some (s.put i c (.goes (c.asked E q next (E.answer q v v) (E.effect q v v)))) := by
        simp only [State.put, Call.began, h.prog, h.base] at hfree
        simp [step, State.put, Call.run, Call.began, Call.asked, h.prog, h.loc, hlive.2, h.base, hv,
          hfree]
      obtain ⟨as, s', has, hrest⟩ :=
        ih _ (h.goes (c.asked E q next (E.answer q v v) (E.effect q v v)) rfl)
          (by simpa [Call.asked, h.loc] using hrun)
      exact ⟨.run i :: .run i :: as, s', by simp [hbegan, hanswered, has], hrest⟩

end Alone

end Tekir.Losses
