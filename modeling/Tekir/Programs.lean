import Mathlib.Logic.Basic

/-!
# Programs of statements

A call of a service is a tree: it asks the database one statement after the other and
goes on with each answer, commits or rolls back, and returns. What a statement answers
and writes is the engine's affair. `Prog.Meets` is the weakest precondition of a call
against arbitrary interference: between any two statements everything may change.
-/
namespace Tekir.Programs

/-- The text of a call that asks statements `q : Q`, each answered by an `R q` or an error. -/
inductive Prog (Q : Type) (R : Q → Type) (ε α : Type) : Type
  | ret (a : α)
  | stmt (q : Q) (next : Except ε (R q) → Prog Q R ε α)
  /-- The continuation learns whether the transaction was committed. -/
  | commit (next : Bool → Prog Q R ε α)
  | rollback (next : Prog Q R ε α)

variable {B W Q ε α β : Type} {R : Q → Type}

namespace Prog

def bind : Prog Q R ε α → (α → Prog Q R ε β) → Prog Q R ε β
  | .ret a, f => f a
  | .stmt q next, f => .stmt q fun r => (next r).bind f
  | .commit next, f => .commit fun ok => (next ok).bind f
  | .rollback next, f => .rollback (next.bind f)

/-- Go on with a value; an error is the result. -/
def andThen (p : Prog Q R ε (Except ε α)) (f : α → Prog Q R ε (Except ε β)) :
    Prog Q R ε (Except ε β) :=
  p.bind fun
    | .ok a => f a
    | .error e => .ret (.error e)

/-- One statement. -/
def query (q : Q) : Prog Q R ε (Except ε (R q)) :=
  .stmt q .ret

/-- Commit if the body ends with a value, else roll back and return its error. -/
def transaction (lost : ε) (body : Prog Q R ε (Except ε α)) : Prog Q R ε (Except ε α) :=
  body.bind fun
    | .ok a => .commit fun
      | true => .ret (.ok a)
      | false => .ret (.error lost)
    | .error e => .rollback (.ret (.error e))

/-- A statement outside a transaction is a transaction of its own. -/
def auto (lost : ε) (q : Q) : Prog Q R ε (Except ε (R q)) :=
  transaction lost (query q)

/-- A statement outside a transaction that only reads. -/
def read (q : Q) : Prog Q R ε (Except ε (R q)) :=
  (query q).bind fun r => .rollback (.ret r)

end Prog

/-- What the statements mean. A statement has two databases: the snapshot it began with and
the newest rows, which it sees once its locks are granted. -/
structure Engine (B W Q : Type) (R : Q → Type) (ε : Type) where
  /-- A database with uncommitted writes on top, as their transaction sees it. -/
  view : List W → B → Option B
  /-- Two transactions cannot hold these writes at the same time. -/
  clash : W → W → Bool
  answer : (q : Q) → (snapshot newest : B) → Except ε (R q)
  effect : (q : Q) → (snapshot newest : B) → List W
  /-- Whether an error aborts the transaction it occurs in. -/
  aborts : ε → Bool
  /-- The error of a lost connection, and of a statement in an aborted transaction. -/
  lost : ε
  /-- Whether a statement or a commit can be lost at any time. -/
  fails : Bool
  /-- What transactions outside the model may commit while these writes are open. -/
  foreign : List W → B → B → Bool
  view_nil : ∀ b, view [] b = some b
  clash_symm : ∀ w w', clash w w' = clash w' w
  lost_aborts : aborts lost = true

/-- A statement together with the answer it got. -/
structure Asked (Q : Type) (R : Q → Type) (ε : Type) where
  query : Q
  answer : Except ε (R query)

/-- What a call has done so far: the writes of its open transaction, whether that is aborted,
the statements it has asked, and the batches of writes it has committed. -/
structure Local (W Q : Type) (R : Q → Type) (ε : Type) where
  writes : List W := []
  aborted : Bool := false
  trace : List (Asked Q R ε) := []
  mine : List (List W) := []

def Engine.failure (E : Engine B W Q R ε) : Except ε α → Bool
  | .ok _ => false
  | .error e => E.aborts e

namespace Local

def ask (E : Engine B W Q R ε) (q : Q) (r : Except ε (R q)) (new : List W)
    (l : Local W Q R ε) : Local W Q R ε :=
  { l with
    writes := l.writes ++ new
    aborted := l.aborted || E.failure r
    trace := l.trace ++ [⟨q, r⟩] }

def publish (l : Local W Q R ε) : Local W Q R ε :=
  { l with writes := [], aborted := false, mine := l.mine ++ [l.writes] }

def drop (l : Local W Q R ε) : Local W Q R ε :=
  { l with writes := [], aborted := false }

variable {E : Engine B W Q R ε} {q : Q} {r : Except ε (R q)} {new : List W} {l : Local W Q R ε}

@[simp] theorem ask_writes : (l.ask E q r new).writes = l.writes ++ new := rfl
@[simp] theorem ask_aborted : (l.ask E q r new).aborted = (l.aborted || E.failure r) := rfl
@[simp] theorem ask_trace : (l.ask E q r new).trace = l.trace ++ [⟨q, r⟩] := rfl
@[simp] theorem ask_mine : (l.ask E q r new).mine = l.mine := rfl
@[simp] theorem publish_writes : l.publish.writes = [] := rfl
@[simp] theorem publish_aborted : l.publish.aborted = false := rfl
@[simp] theorem publish_trace : l.publish.trace = l.trace := rfl
@[simp] theorem publish_mine : l.publish.mine = l.mine ++ [l.writes] := rfl
@[simp] theorem drop_writes : l.drop.writes = [] := rfl
@[simp] theorem drop_aborted : l.drop.aborted = false := rfl
@[simp] theorem drop_trace : l.drop.trace = l.trace := rfl
@[simp] theorem drop_mine : l.drop.mine = l.mine := rfl

end Local

namespace Prog

theorem bind_assoc {γ : Type} (p : Prog Q R ε α) (f : α → Prog Q R ε β) (g : β → Prog Q R ε γ) :
    (p.bind f).bind g = p.bind fun a => (f a).bind g := by
  induction p with
  | ret a => rfl
  | stmt q next ih => exact congrArg (Prog.stmt q) (funext ih)
  | commit next ih => exact congrArg Prog.commit (funext ih)
  | rollback next ih => exact congrArg Prog.rollback ih

theorem andThen_assoc {γ : Type} (p : Prog Q R ε (Except ε α)) (f : α → Prog Q R ε (Except ε β))
    (g : β → Prog Q R ε (Except ε γ)) :
    (p.andThen f).andThen g = p.andThen fun a => (f a).andThen g := by
  unfold andThen
  rw [bind_assoc]
  refine congrArg _ (funext fun r => ?_)
  cases r <;> rfl

section Meets

variable (E : Engine B W Q R ε) (asks : Local W Q R ε → Q → Prop)
  (commits : Local W Q R ε → Prop)

/-- Whatever the statements answer and wherever the call can fail, every statement is asked as
`asks` says, every commit is as `commits` says, and `post` holds at the return. -/
def Meets (post : Local W Q R ε → α → Prop) : Prog Q R ε α → Local W Q R ε → Prop
  | .ret a, l => post l a
  | .rollback next, l => Meets post next l.drop
  | .commit next, l =>
    (l.aborted = false → commits l ∧ Meets post (next true) l.publish) ∧
      (E.fails = true ∨ l.aborted = true → Meets post (next false) l.drop)
  | .stmt q next, l =>
    (l.aborted = false → asks l q ∧ ∀ b₀ b,
      Meets post (next (E.answer q b₀ b)) (l.ask E q (E.answer q b₀ b) (E.effect q b₀ b))) ∧
    (E.fails = true ∨ l.aborted = true →
      Meets post (next (.error E.lost)) (l.ask E q (.error E.lost) []))

variable {E asks commits} {post post' : Local W Q R ε → α → Prop}

theorem Meets.mono (himp : ∀ l a, post l a → post' l a) {p : Prog Q R ε α} {l : Local W Q R ε}
    (h : p.Meets E asks commits post l) : p.Meets E asks commits post' l := by
  induction p generalizing l with
  | ret a => exact himp l a h
  | rollback next ih => exact ih h
  | commit next ih =>
    exact ⟨fun hl => ⟨(h.1 hl).1, ih true (h.1 hl).2⟩, fun hl => ih false (h.2 hl)⟩
  | stmt q next ih =>
    exact ⟨fun hl => ⟨(h.1 hl).1, fun b₀ b => ih _ ((h.1 hl).2 b₀ b)⟩, fun hl => ih _ (h.2 hl)⟩

theorem Meets.mono_asks {asks' : Local W Q R ε → Q → Prop} (himp : ∀ l q, asks l q → asks' l q)
    {p : Prog Q R ε α} {l : Local W Q R ε} (h : p.Meets E asks commits post l) :
    p.Meets E asks' commits post l := by
  induction p generalizing l with
  | ret a => exact h
  | rollback next ih => exact ih h
  | commit next ih =>
    exact ⟨fun hl => ⟨(h.1 hl).1, ih true (h.1 hl).2⟩, fun hl => ih false (h.2 hl)⟩
  | stmt q next ih =>
    exact ⟨fun hl => ⟨himp l q (h.1 hl).1, fun b₀ b => ih _ ((h.1 hl).2 b₀ b)⟩,
      fun hl => ih _ (h.2 hl)⟩

/-- Two contracts that a program meets, it meets together. -/
theorem Meets.and {asks' : Local W Q R ε → Q → Prop} {commits' : Local W Q R ε → Prop}
    {p : Prog Q R ε α} {l : Local W Q R ε} (h : p.Meets E asks commits post l)
    (h' : p.Meets E asks' commits' post' l) :
    p.Meets E (fun l q => asks l q ∧ asks' l q) (fun l => commits l ∧ commits' l)
      (fun l a => post l a ∧ post' l a) l := by
  induction p generalizing l with
  | ret a => exact ⟨h, h'⟩
  | rollback next ih => exact ih h h'
  | commit next ih =>
    refine ⟨fun hl => ⟨⟨(h.1 hl).1, (h'.1 hl).1⟩, ih true (h.1 hl).2 (h'.1 hl).2⟩, fun hl => ?_⟩
    exact ih false (h.2 hl) (h'.2 hl)
  | stmt q next ih =>
    refine ⟨fun hl => ⟨⟨(h.1 hl).1, (h'.1 hl).1⟩, fun b₀ b => ?_⟩, fun hl => ih _ (h.2 hl) (h'.2 hl)⟩
    exact ih _ ((h.1 hl).2 b₀ b) ((h'.1 hl).2 b₀ b)

/-- A sequence is met by meeting its first part with the rest as the goal. -/
theorem meets_bind {post : Local W Q R ε → β → Prop} {p : Prog Q R ε α}
    {f : α → Prog Q R ε β} {l : Local W Q R ε} :
    (p.bind f).Meets E asks commits post l ↔
      p.Meets E asks commits (fun l a => (f a).Meets E asks commits post l) l := by
  induction p generalizing l with
  | ret a => rfl
  | rollback next ih => exact ih
  | commit next ih =>
    exact and_congr (imp_congr_right fun _ => and_congr_right fun _ => ih true)
      (imp_congr_right fun _ => ih false)
  | stmt q next ih =>
    exact and_congr (imp_congr_right fun _ => and_congr_right fun _ =>
      forall_congr' fun b₀ => forall_congr' fun b => ih _) (imp_congr_right fun _ => ih _)

theorem meets_andThen {post : Local W Q R ε → Except ε β → Prop}
    {p : Prog Q R ε (Except ε α)} {f : α → Prog Q R ε (Except ε β)} {l : Local W Q R ε}
    (h : p.Meets E asks commits (fun l r => (∀ a, r = .ok a → (f a).Meets E asks commits post l) ∧
      ∀ e, r = .error e → post l (.error e)) l) :
    (p.andThen f).Meets E asks commits post l := by
  refine meets_bind.mpr (h.mono fun l r hr => ?_)
  cases r with
  | ok a => exact hr.1 a rfl
  | error e => exact hr.2 e rfl

theorem meets_query {q : Q} {post : Local W Q R ε → Except ε (R q) → Prop} {l : Local W Q R ε} :
    (query q).Meets E asks commits post l ↔
      (l.aborted = false → asks l q ∧ ∀ b₀ b,
        post (l.ask E q (E.answer q b₀ b) (E.effect q b₀ b)) (E.answer q b₀ b)) ∧
      (E.fails = true ∨ l.aborted = true →
        post (l.ask E q (.error E.lost) []) (.error E.lost)) :=
  Iff.rfl

theorem meets_transaction {post : Local W Q R ε → Except ε α → Prop} {lost : ε}
    {body : Prog Q R ε (Except ε α)} {l : Local W Q R ε}
    (h : body.Meets E asks commits (fun l r =>
      (∀ a, r = .ok a → (l.aborted = false → commits l ∧ post l.publish (.ok a)) ∧
        (E.fails = true ∨ l.aborted = true → post l.drop (.error lost))) ∧
      ∀ e, r = .error e → post l.drop (.error e)) l) :
    (transaction lost body).Meets E asks commits post l := by
  refine meets_bind.mpr (h.mono fun l r hr => ?_)
  cases r with
  | ok a => exact hr.1 a rfl
  | error e => exact hr.2 e rfl

theorem meets_read {q : Q} {post : Local W Q R ε → Except ε (R q) → Prop} {l : Local W Q R ε} :
    (read q).Meets E asks commits post l ↔
      (l.aborted = false → asks l q ∧ ∀ b₀ b,
        post (l.ask E q (E.answer q b₀ b) (E.effect q b₀ b)).drop (E.answer q b₀ b)) ∧
      (E.fails = true ∨ l.aborted = true →
        post (l.ask E q (.error E.lost) []).drop (.error E.lost)) :=
  Iff.rfl

end Meets

/-- A contract that demands nothing is met. -/
theorem meets_of_forall {E : Engine B W Q R ε} {asks : Local W Q R ε → Q → Prop}
    {commits : Local W Q R ε → Prop} {post : Local W Q R ε → α → Prop} {p : Prog Q R ε α}
    {l : Local W Q R ε} (hasks : ∀ l q, asks l q) (hcommits : ∀ l, commits l)
    (hpost : ∀ l a, post l a) : p.Meets E asks commits post l := by
  induction p generalizing l with
  | ret a => exact hpost l a
  | stmt q next ih => exact ⟨fun _ => ⟨hasks l q, fun b₀ b => ih _⟩, fun _ => ih _⟩
  | commit next ih => exact ⟨fun _ => ⟨hcommits l, ih true⟩, fun _ => ih false⟩
  | rollback next ih => exact ih

section Plain

variable {P : Q → Prop}

/-- Only statements, all of them within `P`: nothing is committed and nothing rolled back. -/
def Plain (P : Q → Prop) : Prog Q R ε α → Prop
  | .ret _ => True
  | .stmt q next => P q ∧ ∀ r, (next r).Plain P
  | .commit _ => False
  | .rollback _ => False

theorem plain_query {q : Q} (hq : P q) : (query q : Prog Q R ε (Except ε (R q))).Plain P :=
  ⟨hq, fun _ => trivial⟩

theorem plain_bind {p : Prog Q R ε α} {f : α → Prog Q R ε β} (hp : p.Plain P)
    (hf : ∀ a, (f a).Plain P) : (p.bind f).Plain P := by
  induction p with
  | ret a => exact hf a
  | stmt q next ih => exact ⟨hp.1, fun r => ih r (hp.2 r)⟩
  | commit next ih => exact hp.elim
  | rollback next ih => exact hp.elim

theorem plain_andThen {p : Prog Q R ε (Except ε α)} {f : α → Prog Q R ε (Except ε β)}
    (hp : p.Plain P) (hf : ∀ a, (f a).Plain P) : (p.andThen f).Plain P := by
  refine plain_bind hp fun r => ?_
  cases r with
  | ok a => exact hf a
  | error e => trivial

/-- Every statement is within `P`. -/
def Uses (P : Q → Prop) : Prog Q R ε α → Prop
  | .ret _ => True
  | .stmt q next => P q ∧ ∀ r, (next r).Uses P
  | .commit next => ∀ ok, (next ok).Uses P
  | .rollback next => next.Uses P

theorem Uses.mono {P' : Q → Prop} {p : Prog Q R ε α} (hp : p.Uses P) (h : ∀ q, P q → P' q) :
    p.Uses P' := by
  induction p with
  | ret a => trivial
  | stmt q next ih => exact ⟨h q hp.1, fun r => ih r (hp.2 r)⟩
  | commit next ih => exact fun ok => ih ok (hp ok)
  | rollback next ih => exact ih hp

theorem uses_bind {p : Prog Q R ε α} {f : α → Prog Q R ε β} (hp : p.Uses P)
    (hf : ∀ a, (f a).Uses P) : (p.bind f).Uses P := by
  induction p with
  | ret a => exact hf a
  | stmt q next ih => exact ⟨hp.1, fun r => ih r (hp.2 r)⟩
  | commit next ih => exact fun ok => ih ok (hp ok)
  | rollback next ih => exact ih hp

theorem uses_andThen {p : Prog Q R ε (Except ε α)} {f : α → Prog Q R ε (Except ε β)}
    (hp : p.Uses P) (hf : ∀ a, (f a).Uses P) : (p.andThen f).Uses P := by
  refine uses_bind hp fun r => ?_
  cases r with
  | ok a => exact hf a
  | error e => trivial

theorem uses_transaction {lost : ε} {p : Prog Q R ε (Except ε α)} (hp : p.Uses P) :
    (transaction lost p).Uses P := by
  refine uses_bind hp fun r => ?_
  cases r with
  | ok a => exact fun ok => by cases ok <;> trivial
  | error e => trivial

theorem Plain.uses {p : Prog Q R ε α} (hp : p.Plain P) : p.Uses P := by
  induction p with
  | ret a => trivial
  | stmt q next ih => exact ⟨hp.1, fun r => ih r (hp.2 r)⟩
  | commit next ih => exact hp.elim
  | rollback next ih => exact hp.elim

/-- What is returned, whatever the statements answer. -/
def Ends (ends : α → Prop) : Prog Q R ε α → Prop
  | .ret a => ends a
  | .stmt _ next => ∀ r, (next r).Ends ends
  | .commit next => ∀ ok, (next ok).Ends ends
  | .rollback next => next.Ends ends

theorem ends_bind {ends : β → Prop} {p : Prog Q R ε α} {f : α → Prog Q R ε β}
    (hf : ∀ a, (f a).Ends ends) : (p.bind f).Ends ends := by
  induction p with
  | ret a => exact hf a
  | stmt q next ih => exact fun r => ih r
  | commit next ih => exact fun ok => ih ok
  | rollback next ih => exact ih

theorem Meets.and_ends {E : Engine B W Q R ε} {asks : Local W Q R ε → Q → Prop}
    {commits : Local W Q R ε → Prop} {post : Local W Q R ε → α → Prop} {ends : α → Prop}
    {p : Prog Q R ε α} {l : Local W Q R ε} (h : p.Meets E asks commits post l)
    (hends : p.Ends ends) : p.Meets E asks commits (fun l a => post l a ∧ ends a) l := by
  induction p generalizing l with
  | ret a => exact ⟨h, hends⟩
  | stmt q next ih =>
    exact ⟨fun hl => ⟨(h.1 hl).1, fun b₀ b => ih _ ((h.1 hl).2 b₀ b) (hends _)⟩, fun hl =>
      ih _ (h.2 hl) (hends _)⟩
  | commit next ih =>
    exact ⟨fun hl => ⟨(h.1 hl).1, ih true (h.1 hl).2 (hends true)⟩, fun hl =>
      ih false (h.2 hl) (hends false)⟩
  | rollback next ih => exact ih h hends

/-- What is returned if the statements answer as `may` says. -/
def Yields (may : (q : Q) → Except ε (R q) → Prop) (ends : α → Prop) : Prog Q R ε α → Prop
  | .ret a => ends a
  | .stmt q next => ∀ r, may q r → (next r).Yields may ends
  | .commit next => ∀ ok, (next ok).Yields may ends
  | .rollback next => next.Yields may ends

variable {may : (q : Q) → Except ε (R q) → Prop}

theorem yields_bind {ends : α → Prop} {ends' : β → Prop} {p : Prog Q R ε α} {f : α → Prog Q R ε β}
    (hp : p.Yields may ends) (hf : ∀ a, ends a → (f a).Yields may ends') :
    (p.bind f).Yields may ends' := by
  induction p with
  | ret a => exact hf a hp
  | stmt q next ih => exact fun r hr => ih r (hp r hr)
  | commit next ih => exact fun ok => ih ok (hp ok)
  | rollback next ih => exact ih hp

/-- Each of the errors is one that `bad` admits. -/
theorem yields_andThen {bad : ε → Prop} {p : Prog Q R ε (Except ε α)}
    {f : α → Prog Q R ε (Except ε β)} (hp : p.Yields may fun r => ∀ e, r = .error e → bad e)
    (hf : ∀ a, (f a).Yields may fun r => ∀ e, r = .error e → bad e) :
    (p.andThen f).Yields may fun r => ∀ e, r = .error e → bad e := by
  refine yields_bind hp fun r hr => ?_
  cases r with
  | ok a => exact hf a
  | error e =>
    intro e' he'
    exact hr e' (congrArg _ (Except.error.inj he'))

theorem yields_transaction {bad : ε → Prop} {lost : ε} (hlost : bad lost)
    {p : Prog Q R ε (Except ε α)} (hp : p.Yields may fun r => ∀ e, r = .error e → bad e) :
    (transaction lost p).Yields may fun r => ∀ e, r = .error e → bad e := by
  refine yields_bind hp fun r hr => ?_
  cases r with
  | ok a =>
    intro ok
    cases ok with
    | true => intro e he; cases he
    | false =>
      intro e he
      exact (Except.error.inj he) ▸ hlost
  | error e =>
    intro e' he'
    exact hr e' (congrArg _ (Except.error.inj he'))

theorem Meets.and_yields {E : Engine B W Q R ε} {asks : Local W Q R ε → Q → Prop}
    {commits : Local W Q R ε → Prop} {post : Local W Q R ε → α → Prop} {ends : α → Prop}
    {p : Prog Q R ε α} {l : Local W Q R ε} (h : p.Meets E asks commits post l)
    (hends : p.Yields may ends) (hanswer : ∀ q b₀ b, may q (E.answer q b₀ b))
    (hlost : ∀ q, may q (.error E.lost)) :
    p.Meets E asks commits (fun l a => post l a ∧ ends a) l := by
  induction p generalizing l with
  | ret a => exact ⟨h, hends⟩
  | stmt q next ih =>
    exact ⟨fun hl => ⟨(h.1 hl).1, fun b₀ b => ih _ ((h.1 hl).2 b₀ b) (hends _ (hanswer q b₀ b))⟩,
      fun hl => ih _ (h.2 hl) (hends _ (hlost q))⟩
  | commit next ih =>
    exact ⟨fun hl => ⟨(h.1 hl).1, ih true (h.1 hl).2 (hends true)⟩, fun hl =>
      ih false (h.2 hl) (hends false)⟩
  | rollback next ih => exact ih h hends

/-- What statements within `P` keep, whatever they answer, holds at each commit and at the end. -/
theorem Uses.meets_of_kept {E : Engine B W Q R ε} {asks : Local W Q R ε → Q → Prop}
    {commits J : Local W Q R ε → Prop} {post : Local W Q R ε → α → Prop} {p : Prog Q R ε α}
    (hp : p.Uses P) {l : Local W Q R ε} (hl : J l)
    (hask : ∀ l q r new, P q → J l → (∀ w ∈ new, ∃ b₀ b, w ∈ E.effect q b₀ b) →
      J (l.ask E q r new))
    (hdrop : ∀ l, J l → J l.drop) (hpublish : ∀ l, J l → J l.publish)
    (hasks : ∀ l q, P q → J l → asks l q) (hcommits : ∀ l, J l → commits l)
    (hpost : ∀ l a, J l → post l a) : p.Meets E asks commits post l := by
  induction p generalizing l with
  | ret a => exact hpost l a hl
  | stmt q next ih =>
    refine ⟨fun _ => ⟨hasks l q hp.1 hl, fun b₀ b => ih _ (hp.2 _) ?_⟩, fun _ => ih _ (hp.2 _) ?_⟩
    · exact hask l q _ _ hp.1 hl fun w hw => ⟨b₀, b, hw⟩
    · exact hask l q _ _ hp.1 hl fun w hw => by cases hw
  | commit next ih =>
    exact ⟨fun _ => ⟨hcommits l hl, ih true (hp true) (hpublish l hl)⟩,
      fun _ => ih false (hp false) (hdrop l hl)⟩
  | rollback next ih => exact ih hp (hdrop l hl)

theorem Uses.meets {E : Engine B W Q R ε} {asks : Local W Q R ε → Q → Prop}
    {commits : Local W Q R ε → Prop} {post : Local W Q R ε → α → Prop} {p : Prog Q R ε α}
    (hp : p.Uses P) {l : Local W Q R ε} (hasks : ∀ l q, P q → asks l q)
    (hcommits : ∀ l, commits l) (hpost : ∀ l a, post l a) : p.Meets E asks commits post l :=
  hp.meets_of_kept (J := fun _ => True) trivial (fun _ _ _ _ _ _ _ => trivial)
    (fun _ _ => trivial) (fun _ _ => trivial) (fun l q hq _ => hasks l q hq)
    (fun l _ => hcommits l) fun l a _ => hpost l a

/-- What statements alone do to what a call has done: writes and statements are added. -/
structure Grows (l l' : Local W Q R ε) : Prop where
  writes : l.writes <+: l'.writes
  trace : l.trace <+: l'.trace
  mine : l'.mine = l.mine

theorem Grows.refl (l : Local W Q R ε) : Grows l l :=
  ⟨List.prefix_refl _, List.prefix_refl _, rfl⟩

theorem Grows.trans {l l' l'' : Local W Q R ε} (h : Grows l l') (h' : Grows l' l'') :
    Grows l l'' :=
  ⟨h.writes.trans h'.writes, h.trace.trans h'.trace, h'.mine.trans h.mine⟩

theorem grows_ask {E : Engine B W Q R ε} {q : Q} {r : Except ε (R q)} {new : List W}
    (l : Local W Q R ε) : Grows l (l.ask E q r new) :=
  ⟨List.prefix_append _ _, List.prefix_append _ _, rfl⟩

theorem Plain.meets {E : Engine B W Q R ε} {asks : Local W Q R ε → Q → Prop}
    {commits : Local W Q R ε → Prop} {post : Local W Q R ε → α → Prop} {p : Prog Q R ε α}
    (hp : p.Plain P) {l : Local W Q R ε} (hasks : ∀ l' q, P q → Grows l l' → asks l' q)
    (hpost : ∀ l' a, Grows l l' → post l' a) : p.Meets E asks commits post l := by
  induction p generalizing l with
  | ret a => exact hpost l a (Grows.refl l)
  | stmt q next ih =>
    have hnext : ∀ r new, (next r).Meets E asks commits post (l.ask E q r new) := fun r new =>
      ih r (hp.2 r) (fun l' q' hq' hl' => hasks l' q' hq' ((grows_ask l).trans hl'))
        fun l' a hl' => hpost l' a ((grows_ask l).trans hl')
    exact ⟨fun _ => ⟨hasks l q hp.1 (Grows.refl l), fun b₀ b => hnext _ _⟩, fun _ => hnext _ _⟩
  | commit next ih => exact hp.elim
  | rollback next ih => exact hp.elim

end Plain

section Alone

variable (E : Engine B W Q R ε)

/-- The call with nobody else around: its result, and the database it leaves. -/
def alone : Prog Q R ε α → Local W Q R ε → B → Option (α × Local W Q R ε × B)
  | .ret a, l, b => some (a, l, b)
  | .rollback next, l, b => next.alone l.drop b
  | .commit next, l, b =>
    if l.aborted then (next false).alone l.drop b
    else (E.view l.writes b).bind fun b' => (next true).alone l.publish b'
  | .stmt q next, l, b =>
    if l.aborted then (next (.error E.lost)).alone (l.ask E q (.error E.lost) []) b
    else (E.view l.writes b).bind fun v =>
      (next (E.answer q v v)).alone (l.ask E q (E.answer q v v) (E.effect q v v)) b

end Alone

end Prog

end Tekir.Programs
