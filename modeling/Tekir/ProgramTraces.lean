import Tekir.Programs

/-!
# What a program has been told

A call goes by the answers it got. `Traced` says which statements a program asks after
which answers, and what it returns after all of them, whatever the statements answer and
whatever becomes of its transactions.
-/
namespace Tekir.Programs

variable {B W Q ε α β : Type} {R : Q → Type}

namespace Prog

/-- After the answers so far each statement is asked as `asks` says, and `post` holds at the
return. -/
def Traced (asks : List (Asked Q R ε) → Q → Prop) (post : List (Asked Q R ε) → α → Prop) :
    Prog Q R ε α → List (Asked Q R ε) → Prop
  | .ret a, t => post t a
  | .stmt q next, t => asks t q ∧ ∀ r, Traced asks post (next r) (t ++ [⟨q, r⟩])
  | .commit next, t => ∀ ok, Traced asks post (next ok) t
  | .rollback next, t => Traced asks post next t

variable {asks : List (Asked Q R ε) → Q → Prop} {t : List (Asked Q R ε)} {q : Q}

theorem Traced.mono {post post' : List (Asked Q R ε) → α → Prop}
    (himp : ∀ t' a, t ⊆ t' → post t' a → post' t' a) {p : Prog Q R ε α}
    (h : p.Traced asks post t) : p.Traced asks post' t := by
  induction p generalizing t with
  | ret a => exact himp t a (List.Subset.refl t) h
  | stmt q next ih =>
    refine ⟨h.1, fun r => ih r (fun t' a ht => himp t' a ?_) (h.2 r)⟩
    exact fun x hx => ht (List.mem_append_left _ hx)
  | commit next ih => exact fun ok => ih ok himp (h ok)
  | rollback next ih => exact ih himp h

theorem traced_bind {post : List (Asked Q R ε) → β → Prop} {p : Prog Q R ε α}
    {f : α → Prog Q R ε β} :
    (p.bind f).Traced asks post t ↔ p.Traced asks (fun t a => (f a).Traced asks post t) t := by
  induction p generalizing t with
  | ret a => rfl
  | stmt q next ih => exact and_congr_right fun _ => forall_congr' fun r => ih r
  | commit next ih => exact forall_congr' fun ok => ih ok
  | rollback next ih => exact ih

theorem traced_andThen {post : List (Asked Q R ε) → Except ε β → Prop}
    {p : Prog Q R ε (Except ε α)} {f : α → Prog Q R ε (Except ε β)}
    (h : p.Traced asks (fun t r => (∀ a, r = .ok a → (f a).Traced asks post t) ∧
      ∀ e, r = .error e → post t (.error e)) t) : (p.andThen f).Traced asks post t := by
  refine traced_bind.mpr (h.mono fun t r _ hr => ?_)
  cases r with
  | ok a => exact hr.1 a rfl
  | error e => exact hr.2 e rfl

theorem traced_query {post : List (Asked Q R ε) → Except ε (R q) → Prop} (hq : asks t q)
    (h : ∀ r, post (t ++ [⟨q, r⟩]) r) : (query q).Traced asks post t :=
  ⟨hq, h⟩

theorem traced_read {post : List (Asked Q R ε) → Except ε (R q) → Prop} (hq : asks t q)
    (h : ∀ r, post (t ++ [⟨q, r⟩]) r) : (read q).Traced asks post t :=
  ⟨hq, h⟩

theorem traced_transaction {post : List (Asked Q R ε) → Except ε α → Prop} {lost : ε}
    {body : Prog Q R ε (Except ε α)}
    (h : body.Traced asks (fun t r => (∀ a, r = .ok a → post t (.ok a) ∧ post t (.error lost)) ∧
      ∀ e, r = .error e → post t (.error e)) t) : (transaction lost body).Traced asks post t := by
  refine traced_bind.mpr (h.mono fun t r _ hr => ?_)
  cases r with
  | ok a =>
    intro ok
    cases ok with
    | true => exact (hr.1 a rfl).1
    | false => exact (hr.1 a rfl).2
  | error e => exact hr.2 e rfl

/-- A part whose statements may be asked from the start. -/
theorem traced_of_uses {P : Q → Prop} {post : List (Asked Q R ε) → α → Prop}
    (hP : ∀ t' q, t ⊆ t' → P q → asks t' q) {p : Prog Q R ε α} (hp : p.Uses P)
    (hpost : ∀ t' a, t ⊆ t' → post t' a) : p.Traced asks post t := by
  induction p generalizing t with
  | ret a => exact hpost t a (List.Subset.refl t)
  | stmt q next ih =>
    have hmore : ∀ {r : Except ε (R q)} {t' : List (Asked Q R ε)}, t ++ [⟨q, r⟩] ⊆ t' → t ⊆ t' :=
      fun ht x hx => ht (List.mem_append_left _ hx)
    refine ⟨hP t q (List.Subset.refl t) hp.1, fun r => ih r ?_ (hp.2 r) ?_⟩
    · exact fun t' q' ht => hP t' q' (hmore ht)
    · exact fun t' a ht => hpost t' a (hmore ht)
  | commit next ih => exact fun ok => ih ok hP (hp ok) hpost
  | rollback next ih => exact ih hP hp hpost

/-- What a program has been told it has been told under interference too. -/
theorem Traced.meets {E : Engine B W Q R ε} {post : List (Asked Q R ε) → α → Prop}
    {p : Prog Q R ε α} {l : Local W Q R ε} (h : p.Traced asks post l.trace) :
    p.Meets E (fun l q => asks l.trace q) (fun _ => True) (fun l a => post l.trace a) l := by
  induction p generalizing l with
  | ret a => exact h
  | stmt q next ih => exact ⟨fun _ => ⟨h.1, fun b₀ b => ih _ (h.2 _)⟩, fun _ => ih _ (h.2 _)⟩
  | commit next ih => exact ⟨fun _ => ⟨trivial, ih true (h true)⟩, fun _ => ih false (h false)⟩
  | rollback next ih => exact ih h

end Prog

end Tekir.Programs
