import Tekir.Interleaving

/-!
# Engines from the meaning of single statements

What a statement returns and writes is one function of its snapshot and of the newest
rows. A statement that fails writes nothing. The rules below are those of `Prog.Meets`
for a statement inside a transaction, a read of its own and a write of its own.
-/
namespace Tekir.Dialects
open Programs Interleaving

variable {B W Q ε α : Type} {R : Q → Type}

structure Dialect (B W Q : Type) (R : Q → Type) (ε : Type) where
  /-- The snapshot comes first. -/
  run : (q : Q) → B → B → Except ε (R q × List W)
  view : List W → B → Option B
  clash : W → W → Bool
  aborts : ε → Bool
  lost : ε
  view_nil : ∀ b, view [] b = some b
  clash_symm : ∀ w w', clash w w' = clash w' w
  lost_aborts : aborts lost = true

variable (S : Dialect B W Q R ε)

namespace Dialect

def answer (q : Q) (snapshot newest : B) : Except ε (R q) :=
  (S.run q snapshot newest).map Prod.fst

def effect (q : Q) (snapshot newest : B) : List W :=
  match S.run q snapshot newest with
  | .ok (_, ws) => ws
  | .error _ => []

def engine (fails : Bool) (foreign : List W → B → B → Bool) : Engine B W Q R ε where
  view := S.view
  clash := S.clash
  answer := S.answer
  effect := S.effect
  aborts := S.aborts
  lost := S.lost
  fails := fails
  foreign := foreign
  view_nil := S.view_nil
  clash_symm := S.clash_symm
  lost_aborts := S.lost_aborts

variable {S} {q : Q} {b₀ b : B}

theorem answer_eq_ok {a : R q} :
    S.answer q b₀ b = .ok a ↔ S.run q b₀ b = .ok (a, S.effect q b₀ b) := by
  unfold answer effect
  cases h : S.run q b₀ b with
  | error e => simp [Except.map]
  | ok x => simp [Except.map, Prod.ext_iff]

theorem effect_of_error {e : ε} (h : S.answer q b₀ b = .error e) : S.effect q b₀ b = [] := by
  unfold answer at h
  unfold effect
  cases hrun : S.run q b₀ b with
  | error e' => rfl
  | ok x => simp [hrun, Except.map] at h

/-- A write comes from a statement that succeeded. -/
theorem mem_effect {w : W} (h : w ∈ S.effect q b₀ b) :
    ∃ a, S.run q b₀ b = .ok (a, S.effect q b₀ b) := by
  unfold effect at h ⊢
  cases hrun : S.run q b₀ b with
  | error e => simp [hrun] at h
  | ok x => exact ⟨x.1, rfl⟩

/-- An error that the statement can come to. -/
def Fails (S : Dialect B W Q R ε) (q : Q) (e : ε) : Prop :=
  e = S.lost ∨ ∃ b₀ b, S.run q b₀ b = .error e

/-- An answer that the statement can get. -/
def Possible (S : Dialect B W Q R ε) (q : Q) (r : Except ε (R q)) : Prop :=
  ∀ e, r = .error e → S.Fails q e

theorem possible_answer : S.Possible q (S.answer q b₀ b) := by
  intro e he
  refine .inr ⟨b₀, b, ?_⟩
  unfold answer at he
  cases h : S.run q b₀ b with
  | error e' =>
    rw [h] at he
    exact congrArg _ (Except.error.inj he)
  | ok x => simp [h, Except.map] at he

theorem possible_lost : S.Possible q (.error S.lost) := by
  intro e he
  exact .inl (Except.error.inj he).symm

section Rules

open Prog

variable {fails : Bool} {foreign : List W → B → B → Bool}
  {asks : Local W Q R ε → Q → Prop} {commits : Local W Q R ε → Prop} {l : Local W Q R ε}

/-- A statement answers with what it returns and writes, or fails and writes nothing. -/
theorem meets_ask_fails {post : Local W Q R ε → Except ε (R q) → Prop}
    (hasks : l.aborted = false → asks l q)
    (hok : ∀ b₀ b a ws, S.run q b₀ b = .ok (a, ws) →
      post (l.ask (S.engine fails foreign) q (.ok a) ws) (.ok a))
    (herror : ∀ e, S.Fails q e → post (l.ask (S.engine fails foreign) q (.error e) []) (.error e)) :
    (query q).Meets (S.engine fails foreign) asks commits post l := by
  refine meets_query.mpr ⟨fun hl => ⟨hasks hl, fun b₀ b => ?_⟩, fun _ => herror _ (.inl rfl)⟩
  have hpossible : S.Possible q (S.answer q b₀ b) := possible_answer
  cases h : (S.engine fails foreign).answer q b₀ b with
  | ok a => exact hok b₀ b a _ (answer_eq_ok.mp h)
  | error e =>
    have heffect : (S.engine fails foreign).effect q b₀ b = [] := effect_of_error h
    rw [heffect]
    exact herror e (hpossible e h)

theorem meets_ask {post : Local W Q R ε → Except ε (R q) → Prop}
    (hasks : l.aborted = false → asks l q)
    (hok : ∀ b₀ b a ws, S.run q b₀ b = .ok (a, ws) →
      post (l.ask (S.engine fails foreign) q (.ok a) ws) (.ok a))
    (herror : ∀ e, post (l.ask (S.engine fails foreign) q (.error e) []) (.error e)) :
    (query q).Meets (S.engine fails foreign) asks commits post l :=
  meets_ask_fails hasks hok fun e _ => herror e

theorem meets_ask_andThen {f : R q → Prog Q R ε (Except ε α)}
    {post : Local W Q R ε → Except ε α → Prop} (hasks : l.aborted = false → asks l q)
    (hok : ∀ b₀ b a ws, S.run q b₀ b = .ok (a, ws) →
      (f a).Meets (S.engine fails foreign) asks commits post
        (l.ask (S.engine fails foreign) q (.ok a) ws))
    (herror : ∀ e, post (l.ask (S.engine fails foreign) q (.error e) []) (.error e)) :
    ((query q).andThen f).Meets (S.engine fails foreign) asks commits post l :=
  meets_bind.mpr (meets_ask hasks (fun b₀ b a ws h => hok b₀ b a ws h) fun e => herror e)

theorem meets_read_fails {post : Local W Q R ε → Except ε (R q) → Prop}
    (hasks : l.aborted = false → asks l q)
    (hok : ∀ b₀ b a ws, S.run q b₀ b = .ok (a, ws) →
      post (l.ask (S.engine fails foreign) q (.ok a) ws).drop (.ok a))
    (herror : ∀ e, S.Fails q e →
      post (l.ask (S.engine fails foreign) q (.error e) []).drop (.error e)) :
    (Prog.read q).Meets (S.engine fails foreign) asks commits post l :=
  meets_bind.mpr (meets_ask_fails hasks (fun b₀ b a ws h => hok b₀ b a ws h) fun e he => herror e he)

theorem meets_read_of {post : Local W Q R ε → Except ε (R q) → Prop}
    (hasks : l.aborted = false → asks l q)
    (hok : ∀ b₀ b a ws, S.run q b₀ b = .ok (a, ws) →
      post (l.ask (S.engine fails foreign) q (.ok a) ws).drop (.ok a))
    (herror : ∀ e, post (l.ask (S.engine fails foreign) q (.error e) []).drop (.error e)) :
    (Prog.read q).Meets (S.engine fails foreign) asks commits post l :=
  meets_read_fails hasks hok fun e _ => herror e

theorem meets_auto_of {lost : ε} {post : Local W Q R ε → Except ε (R q) → Prop}
    (hasks : l.aborted = false → asks l q)
    (hok : ∀ b₀ b a ws, S.run q b₀ b = .ok (a, ws) →
      commits (l.ask (S.engine fails foreign) q (.ok a) ws) ∧
        post (l.ask (S.engine fails foreign) q (.ok a) ws).publish (.ok a))
    (herror : ∀ r e, post (l.ask (S.engine fails foreign) q r []).drop (.error e))
    (hdropped : ∀ b₀ b a ws, S.run q b₀ b = .ok (a, ws) →
      post (l.ask (S.engine fails foreign) q (.ok a) ws).drop (.error lost)) :
    (Prog.auto lost q).Meets (S.engine fails foreign) asks commits post l := by
  refine meets_transaction (meets_ask hasks (fun b₀ b a ws h => ⟨fun a' ha => ?_, by simp⟩)
    fun e => ⟨by simp, fun e' _ => herror _ e'⟩)
  cases ha
  exact ⟨fun _ => hok b₀ b a ws h, fun _ => hdropped b₀ b a ws h⟩

end Rules

end Dialect

end Tekir.Dialects
