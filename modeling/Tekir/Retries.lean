import Mathlib.Data.Nat.Notation
import Mathlib.Logic.Basic

/-!
# Requests that are tried again

A client sends a request to a remote party over a network that loses requests and answers.
It judges what each attempt has come to: it stops with a result, or tries again while
attempts are left. The remote party is any machine; an answer that is lost has been acted
upon, or not.
-/
namespace Tekir.Retries

variable {σ β α : Type}

/-- What the network does with one attempt. -/
inductive Transit
  | answered
  /-- No connection is made. -/
  | unreached (timeout : Bool)
  /-- The connection breaks, before the remote party has handled the request or after. -/
  | broken (timeout handled : Bool)

/-- What the client sees of an attempt. -/
inductive Outcome (β : Type)
  | answer (b : β)
  | unreached (timeout : Bool)
  | broken (timeout : Bool)

structure Circumstance where
  transit : Transit
  /-- The caller has given up by the time the attempt ends. -/
  cancelled : Bool
  /-- The caller gives up in the pause before the next attempt. -/
  interrupted : Bool

inductive Verdict (α : Type)
  | stop (a : α)
  /-- Try again; this is the result if no attempt is left. -/
  | again (a : α)

structure Policy (β α : Type) where
  judge : (cancelled : Bool) → Outcome β → Verdict α
  interrupted : α

def attempt (handle : σ → β × σ) : Transit → σ → Outcome β × σ
  | .answered, s => (.answer (handle s).1, (handle s).2)
  | .unreached timeout, s => (.unreached timeout, s)
  | .broken timeout handled, s => (.broken timeout, if handled then (handle s).2 else s)

/-- The attempts from the `k`-th on, of which `left` may be repeated. -/
def tries (p : Policy β α) (handle : ℕ → σ → β × σ) (c : ℕ → Circumstance) :
    (left k : ℕ) → σ → α × σ
  | 0, k, s =>
    let r := attempt (handle k) (c k).transit s
    match p.judge (c k).cancelled r.1 with
    | .stop a | .again a => (a, r.2)
  | left + 1, k, s =>
    let r := attempt (handle k) (c k).transit s
    match p.judge (c k).cancelled r.1 with
    | .stop a => (a, r.2)
    | .again _ =>
      if (c k).interrupted then (p.interrupted, r.2) else tries p handle c left (k + 1) r.2

variable {p : Policy β α} {handle : ℕ → σ → β × σ} {c : ℕ → Circumstance} {left k : ℕ} {s : σ}

/-- What each attempt keeps while it is to be repeated, and what holds once it is not. -/
theorem tries_induct {I : σ → Prop} {Q : α → σ → Prop}
    (hstop : ∀ k s a, I s →
      p.judge (c k).cancelled (attempt (handle k) (c k).transit s).1 = .stop a →
        Q a (attempt (handle k) (c k).transit s).2)
    (hagain : ∀ k s a, I s →
      p.judge (c k).cancelled (attempt (handle k) (c k).transit s).1 = .again a →
        I (attempt (handle k) (c k).transit s).2 ∧ Q a (attempt (handle k) (c k).transit s).2)
    (hinterrupted : ∀ s, I s → Q p.interrupted s) (hs : I s) :
    Q (tries p handle c left k s).1 (tries p handle c left k s).2 := by
  induction left generalizing k s with
  | zero =>
    have hstop' := hstop k s
    have hagain' := hagain k s
    simp only [tries]
    split
    · next a hjudge => exact hstop' a hs hjudge
    · next a hjudge => exact (hagain' a hs hjudge).2
  | succ left ih =>
    have hstop' := hstop k s
    have hagain' := hagain k s
    simp only [tries]
    split
    · next a hjudge => exact hstop' a hs hjudge
    · next a hjudge =>
      have hkept := (hagain' a hs hjudge).1
      by_cases hgone : (c k).interrupted = true
      · rw [if_pos hgone]
        exact hinterrupted _ hkept
      · rw [if_neg hgone]
        exact ih hkept

section Attempts

variable {h : σ → β × σ} {t : Transit}

/-- An attempt leaves the remote party as it was, or has been handled once. -/
theorem attempt_cases (h : σ → β × σ) (t : Transit) (s : σ) :
    (attempt h t s).2 = s ∨ (attempt h t s).2 = (h s).2 := by
  cases t with
  | answered => exact .inr rfl
  | unreached => exact .inl rfl
  | broken timeout handled => cases handled <;> simp [attempt]

/-- An answer is the one that the remote party has given. -/
theorem attempt_answer {b : β} (ho : (attempt h t s).1 = .answer b) :
    (h s).1 = b ∧ (attempt h t s).2 = (h s).2 := by
  cases t with
  | answered => exact ⟨Outcome.answer.inj ho, rfl⟩
  | unreached => cases ho
  | broken => cases ho

theorem attempt_unreached {timeout : Bool} (ho : (attempt h t s).1 = .unreached timeout) :
    (attempt h t s).2 = s := by
  cases t with
  | answered => cases ho
  | unreached => rfl
  | broken => cases ho

end Attempts

/-- A policy that repeats nothing which may have been acted upon: it goes on after a failure
to connect, or after an answer that refuses. -/
def Policy.Cautious (p : Policy β α) (refusal : β → Prop) : Prop :=
  ∀ cancelled o a, p.judge cancelled o = .again a →
    (∃ timeout, o = .unreached timeout) ∨ ∃ b, o = .answer b ∧ refusal b

/-- Before a cautious client tries again, nothing has happened. -/
theorem Policy.Cautious.refused {refusal : β → Prop} (hp : p.Cautious refusal) {n : σ → ℕ}
    (hrefusal : ∀ k s, refusal (handle k s).1 → n (handle k s).2 = n s) {a : α}
    (hjudge : p.judge (c k).cancelled (attempt (handle k) (c k).transit s).1 = .again a) :
    n (attempt (handle k) (c k).transit s).2 = n s := by
  rcases hp _ _ _ hjudge with ⟨timeout, ho⟩ | ⟨b, ho, hb⟩
  · rw [attempt_unreached ho]
  · obtain ⟨rfl, hafter⟩ := attempt_answer ho
    rw [hafter]
    exact hrefusal k s hb

/-- Whatever a cautious client goes through, the remote party acts once at most. -/
theorem Policy.Cautious.once {refusal : β → Prop} (hp : p.Cautious refusal) {n : σ → ℕ}
    (hone : ∀ k s, n s ≤ n (handle k s).2 ∧ n (handle k s).2 ≤ n s + 1)
    (hrefusal : ∀ k s, refusal (handle k s).1 → n (handle k s).2 = n s) :
    n s ≤ n (tries p handle c left k s).2 ∧ n (tries p handle c left k s).2 ≤ n s + 1 := by
  apply tries_induct (I := fun t => n t = n s) (Q := fun _ t => n s ≤ n t ∧ n t ≤ n s + 1)
  · intro k t a ht _
    have hhandled := hone k t
    have hcases := attempt_cases (handle k) (c k).transit t
    rcases hcases with h | h <;> rw [h] <;> omega
  · intro k t a ht hjudge
    have hsame := hp.refused hrefusal hjudge
    omega
  · intro t ht
    omega
  · rfl

/-- The result is what a verdict has made of one attempt, or that the caller gave up. -/
theorem tries_judged : (tries p handle c left k s).1 = p.interrupted ∨ ∃ j t,
    p.judge (c j).cancelled (attempt (handle j) (c j).transit t).1 =
        .stop (tries p handle c left k s).1 ∨
      p.judge (c j).cancelled (attempt (handle j) (c j).transit t).1 =
        .again (tries p handle c left k s).1 := by
  apply tries_induct (I := fun _ => True) (Q := fun a _ => a = p.interrupted ∨ ∃ j t,
    p.judge (c j).cancelled (attempt (handle j) (c j).transit t).1 = .stop a ∨
      p.judge (c j).cancelled (attempt (handle j) (c j).transit t).1 = .again a)
  · exact fun j t a _ hjudge => .inr ⟨j, t, .inl hjudge⟩
  · exact fun j t a _ hjudge => ⟨trivial, .inr ⟨j, t, .inr hjudge⟩⟩
  · exact fun _ _ => .inl rfl
  · trivial

/-- A result of this kind is made of an answer of that kind. -/
def Policy.Vouched (p : Policy β α) (success : α → Prop) (good : β → Prop) : Prop :=
  ¬ success p.interrupted ∧ ∀ cancelled o a,
    p.judge cancelled o = .stop a ∨ p.judge cancelled o = .again a → success a →
      ∃ b, o = .answer b ∧ good b

/-- A successful result comes from an answer that the remote party has given. -/
theorem Policy.Vouched.answer {success : α → Prop} {good : β → Prop}
    (hp : p.Vouched success good) (h : success (tries p handle c left k s).1) :
    ∃ j t, good (handle j t).1 := by
  have hjudged : (tries p handle c left k s).1 = p.interrupted ∨ ∃ j t,
      p.judge (c j).cancelled (attempt (handle j) (c j).transit t).1 =
          .stop (tries p handle c left k s).1 ∨
        p.judge (c j).cancelled (attempt (handle j) (c j).transit t).1 =
          .again (tries p handle c left k s).1 := tries_judged
  rcases hjudged with hgone | ⟨j, t, hjudge⟩
  · exact absurd (hgone ▸ h) hp.1
  · obtain ⟨b, ho, hb⟩ := hp.2 _ _ _ hjudge h
    have hanswer := (attempt_answer ho).1
    exact ⟨j, t, hanswer ▸ hb⟩

/-- If a cautious client reports success, the remote party has acted exactly once. -/
theorem Policy.Cautious.exactly {refusal good : β → Prop} {success : α → Prop}
    (hp : p.Cautious refusal) (hv : p.Vouched success good) {n : σ → ℕ}
    (hrefusal : ∀ k s, refusal (handle k s).1 → n (handle k s).2 = n s)
    (hgood : ∀ k s, good (handle k s).1 → n (handle k s).2 = n s + 1) :
    success (tries p handle c left k s).1 → n (tries p handle c left k s).2 = n s + 1 := by
  have hdone : ∀ k t a, n t = n s →
      p.judge (c k).cancelled (attempt (handle k) (c k).transit t).1 = .stop a ∨
        p.judge (c k).cancelled (attempt (handle k) (c k).transit t).1 = .again a →
      success a → n (attempt (handle k) (c k).transit t).2 = n s + 1 := by
    intro k t a ht hjudge ha
    obtain ⟨b, ho, hb⟩ := hv.2 _ _ _ hjudge ha
    obtain ⟨rfl, hafter⟩ := attempt_answer ho
    have hacted := hgood k t hb
    rw [hafter]
    omega
  apply tries_induct (I := fun t => n t = n s) (Q := fun a t => success a → n t = n s + 1)
  · exact fun k t a ht hjudge => hdone k t a ht (.inl hjudge)
  · intro k t a ht hjudge
    have hsame := hp.refused hrefusal hjudge
    exact ⟨by omega, hdone k t a ht (.inr hjudge)⟩
  · exact fun t _ h => absurd h hv.1
  · rfl

/-- What handling a request leaves alone stays, however often it was tried. -/
theorem tries_same {τ : Type} {v : σ → τ} (hsame : ∀ k s, v (handle k s).2 = v s) :
    v (tries p handle c left k s).2 = v s := by
  have hkept : ∀ k t, v t = v s → v (attempt (handle k) (c k).transit t).2 = v s := by
    intro k t ht
    have hhandled := hsame k t
    rcases attempt_cases (handle k) (c k).transit t with h | h <;> rw [h]
    · exact ht
    · exact hhandled.trans ht
  apply tries_induct (I := fun t => v t = v s) (Q := fun _ t => v t = v s)
  · exact fun k t a ht _ => hkept k t ht
  · exact fun k t a ht _ => ⟨hkept k t ht, hkept k t ht⟩
  · exact fun _ ht => ht
  · rfl

/-- An idempotent request is carried out or not, however often it was tried; it has been carried
out if the result says so. -/
theorem Policy.Vouched.effect {success : α → Prop} {good : β → Prop} (hp : p.Vouched success good)
    {τ : Type} {v : σ → τ} {f : τ → τ} (hidem : ∀ x, f (f x) = f x)
    (heffect : ∀ k s, v (handle k s).2 = v s ∨ v (handle k s).2 = f (v s))
    (hgood : ∀ k s, good (handle k s).1 → v (handle k s).2 = f (v s)) :
    (v (tries p handle c left k s).2 = v s ∨ v (tries p handle c left k s).2 = f (v s)) ∧
      (success (tries p handle c left k s).1 →
        v (tries p handle c left k s).2 = f (v s)) := by
  have hkept : ∀ k t, (v t = v s ∨ v t = f (v s)) →
      v (attempt (handle k) (c k).transit t).2 = v s ∨
        v (attempt (handle k) (c k).transit t).2 = f (v s) := by
    intro k t ht
    have hhandled := heffect k t
    rcases attempt_cases (handle k) (c k).transit t with h | h <;> rw [h]
    · exact ht
    · rcases ht with ht | ht <;> rw [ht] at hhandled
      · exact hhandled
      · rw [hidem] at hhandled
        exact .inr (hhandled.elim id id)
  have hdone : ∀ k t a, (v t = v s ∨ v t = f (v s)) →
      p.judge (c k).cancelled (attempt (handle k) (c k).transit t).1 = .stop a ∨
        p.judge (c k).cancelled (attempt (handle k) (c k).transit t).1 = .again a →
      success a → v (attempt (handle k) (c k).transit t).2 = f (v s) := by
    intro k t a ht hjudge ha
    obtain ⟨b, ho, hb⟩ := hp.2 _ _ _ hjudge ha
    obtain ⟨rfl, hafter⟩ := attempt_answer ho
    have heq := hgood k t hb
    rw [hafter, heq]
    rcases ht with ht | ht <;> rw [ht]
    exact hidem _
  apply tries_induct (I := fun t => v t = v s ∨ v t = f (v s))
    (Q := fun a t => (v t = v s ∨ v t = f (v s)) ∧ (success a → v t = f (v s)))
  · exact fun k t a ht hjudge => ⟨hkept k t ht, hdone k t a ht (.inl hjudge)⟩
  · exact fun k t a ht hjudge => ⟨hkept k t ht, hkept k t ht, hdone k t a ht (.inr hjudge)⟩
  · exact fun t ht => ⟨ht, fun h => absurd h hp.1⟩
  · exact .inl rfl

end Tekir.Retries
