import Mathlib.Data.List.Basic
import Tekir.Machine

/-!
# Event loops

One thread carries out code by turns. A turn runs to the points at which the code waits for
something; what waits there is kept with what it holds, and goes on in a later turn, once its
answer has come. Calls may come in at any time and answers in any order.
-/
namespace Tekir.EventLoop
open Machine

variable {σ τ ι ρ : Type*}

/-- Code by its turns: what a call and what an answer do to the state, and what waits then. -/
structure Handlers (σ τ ι ρ : Type*) where
  call : σ → ι → Option (σ × List τ)
  resume : σ → τ → ρ → Option (σ × List τ)

structure Loop (σ τ : Type*) where
  state : σ
  waiting : List τ := []

inductive Event (ι ρ : Type*)
  | call (i : ι)
  /-- The answer to the `k`-th of those that wait, the longest waiting first. -/
  | answer (k : ℕ) (r : ρ)

namespace Handlers

variable (H : Handlers σ τ ι ρ)

def next (l : Loop σ τ) : Event ι ρ → Option (Loop σ τ)
  | .call i => (H.call l.state i).map fun t => ⟨t.1, l.waiting ++ t.2⟩
  | .answer k r => (l.waiting[k]?).bind fun w =>
      (H.resume l.state w r).map fun t => ⟨t.1, l.waiting.eraseIdx k ++ t.2⟩

variable {H}

theorem next_call {l l' : Loop σ τ} {i : ι} : H.next l (.call i) = some l' ↔
    ∃ s ws, H.call l.state i = some (s, ws) ∧ l' = ⟨s, l.waiting ++ ws⟩ := by
  constructor
  · intro h
    obtain ⟨⟨s, ws⟩, hcall, rfl⟩ := Option.map_eq_some_iff.mp h
    exact ⟨s, ws, hcall, rfl⟩
  · rintro ⟨s, ws, hcall, rfl⟩
    exact Option.map_eq_some_iff.mpr ⟨(s, ws), hcall, rfl⟩

theorem next_answer {l l' : Loop σ τ} {k : ℕ} {r : ρ} : H.next l (.answer k r) = some l' ↔
    ∃ w s ws, l.waiting[k]? = some w ∧ H.resume l.state w r = some (s, ws) ∧
      l' = ⟨s, l.waiting.eraseIdx k ++ ws⟩ := by
  constructor
  · intro h
    obtain ⟨w, hw, h⟩ := Option.bind_eq_some_iff.mp h
    obtain ⟨⟨s, ws⟩, hresume, rfl⟩ := Option.map_eq_some_iff.mp h
    exact ⟨w, s, ws, hw, hresume, rfl⟩
  · rintro ⟨w, s, ws, hw, hresume, rfl⟩
    exact Option.bind_eq_some_iff.mpr
      ⟨w, hw, Option.map_eq_some_iff.mpr ⟨(s, ws), hresume, rfl⟩⟩

end Handlers

/-- What a run may be asked to respect, turn by turn. -/
structure Guard (σ τ ι ρ : Type*) where
  call : σ → ι → Prop := fun _ _ => True
  answer : σ → τ → ρ → Prop := fun _ _ _ => True

namespace Guard

variable (G : Guard σ τ ι ρ)

def Admits (l : Loop σ τ) : Event ι ρ → Prop
  | .call i => G.call l.state i
  | .answer k r => ∀ w ∈ l.waiting[k]?, G.answer l.state w r

instance [∀ s i, Decidable (G.call s i)] [∀ s w r, Decidable (G.answer s w r)]
    (l : Loop σ τ) : (e : Event ι ρ) → Decidable (G.Admits l e)
  | .call i => inferInstanceAs (Decidable (G.call l.state i))
  | .answer k r => decidable_of_iff ((l.waiting[k]?).all fun w => decide (G.answer l.state w r))
      (by simp only [Admits, Option.mem_def]; cases l.waiting[k]? <;> simp)

end Guard

namespace Guard

/-- What two guards admit. -/
def and (G G' : Guard σ τ ι ρ) : Guard σ τ ι ρ where
  call s i := G.call s i ∧ G'.call s i
  answer s w r := G.answer s w r ∧ G'.answer s w r

theorem each_and {H : Handlers σ τ ι ρ} {G G' : Guard σ τ ι ρ} {l : Loop σ τ}
    {es : List (Event ι ρ)} (h : Each H.next G.Admits l es) (h' : Each H.next G'.Admits l es) :
    Each H.next (G.and G').Admits l es := by
  induction es generalizing l with
  | nil => trivial
  | cons e es ih =>
    intro l' hl'
    obtain ⟨hadmits, hrest⟩ := h l' hl'
    obtain ⟨hadmits', hrest'⟩ := h' l' hl'
    refine ⟨?_, ih hrest hrest'⟩
    cases e with
    | call i => exact ⟨hadmits, hadmits'⟩
    | answer k r => exact fun w hw => ⟨hadmits w hw, hadmits' w hw⟩

end Guard

/-- A state, and what waits beside it. -/
structure Held (I : σ → Prop) (J : σ → τ → Prop) (l : Loop σ τ) : Prop where
  state : I l.state
  waiting : ∀ w ∈ l.waiting, J l.state w

/-- A turn keeps the invariant, for the state, for those that go on waiting and for the new. -/
structure Keeps (I : σ → Prop) (J : σ → τ → Prop) (s : σ) (t : σ × List τ) : Prop where
  state : I t.1
  others : ∀ w, J s w → J t.1 w
  new : ∀ w ∈ t.2, J t.1 w

variable {H : Handlers σ τ ι ρ} {G : Guard σ τ ι ρ} {I : σ → Prop} {J : σ → τ → Prop}

/-- Turns that the guard admits and that keep the invariant keep it all along. -/
theorem Held.always
    (call : ∀ s i t, I s → G.call s i → H.call s i = some t → Keeps I J s t)
    (answer : ∀ s w r t, I s → J s w → G.answer s w r → H.resume s w r = some t → Keeps I J s t)
    {l : Loop σ τ} {es : List (Event ι ρ)} (hl : Held I J l) (h : Each H.next G.Admits l es) :
    Always H.next (Held I J) l es := by
  refine Each.always (fun l e l' hl hg hnext => ?_) hl h
  cases e with
  | call i =>
    obtain ⟨s, ws, hcall, rfl⟩ := Handlers.next_call.mp hnext
    have hkeeps := call l.state i (s, ws) hl.state hg hcall
    refine ⟨hkeeps.state, fun w hw => ?_⟩
    rcases List.mem_append.mp hw with hw | hw
    · exact hkeeps.others w (hl.waiting w hw)
    · exact hkeeps.new w hw
  | answer k r =>
    obtain ⟨w, s, ws, hw, hresume, rfl⟩ := Handlers.next_answer.mp hnext
    have hkeeps := answer l.state w r (s, ws) hl.state
      (hl.waiting w (List.mem_of_getElem? hw)) (hg w hw) hresume
    refine ⟨hkeeps.state, fun w' hw' => ?_⟩
    rcases List.mem_append.mp hw' with hw' | hw'
    · exact hkeeps.others w' (hl.waiting w' (List.mem_of_mem_eraseIdx hw'))
    · exact hkeeps.new w' hw'

section Owed

variable {κ : Type*} {owes : σ → κ → Prop} {tag : τ → κ}

/-- Whatever the state owes an answer waits for one. -/
def Owed (owes : σ → κ → Prop) (tag : τ → κ) (l : Loop σ τ) : Prop :=
  ∀ k, owes l.state k → ∃ w ∈ l.waiting, tag w = k

/-- A debt is taken on by what is new, and only what is answered is paid. -/
theorem Owed.always
    (call : ∀ s i t, I s → G.call s i → H.call s i = some t → ∀ k, owes t.1 k →
      owes s k ∨ ∃ w ∈ t.2, tag w = k)
    (answer : ∀ s w r t, I s → J s w → G.answer s w r → H.resume s w r = some t → ∀ k, owes t.1 k →
      (owes s k ∧ tag w ≠ k) ∨ ∃ w' ∈ t.2, tag w' = k)
    {l : Loop σ τ} {es : List (Event ι ρ)} (hl : Owed owes tag l)
    (hheld : Always H.next (Held I J) l es) (h : Each H.next G.Admits l es) :
    Always H.next (Owed owes tag) l es := by
  induction es generalizing l with
  | nil => exact hl
  | cons e es ih =>
    refine ⟨hl, fun l' hnext => ih (fun k hk => ?_) (hheld.2 l' hnext) (h l' hnext).2⟩
    have hg := (h l' hnext).1
    cases e with
    | call i =>
      obtain ⟨s, ws, hcall, rfl⟩ := Handlers.next_call.mp hnext
      rcases call l.state i (s, ws) hheld.start.state hg hcall k hk with hk | ⟨w, hw, htag⟩
      · obtain ⟨w, hw, htag⟩ := hl k hk
        exact ⟨w, List.mem_append_left ws hw, htag⟩
      · exact ⟨w, List.mem_append_right l.waiting hw, htag⟩
    | answer n r =>
      obtain ⟨w, s, ws, hw, hresume, rfl⟩ := Handlers.next_answer.mp hnext
      rcases answer l.state w r (s, ws) hheld.start.state
        (hheld.start.waiting w (List.mem_of_getElem? hw)) (hg w hw) hresume k hk with
        ⟨hk, hne⟩ | ⟨w', hw', htag⟩
      · obtain ⟨w', hw', htag⟩ := hl k hk
        refine ⟨w', List.mem_append_left ws ?_, htag⟩
        -- what was answered has another tag, so it was not this one
        obtain ⟨m, hm⟩ := List.mem_iff_getElem?.mp hw'
        refine List.mem_eraseIdx_iff_getElem?.mpr ⟨m, ?_, hm⟩
        rintro rfl
        rw [hw] at hm
        cases hm
        exact hne htag
      · exact ⟨w', List.mem_append_right _ hw', htag⟩

end Owed

section Apart

variable {R : τ → τ → Prop}

/-- A state and what waits beside it, of which no two are alike. -/
structure HeldApart (I : σ → Prop) (J : σ → τ → Prop) (R : τ → τ → Prop) (l : Loop σ τ) : Prop
    extends Held I J l where
  apart : l.waiting.Pairwise R

/-- What a turn keeps; `O` is what is known of those that go on waiting. -/
structure KeepsApart (I : σ → Prop) (J : σ → τ → Prop) (R : τ → τ → Prop) (s : σ) (O : τ → Prop)
    (t : σ × List τ) : Prop where
  state : I t.1
  others : ∀ w, J s w → O w → J t.1 w ∧ ∀ w' ∈ t.2, R w w'
  new : ∀ w ∈ t.2, J t.1 w
  apart : t.2.Pairwise R

theorem apart_of_mem_eraseIdx (symm : ∀ w w', R w w' → R w' w) {ws : List τ} (h : ws.Pairwise R)
    {k : ℕ} {w w' : τ} (hw : ws[k]? = some w) (hw' : w' ∈ ws.eraseIdx k) : R w w' := by
  obtain ⟨m, hne, hm⟩ := List.mem_eraseIdx_iff_getElem?.mp hw'
  obtain ⟨hk, rfl⟩ := List.getElem?_eq_some_iff.mp hw
  obtain ⟨hm', rfl⟩ := List.getElem?_eq_some_iff.mp hm
  rcases Nat.lt_or_gt_of_ne hne with hlt | hlt
  · exact symm _ _ (List.pairwise_iff_getElem.mp h m k hm' hk hlt)
  · exact List.pairwise_iff_getElem.mp h k m hk hm' hlt

theorem HeldApart.always (symm : ∀ w w', R w w' → R w' w)
    (call : ∀ s i t, I s → G.call s i → H.call s i = some t →
      KeepsApart I J R s (fun _ => True) t)
    (answer : ∀ s w r t, I s → J s w → G.answer s w r → H.resume s w r = some t →
      KeepsApart I J R s (R w) t)
    {l : Loop σ τ} {es : List (Event ι ρ)} (hl : HeldApart I J R l) (h : Each H.next G.Admits l es) :
    Always H.next (HeldApart I J R) l es := by
  have keeps : ∀ {s : σ} {O : τ → Prop} {t : σ × List τ} {ws : List τ}, KeepsApart I J R s O t →
      (∀ w ∈ ws, J s w ∧ O w) → ws.Pairwise R → HeldApart I J R ⟨t.1, ws ++ t.2⟩ := by
    intro s O t ws ht hws hapart
    refine ⟨⟨ht.state, fun w hw => ?_⟩, List.pairwise_append.mpr ⟨hapart, ht.apart, fun w hw => ?_⟩⟩
    · rcases List.mem_append.mp hw with hw | hw
      · exact (ht.others w (hws w hw).1 (hws w hw).2).1
      · exact ht.new w hw
    · exact (ht.others w (hws w hw).1 (hws w hw).2).2
  refine Each.always (fun l e l' hl hg hnext => ?_) hl h
  cases e with
  | call i =>
    obtain ⟨s, ws, hcall, rfl⟩ := Handlers.next_call.mp hnext
    exact keeps (call l.state i (s, ws) hl.state hg hcall)
      (fun w hw => ⟨hl.waiting w hw, trivial⟩) hl.apart
  | answer k r =>
    obtain ⟨w, s, ws, hw, hresume, rfl⟩ := Handlers.next_answer.mp hnext
    exact keeps (answer l.state w r (s, ws) hl.state (hl.waiting w (List.mem_of_getElem? hw))
        (hg w hw) hresume)
      (fun w' hw' => ⟨hl.waiting w' (List.mem_of_mem_eraseIdx hw'),
        apart_of_mem_eraseIdx symm hl.apart hw hw'⟩)
      (hl.apart.sublist (List.eraseIdx_sublist ..))

end Apart

end Tekir.EventLoop
