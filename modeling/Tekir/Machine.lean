import Mathlib.Logic.Basic
import Mathlib.Data.Option.Basic

/-!
# Labelled machines and their executions

A machine is a partial next-state function: `none` means that the action is not
enabled. Safety is stated along a whole execution, and the rules below reduce it
to what one action does. `always_iff_each` is the exact form: when one action
keeps the property precisely if a guard admits it, a whole execution keeps the
property precisely if the guard admits every action carried out.
-/
namespace Tekir.Machine

variable {σ α : Type*} {next : σ → α → Option σ}

/-- Carry out the actions in order. -/
def exec (next : σ → α → Option σ) : σ → List α → Option σ
  | s, [] => some s
  | s, a :: as => (next s a).bind fun t => exec next t as

/-- `P` holds in every state the execution passes through. -/
def Always (next : σ → α → Option σ) (P : σ → Prop) : σ → List α → Prop
  | s, [] => P s
  | s, a :: as => P s ∧ ∀ t, next s a = some t → Always next P t as

/-- `C` admits every action the execution carries out, in the state it finds. -/
def Each (next : σ → α → Option σ) (C : σ → α → Prop) : σ → List α → Prop
  | _, [] => True
  | s, a :: as => ∀ t, next s a = some t → C s a ∧ Each next C t as

instance decidableEach {C : σ → α → Prop} [∀ s a, Decidable (C s a)] :
    (s : σ) → (as : List α) → Decidable (Each next C s as)
  | _, [] => isTrue trivial
  | s, a :: as =>
    match h : next s a with
    | none => isTrue fun t ht => by simp [h] at ht
    | some t =>
      have : Decidable (Each next C t as) := decidableEach t as
      decidable_of_iff (C s a ∧ Each next C t as) (by simp [Each, h])

/-- The states some execution from an initial state ends in. -/
def Reachable (next : σ → α → Option σ) (init : σ → Prop) (s : σ) : Prop :=
  ∃ s₀ as, init s₀ ∧ exec next s₀ as = some s

@[simp] theorem exec_nil (s : σ) : exec next s [] = some s := rfl

@[simp] theorem exec_cons (s : σ) (a : α) (as : List α) :
    exec next s (a :: as) = (next s a).bind fun t => exec next t as := rfl

/-- A test of the final state that succeeds says that there is one. -/
theorem exists_of_exec_test (next : σ → α → Option σ) (s : σ) (as : List α) (p : σ → Bool)
    (h : (exec next s as).map p = some true) : ∃ t, exec next s as = some t ∧ p t = true := by
  obtain ⟨t, ht, hp⟩ := Option.map_eq_some_iff.mp h
  exact ⟨t, ht, hp⟩

theorem exec_append (s : σ) (as bs : List α) :
    exec next s (as ++ bs) = (exec next s as).bind fun t => exec next t bs := by
  induction as generalizing s with
  | nil => rfl
  | cons a as ih => cases h : next s a <;> simp [h, ih]

theorem Always.start {P : σ → Prop} {s : σ} {as : List α} (h : Always next P s as) : P s := by
  cases as with
  | nil => exact h
  | cons a as => exact h.1

/-- A property of every state passed through holds after every prefix. -/
theorem Always.at_prefix {P : σ → Prop} {s t : σ} {as bs : List α}
    (h : Always next P s (as ++ bs)) (ht : exec next s as = some t) : P t := by
  induction as generalizing s with
  | nil =>
    cases ht
    exact h.start
  | cons a as ih =>
    obtain ⟨u, hu, hut⟩ := Option.bind_eq_some_iff.mp ht
    exact ih (h.2 u hu) hut

theorem Always.final {P : σ → Prop} {s t : σ} {as : List α} (h : Always next P s as)
    (ht : exec next s as = some t) : P t := by
  rw [← List.append_nil as] at h
  exact h.at_prefix ht

/-- A run that ends outside of `P` refutes that `P` always holds. -/
theorem not_always_of_test {P : σ → Prop} [DecidablePred P] {s : σ} {as : List α}
    (h : (exec next s as).map (fun t => decide (P t)) = some false) : ¬ Always next P s as := by
  obtain ⟨t, ht, hP⟩ := Option.map_eq_some_iff.mp h
  exact fun halways => of_decide_eq_false hP (halways.final ht)

theorem Always.mono {P Q : σ → Prop} (hPQ : ∀ s, P s → Q s) {s : σ} {as : List α}
    (h : Always next P s as) : Always next Q s as := by
  induction as generalizing s with
  | nil => exact hPQ s h
  | cons a as ih => exact ⟨hPQ s h.1, fun t ht => ih (h.2 t ht)⟩

/-- An invariant that every admitted action keeps holds along the execution. -/
theorem Each.always {I : σ → Prop} {C : σ → α → Prop}
    (step : ∀ s a t, I s → C s a → next s a = some t → I t)
    {s : σ} {as : List α} (hs : I s) (h : Each next C s as) : Always next I s as := by
  induction as generalizing s with
  | nil => exact hs
  | cons a as ih =>
    refine ⟨hs, fun t ht => ?_⟩
    obtain ⟨hc, hrest⟩ := h t ht
    exact ih (step s a t hs hc ht) hrest

/-- An invariant that every action keeps holds along every execution. -/
theorem always_of_step {I : σ → Prop} (step : ∀ s a t, I s → next s a = some t → I t) {s : σ}
    (hs : I s) (as : List α) : Always next I s as := by
  induction as generalizing s with
  | nil => exact hs
  | cons a as ih => exact ⟨hs, fun t ht => ih (step s a t hs ht)⟩

theorem Always.and {P Q : σ → Prop} {s : σ} {as : List α} (hP : Always next P s as)
    (hQ : Always next Q s as) : Always next (fun s => P s ∧ Q s) s as := by
  induction as generalizing s with
  | nil => exact ⟨hP, hQ⟩
  | cons a as ih => exact ⟨⟨hP.1, hQ.1⟩, fun t ht => ih (hP.2 t ht) (hQ.2 t ht)⟩

/-- The actions of the execution meet what all actions of the list meet. -/
theorem Each.and_forall {C : σ → α → Prop} {D : α → Prop} {s : σ} {as : List α}
    (h : Each next C s as) (hall : ∀ a ∈ as, D a) : Each next (fun s a => C s a ∧ D a) s as := by
  induction as generalizing s with
  | nil => trivial
  | cons a as ih =>
    intro t ht
    obtain ⟨hc, hrest⟩ := h t ht
    exact ⟨⟨hc, hall a List.mem_cons_self⟩,
      ih hrest fun a' ha' => hall a' (List.mem_cons_of_mem _ ha')⟩

/-- The guard admits each single action carried out. -/
theorem Each.at_prefix {C : σ → α → Prop} {s t : σ} {a : α} {as bs : List α}
    (h : Each next C s (as ++ a :: bs)) (ht : exec next s as = some t) {u : σ}
    (hu : next t a = some u) : C t a := by
  induction as generalizing s with
  | nil =>
    cases ht
    exact (h u hu).1
  | cons a' as ih =>
    obtain ⟨r, hr, hrt⟩ := Option.bind_eq_some_iff.mp ht
    exact ih (h r hr).2 hrt

/-- The exact form. `J` is what every action keeps; under it an action keeps `P`
precisely if `C` admits it, and then so does a whole execution. -/
theorem always_iff_each {J P : σ → Prop} {C : σ → α → Prop}
    (keep : ∀ s a t, J s → next s a = some t → J t)
    (exact : ∀ s a t, J s → P s → next s a = some t → (P t ↔ C s a))
    {s : σ} {as : List α} (hJ : J s) (hP : P s) :
    Always next P s as ↔ Each next C s as := by
  induction as generalizing s with
  | nil => exact ⟨fun _ => trivial, fun _ => hP⟩
  | cons a as ih =>
    constructor
    · intro h t ht
      have hPt : P t := (h.2 t ht).start
      exact ⟨(exact s a t hJ hP ht).mp hPt, (ih (keep s a t hJ ht) hPt).mp (h.2 t ht)⟩
    · intro h
      refine ⟨hP, fun t ht => ?_⟩
      obtain ⟨hc, hrest⟩ := h t ht
      have hPt : P t := (exact s a t hJ hP ht).mpr hc
      exact (ih (keep s a t hJ ht) hPt).mpr hrest

theorem exec_induct {I : σ → Prop} (step : ∀ s a t, I s → next s a = some t → I t)
    {s t : σ} {as : List α} (hs : I s) (h : exec next s as = some t) : I t := by
  induction as generalizing s with
  | nil =>
    cases h
    exact hs
  | cons a as ih =>
    obtain ⟨u, hu, hut⟩ := Option.bind_eq_some_iff.mp h
    exact ih (step s a u hs hu) hut

/-- A property no action undoes, and every action that `C` does not admit brings about: an
execution that ends without it has admitted actions only. -/
theorem each_of_final {B : σ → Prop} {C : σ → α → Prop}
    (stays : ∀ s a t, B s → next s a = some t → B t)
    (arises : ∀ s a t, ¬ C s a → next s a = some t → B t)
    {s t : σ} {as : List α} (h : exec next s as = some t) (ht : ¬ B t) : Each next C s as := by
  induction as generalizing s with
  | nil => trivial
  | cons a as ih =>
    obtain ⟨u, hu, hut⟩ := Option.bind_eq_some_iff.mp h
    intro u' hu'
    obtain rfl : u = u' := by simpa [hu] using hu'
    refine ⟨?_, ih hut⟩
    by_contra hc
    exact ht (exec_induct stays (arises s a u hc hu) hut)

/-- What holds initially and is kept by every action holds in every reachable state. -/
theorem Reachable.induct {init I : σ → Prop} (base : ∀ s, init s → I s)
    (step : ∀ s a t, I s → next s a = some t → I t) {s : σ}
    (h : Reachable next init s) : I s := by
  obtain ⟨s₀, as, h₀, has⟩ := h
  exact exec_induct step (base s₀ h₀) has

theorem Reachable.step {init : σ → Prop} {s t : σ} {a : α}
    (h : Reachable next init s) (ht : next s a = some t) : Reachable next init t := by
  obtain ⟨s₀, as, h₀, has⟩ := h
  exact ⟨s₀, as ++ [a], h₀, by simp [exec_append, has, ht]⟩

end Tekir.Machine
