import Mathlib.Data.Finset.Card
import Mathlib.Order.Bounds.Basic

/-!
# Milestones

A gauge counts events in any order, and each event raises it by at most one. Whoever goes
through events in the order of their times and notes the time at which a gauge has reached a
target has found the least time by which the events so far reach it.
-/
namespace Tekir.Milestones

variable {E κ τ : Type*}

structure Gauge (E : Type*) where
  score : List E → ℕ
  nil : score [] = 0
  le_append : ∀ es e, score es ≤ score (es ++ [e])
  append_le : ∀ es e, score (es ++ [e]) ≤ score es + 1
  perm : ∀ {es es' : List E}, es.Perm es' → score es = score es'

namespace Gauge

/-- The number of events of a kind. -/
def count (p : E → Bool) : Gauge E where
  score es := es.countP p
  nil := rfl
  le_append es e := by simp [List.countP_append]
  append_le es e := by
    rw [List.countP_append, Nat.add_le_add_iff_left]
    exact List.countP_le_length
  perm h := h.countP_eq _

/-- The number of different things that the events of a kind are about. -/
def distinct [DecidableEq κ] (p : E → Bool) (key : E → κ) : Gauge E where
  score es := ((es.filter p).map key).toFinset.card
  nil := rfl
  le_append es e := by
    refine Finset.card_le_card fun k hk => ?_
    simp only [List.filter_append, List.map_append, List.toFinset_append, Finset.mem_union]
    exact .inl hk
  append_le es e := by
    have hone : ((List.filter p [e]).map key).toFinset.card ≤ 1 := by
      refine (List.toFinset_card_le _).trans ?_
      rw [List.length_map]
      exact List.length_filter_le _ _
    rw [List.filter_append, List.map_append, List.toFinset_append]
    exact (Finset.card_union_le _ _).trans (Nat.add_le_add_left hone _)
  perm h := by rw [List.toFinset_eq_of_perm _ _ ((h.filter p).map key)]

variable (g : Gauge E)

theorem le_append_list (es es' : List E) : g.score es ≤ g.score (es ++ es') := by
  induction es' generalizing es with
  | nil => simp
  | cons e es' ih =>
    rw [List.append_cons]
    exact (g.le_append es e).trans (ih (es ++ [e]))

/-- Fewer events do not score more. -/
theorem mono {es es' : List E} (h : es.Sublist es') : g.score es ≤ g.score es' := by
  obtain ⟨rest, hrest⟩ := h.exists_perm_append
  rw [g.perm hrest]
  exact g.le_append_list es rest

variable (time : E → τ) (target : ℕ)

/-- The time of the event with which the target is reached. -/
def reached (done : List E) : List E → Option τ
  | [] => none
  | e :: rest => if target ≤ g.score (done ++ [e]) then some (time e) else reached (done ++ [e]) rest

variable {g time target}

theorem reached_append (done es : List E) (e : E) :
    g.reached time target done (es ++ [e]) = (g.reached time target done es).or
      (if target ≤ g.score (done ++ es ++ [e]) then some (time e) else none) := by
  induction es generalizing done with
  | nil => simp [reached]
  | cons e' es ih =>
    rw [List.cons_append, reached, reached]
    split
    · rfl
    · rw [ih, List.append_cons done e' es]

theorem reached_eq_none {done es : List E} (hdone : g.score done < target) :
    g.reached time target done es = none ↔ g.score (done ++ es) < target := by
  induction es generalizing done with
  | nil => simpa [reached] using hdone
  | cons e es ih =>
    rw [reached]
    split
    · rename_i hreached
      refine iff_of_false nofun fun hlt => ?_
      have hle := g.le_append_list (done ++ [e]) es
      rw [← List.append_cons] at hle
      omega
    · rename_i hnot
      rw [ih (Nat.lt_of_not_le hnot), ← List.append_cons]

/-- One more event, and a note is made only of the first time at which the target is hit. -/
theorem reached_note {es : List E} (e : E) (hpos : 0 < target) :
    (g.reached time target [] es).or
      (if g.score (es ++ [e]) = target then some (time e) else none) =
        g.reached time target [] (es ++ [e]) := by
  rw [reached_append, List.nil_append]
  cases h : g.reached time target [] es with
  | some t => rfl
  | none =>
    have hlt := (reached_eq_none (by rwa [g.nil])).mp h
    rw [List.nil_append] at hlt
    have hstep := g.append_le es e
    have heq : g.score (es ++ [e]) = target ↔ target ≤ g.score (es ++ [e]) := by omega
    simp only [heq]

/-- An event that does not raise the gauge. -/
theorem reached_same {es : List E} {e : E} (hpos : 0 < target)
    (h : g.score (es ++ [e]) = g.score es) :
    g.reached time target [] (es ++ [e]) = g.reached time target [] es := by
  rw [reached_append, List.nil_append, h]
  cases hreached : g.reached time target [] es with
  | some t => rfl
  | none =>
    have hlt := (reached_eq_none (by rwa [g.nil])).mp hreached
    rw [List.nil_append] at hlt
    rw [if_neg (Nat.not_le.mpr hlt)]
    rfl

theorem exists_of_reached {done es : List E} {t : τ} (h : g.reached time target done es = some t) :
    ∃ before e after, es = before ++ e :: after ∧ time e = t ∧
      target ≤ g.score (done ++ before ++ [e]) ∧
        (g.score done < target → g.score (done ++ before) < target) := by
  induction es generalizing done with
  | nil => cases h
  | cons e es ih =>
    rw [reached] at h
    split at h
    · rename_i hreached
      refine ⟨[], e, es, rfl, Option.some.inj h, by simpa using hreached, by simp⟩
    · rename_i hnot
      obtain ⟨before, e', after, rfl, ht, hscore, hbefore⟩ := ih h
      refine ⟨e :: before, e', after, rfl, ht, by simpa using hscore, fun _ => ?_⟩
      simpa using hbefore (Nat.lt_of_not_le hnot)

/-- The target is reached at some time if it is reached at all. -/
theorem reached_isSome {es : List E} (hpos : 0 < target) :
    (g.reached time target [] es).isSome = true ↔ target ≤ g.score es := by
  rw [← Nat.not_lt, Option.isSome_iff_ne_none, not_iff_not]
  exact reached_eq_none (by rwa [g.nil])

section Order

variable [LinearOrder τ]

/-- The events up to a time. -/
def upTo (time : E → τ) (t : τ) (es : List E) : List E :=
  es.filter fun e => decide (time e ≤ t)

@[simp] theorem mem_upTo {t : τ} {es : List E} {e : E} : e ∈ upTo time t es ↔ e ∈ es ∧ time e ≤ t := by
  simp [upTo]

variable (g time target)

/-- The times by which the target is reached. -/
def reaches (es : List E) : Set τ :=
  { t | target ≤ g.score (upTo time t es) }

variable {g time target}

/-- The time that is noted is the least one by which the target is reached. -/
theorem isLeast_of_reached {es : List E} {t : τ} (hsorted : es.Pairwise fun e e' => time e ≤ time e')
    (hpos : 0 < target) (h : g.reached time target [] es = some t) :
    IsLeast (g.reaches time target es) t := by
  obtain ⟨before, e, after, rfl, rfl, hscore, hbefore⟩ := exists_of_reached h
  rw [List.nil_append] at hscore hbefore
  have hsplit := List.pairwise_append.mp hsorted
  have hafter := List.pairwise_cons.mp hsplit.2.1
  constructor
  · -- everything up to the event counts
    refine hscore.trans (g.mono ?_)
    rw [upTo, List.filter_append]
    refine List.Sublist.append ?_ ?_
    · rw [List.filter_eq_self.mpr fun e' he' => decide_eq_true (hsplit.2.2 e' he' e List.mem_cons_self)]
    · rw [List.filter_cons_of_pos (by simp)]
      exact List.singleton_sublist.mpr List.mem_cons_self
  · intro t' ht'
    by_contra hlt
    have hnone : (e :: after).filter (fun e' => decide (time e' ≤ t')) = [] := by
      refine List.filter_eq_nil_iff.mpr fun e' he' => ?_
      rcases List.mem_cons.mp he' with rfl | he'
      · simpa using lt_of_not_ge hlt
      · simpa using (lt_of_not_ge hlt).trans_le (hafter.1 e' he')
    have hle : g.score (upTo time t' (before ++ e :: after)) ≤ g.score before := by
      refine g.mono ?_
      rw [upTo, List.filter_append, hnone, List.append_nil]
      exact List.filter_sublist
    have hzero := hbefore (by rwa [g.nil])
    exact absurd (le_trans ht' hle) (Nat.not_le.mpr hzero)

theorem reached_eq_some {es : List E} {t : τ} (hsorted : es.Pairwise fun e e' => time e ≤ time e')
    (hpos : 0 < target) :
    g.reached time target [] es = some t ↔ IsLeast (g.reaches time target es) t := by
  refine ⟨isLeast_of_reached hsorted hpos, fun h => ?_⟩
  cases hreached : g.reached time target [] es with
  | none =>
    have hlt := (reached_eq_none (by rwa [g.nil])).mp hreached
    have hle := g.mono (List.filter_sublist (p := fun e => decide (time e ≤ t)) (l := es))
    exact absurd (h.1.trans hle) (Nat.not_le.mpr hlt)
  | some t' => rw [(isLeast_of_reached hsorted hpos hreached).unique h]

end Order

end Gauge

end Tekir.Milestones
