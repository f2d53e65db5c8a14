import Mathlib.Data.List.Basic
import Mathlib.Data.List.Pairwise
import Mathlib.Data.List.Sort

/-!
# Tables as lists of rows

Unique indexes, foreign keys and the row-level statements that a relational
store runs. A key is optional: a row whose key is `none` lies outside a partial
unique index, and a foreign key that is `none` refers to nothing.
-/
namespace Tekir.Table

variable {α β κ : Type*}

/-- `update ... set ... where`: rewrite the rows that match. -/
def updateWhere (p : α → Bool) (f : α → α) (rows : List α) : List α :=
  rows.map fun r => if p r then f r else r

/-- `delete ... where`: drop the rows that match. -/
def deleteWhere (p : α → Bool) (rows : List α) : List α :=
  rows.filter fun r => !p r

/-- `order by`: `before` says which of two rows comes first. -/
def orderBy (before : α → α → Bool) (rows : List α) : List α :=
  rows.insertionSort fun a b => before a b = true

/-- A unique index on `key`. -/
def UniqueOn (key : α → Option κ) (rows : List α) : Prop :=
  rows.Pairwise fun a b => key a = none ∨ key a ≠ key b

/-- A foreign key `fk` into the primary key `pk` of `parents`. -/
def References (fk : α → Option κ) (rows : List α) (pk : β → κ) (parents : List β) : Prop :=
  ∀ r ∈ rows, ∀ k ∈ fk r, ∃ p ∈ parents, pk p = k

/-- Every row agrees with an earlier row on the columns `g`. -/
def Inherited (g : α → κ) (rows rows' : List α) : Prop :=
  ∀ r' ∈ rows', ∃ r ∈ rows, g r = g r'

instance [DecidableEq κ] (key : α → Option κ) (rows : List α) : Decidable (UniqueOn key rows) :=
  inferInstanceAs (Decidable (rows.Pairwise _))

instance [DecidableEq κ] (fk : α → Option κ) (rows : List α) (pk : β → κ) (parents : List β) :
    Decidable (References fk rows pk parents) :=
  inferInstanceAs (Decidable (∀ r ∈ rows, ∀ k ∈ fk r, ∃ p ∈ parents, pk p = k))

@[simp] theorem mem_deleteWhere {p : α → Bool} {rows : List α} {r : α} :
    r ∈ deleteWhere p rows ↔ r ∈ rows ∧ p r = false := by
  simp [deleteWhere]

@[simp] theorem mem_updateWhere {p : α → Bool} {f : α → α} {rows : List α} {r : α} :
    r ∈ updateWhere p f rows ↔ ∃ q ∈ rows, (if p q then f q else q) = r := by
  simp [updateWhere]

@[simp] theorem mem_orderBy {before : α → α → Bool} {rows : List α} {r : α} :
    r ∈ orderBy before rows ↔ r ∈ rows := by
  simp [orderBy]

/-- A delete that matches nothing changes nothing. -/
theorem deleteWhere_eq_self {p : α → Bool} {rows : List α} (h : ∀ r ∈ rows, p r = false) :
    deleteWhere p rows = rows := by
  refine List.filter_eq_self.mpr fun r hr => ?_
  simp [h r hr]

theorem updateWhere_eq_self {p : α → Bool} {f : α → α} {rows : List α}
    (h : ∀ r ∈ rows, p r = false) : updateWhere p f rows = rows := by
  rw [updateWhere, List.map_congr_left (g := id) fun r hr => by simp [h r hr], List.map_id]

/-- Rewriting rows leaves every column alone that the assignment leaves alone. -/
theorem map_updateWhere {p : α → Bool} {f : α → α} {g : α → κ} (h : ∀ r, g (f r) = g r)
    (rows : List α) : (updateWhere p f rows).map g = rows.map g := by
  simp only [updateWhere, List.map_map]
  refine List.map_congr_left fun r _ => ?_
  by_cases hp : p r <;> simp [hp, h]

/-- A statement on rows outside a selection that moves none into it leaves the selection alone. -/
theorem filter_updateWhere {p q : α → Bool} {f : α → α} {rows : List α}
    (h : ∀ r ∈ rows, p r = true → q r = false ∧ q (f r) = false) :
    (updateWhere p f rows).filter q = rows.filter q := by
  induction rows with
  | nil => rfl
  | cons r rows ih =>
    have ih := ih fun r' hr' => h r' (List.mem_cons_of_mem _ hr')
    have hr := h r List.mem_cons_self
    simp only [updateWhere, List.map_cons, List.filter_cons] at ih ⊢
    cases hp : p r with
    | true => simp [hr hp, ih]
    | false => simp [ih]

/-- A statement on rows outside a selection keeps the selection. -/
theorem filter_sublist_updateWhere {p q : α → Bool} {f : α → α} {rows : List α}
    (h : ∀ r ∈ rows, p r = true → q r = false) :
    (rows.filter q).Sublist ((updateWhere p f rows).filter q) := by
  induction rows with
  | nil => exact List.Sublist.refl _
  | cons r rows ih =>
    have ih := ih fun r' hr' => h r' (List.mem_cons_of_mem _ hr')
    have hr := h r List.mem_cons_self
    simp only [updateWhere, List.map_cons, List.filter_cons] at ih ⊢
    cases hp : p r with
    | true =>
      rw [hr hp]
      cases hq : q (f r) with
      | true => simpa [hq] using ih.cons (f r)
      | false => simpa [hq] using ih
    | false =>
      cases hq : q r with
      | true => simpa [hq] using ih.cons_cons r
      | false => simpa [hq] using ih

theorem UniqueOn.filter {key : α → Option κ} {rows : List α} (h : UniqueOn key rows)
    (p : α → Bool) : UniqueOn key (rows.filter p) :=
  List.Pairwise.filter p h

theorem UniqueOn.deleteWhere {key : α → Option κ} {rows : List α} (h : UniqueOn key rows)
    (p : α → Bool) : UniqueOn key (deleteWhere p rows) :=
  h.filter _

theorem uniqueOn_append_singleton {key : α → Option κ} {rows : List α} {r : α} :
    UniqueOn key (rows ++ [r]) ↔
      UniqueOn key rows ∧ ∀ q ∈ rows, key q = none ∨ key q ≠ key r := by
  simp [UniqueOn, List.pairwise_append]

theorem UniqueOn.updateWhere {key : α → Option κ} {rows : List α} (h : UniqueOn key rows)
    (p : α → Bool) {f : α → α} (hf : ∀ r, key (f r) = key r) :
    UniqueOn key (updateWhere p f rows) := by
  have hk : ∀ r, key (if p r then f r else r) = key r := by
    intro r
    by_cases hp : p r <;> simp [hp, hf]
  refine List.pairwise_map.mpr (List.Pairwise.imp ?_ h)
  intro a b hab
  simpa only [hk] using hab

/-- Two rows under one key of a unique index are the same row. -/
theorem UniqueOn.eq_of_key_eq {key : α → Option κ} {rows : List α} (h : UniqueOn key rows)
    {a b : α} (ha : a ∈ rows) (hb : b ∈ rows) (hk : key a = key b) (hs : key a ≠ none) :
    a = b := by
  induction rows with
  | nil => cases ha
  | cons r rows ih =>
    obtain ⟨hr, hrows⟩ := List.pairwise_cons.mp h
    rcases List.mem_cons.mp ha with rfl | ha' <;> rcases List.mem_cons.mp hb with rfl | hb'
    · rfl
    · rcases hr b hb' with hn | hn
      · exact absurd hn hs
      · exact absurd hk hn
    · rcases hr a ha' with hn | hn
      · exact absurd (hk.trans hn) hs
      · exact absurd hk.symm hn
    · exact ih hrows ha' hb'

/-- A unique index admits at most one row under a key. -/
theorem UniqueOn.length_filter_le_one {key : α → Option κ} {rows : List α}
    (h : UniqueOn key rows) {p : α → Bool} {k : κ} (hp : ∀ r ∈ rows, p r = true → key r = some k) :
    (rows.filter p).length ≤ 1 := by
  have hu : UniqueOn key (rows.filter p) := h.filter p
  have hk : ∀ r ∈ rows.filter p, key r = some k := by
    intro r hr
    obtain ⟨hmem, hpr⟩ := List.mem_filter.mp hr
    exact hp r hmem hpr
  cases hrows : rows.filter p with
  | nil => simp
  | cons a as =>
    cases as with
    | nil => simp
    | cons b bs =>
      rw [hrows] at hu hk
      have hab := (List.pairwise_cons.mp hu).1 b List.mem_cons_self
      have ha : key a = some k := hk a List.mem_cons_self
      have hb : key b = some k := hk b (List.mem_cons_of_mem _ List.mem_cons_self)
      simp [ha, hb] at hab

theorem references_append_singleton {fk : α → Option κ} {rows : List α} {r : α} {pk : β → κ}
    {parents : List β} :
    References fk (rows ++ [r]) pk parents ↔
      References fk rows pk parents ∧ ∀ k ∈ fk r, ∃ p ∈ parents, pk p = k := by
  simp [References, or_imp, forall_and]

theorem References.deleteWhere_child {fk : α → Option κ} {rows : List α} {pk : β → κ}
    {parents : List β} {p : α → Bool} (h : References fk rows pk parents) :
    References fk (deleteWhere p rows) pk parents :=
  fun r hr => h r (mem_deleteWhere.mp hr).1

/-- Dropping parents is safe when no remaining row refers to a dropped one. -/
theorem References.deleteWhere_parent {fk : α → Option κ} {rows : List α} {pk : β → κ}
    {parents : List β} (h : References fk rows pk parents) {p : β → Bool}
    (hsafe : ∀ r ∈ rows, ∀ q ∈ parents, pk q ∈ fk r → p q = false) :
    References fk rows pk (deleteWhere p parents) := by
  intro r hr k hk
  obtain ⟨q, hq, rfl⟩ := h r hr k hk
  exact ⟨q, mem_deleteWhere.mpr ⟨hq, hsafe r hr q hq hk⟩, rfl⟩

/-- Rewriting parents is safe when their primary key stays. -/
theorem References.updateWhere_parent {fk : α → Option κ} {rows : List α} {pk : β → κ}
    {parents : List β} (h : References fk rows pk parents) (p : β → Bool) {f : β → β}
    (hf : ∀ q, pk (f q) = pk q) : References fk rows pk (updateWhere p f parents) := by
  intro r hr k hk
  obtain ⟨q, hq, rfl⟩ := h r hr k hk
  refine ⟨_, mem_updateWhere.mpr ⟨q, hq, rfl⟩, ?_⟩
  by_cases hp : p q <;> simp [hp, hf]

theorem References.append_parent {fk : α → Option κ} {rows : List α} {pk : β → κ}
    {parents : List β} (h : References fk rows pk parents) (new : List β) :
    References fk rows pk (parents ++ new) := by
  intro r hr k hk
  obtain ⟨q, hq, hqk⟩ := h r hr k hk
  exact ⟨q, List.mem_append_left _ hq, hqk⟩

/-- Rewriting rows is safe when the foreign key stays or is set to a parent. -/
theorem References.updateWhere_set {fk : α → Option κ} {rows : List α} {pk : β → κ}
    {parents : List β} (h : References fk rows pk parents) {p : α → Bool} {f : α → α} {k₀ : κ}
    (hk₀ : ∃ q ∈ parents, pk q = k₀) (hf : ∀ r, fk (f r) = fk r ∨ fk (f r) = some k₀) :
    References fk (updateWhere p f rows) pk parents := by
  intro r hr k hk
  obtain ⟨q, hq, rfl⟩ := mem_updateWhere.mp hr
  by_cases hp : p q
  · simp only [hp, if_true] at hk
    rcases hf q with hs | hs
    · exact h q hq k (hs ▸ hk)
    · rw [hs] at hk
      exact Option.mem_some.mp hk ▸ hk₀
  · simp only [hp, Bool.false_eq_true, if_false] at hk
    exact h q hq k hk

/-- Rewriting rows is safe for an index that no longer holds the rewritten ones. -/
theorem UniqueOn.updateWhere_none {key : α → Option κ} {rows : List α} (h : UniqueOn key rows)
    {p : α → Bool} {f : α → α} (hf : ∀ r ∈ rows, p r = true → key (f r) = none) :
    UniqueOn key (Table.updateWhere p f rows) := by
  refine List.pairwise_map.mpr (h.imp_of_mem fun {a b} ha hb hab => ?_)
  by_cases hpa : p a
  · exact .inl (by simp [hpa, hf a ha hpa])
  · by_cases hpb : p b
    · simp only [hpa, Bool.false_eq_true, if_false, hpb, if_true, hf b hb hpb]
      exact (em _)
    · simpa [hpa, hpb] using hab

/-- Rewriting rows is safe when the foreign key stays or is cleared. -/
theorem References.updateWhere_child {fk : α → Option κ} {rows : List α} {pk : β → κ}
    {parents : List β} (h : References fk rows pk parents) (p : α → Bool) {f : α → α}
    (hf : ∀ r, fk (f r) = fk r ∨ fk (f r) = none) :
    References fk (updateWhere p f rows) pk parents := by
  intro r hr k hk
  obtain ⟨q, hq, rfl⟩ := mem_updateWhere.mp hr
  by_cases hp : p q
  · simp only [hp, if_true] at hk
    rcases hf q with hs | hs
    · exact h q hq k (hs ▸ hk)
    · rw [hs] at hk
      cases hk
  · simp only [hp, Bool.false_eq_true, if_false] at hk
    exact h q hq k hk

theorem Inherited.refl (g : α → κ) (rows : List α) : Inherited g rows rows :=
  fun r hr => ⟨r, hr, rfl⟩

theorem Inherited.trans {g : α → κ} {rows rows' rows'' : List α} (h : Inherited g rows rows')
    (h' : Inherited g rows' rows'') : Inherited g rows rows'' := by
  intro r'' hr''
  obtain ⟨r', hr', heq'⟩ := h' r'' hr''
  obtain ⟨r, hr, heq⟩ := h r' hr'
  exact ⟨r, hr, heq.trans heq'⟩

theorem inherited_deleteWhere (g : α → κ) (p : α → Bool) (rows : List α) :
    Inherited g rows (deleteWhere p rows) :=
  fun r hr => ⟨r, (mem_deleteWhere.mp hr).1, rfl⟩

theorem inherited_updateWhere {g : α → κ} (p : α → Bool) {f : α → α} (hf : ∀ r, g (f r) = g r)
    (rows : List α) : Inherited g rows (updateWhere p f rows) := by
  intro r' hr'
  obtain ⟨r, hr, rfl⟩ := mem_updateWhere.mp hr'
  refine ⟨r, hr, ?_⟩
  by_cases hp : p r <;> simp [hp, hf]

end Tekir.Table
