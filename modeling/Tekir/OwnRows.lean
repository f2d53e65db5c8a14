import Tekir.Table

/-!
# Rows of one owner

What a statement leaves of the rows of a selection. Rows are held if none is added and none is
lost that was to be kept; they are revised if each is still there in another version of itself,
and none is there that was not before.
-/
namespace Tekir.OwnRows
open Table

variable {α : Type} {own : α → Prop} {keep keep' : α → Prop} {rev : α → α → Prop}
  {rows rows' rows'' : List α} {p : α → Bool} {f : α → α} {r : α}

/-- No row of the selection is new, and those to be kept are there. -/
structure Held (own keep : α → Prop) (rows rows' : List α) : Prop where
  old : ∀ r ∈ rows', own r → r ∈ rows
  kept : ∀ r ∈ rows, own r → keep r → r ∈ rows'

/-- Each row of the selection has a version before and one after. -/
structure Revised (own : α → Prop) (rev : α → α → Prop) (rows rows' : List α) : Prop where
  old : ∀ r' ∈ rows', own r' → ∃ r ∈ rows, own r ∧ rev r r'
  kept : ∀ r ∈ rows, own r → ∃ r' ∈ rows', own r' ∧ rev r r'

section Held

theorem Held.refl (own keep : α → Prop) (rows : List α) : Held own keep rows rows :=
  ⟨fun _ hr _ => hr, fun _ hr _ _ => hr⟩

/-- What is kept may depend on the rows at the start, if it is kept on at the end of them. -/
theorem Held.trans (h : Held own keep rows rows') (h' : Held own keep' rows' rows'')
    (hkeep : ∀ r ∈ rows, own r → keep r → keep' r) : Held own keep rows rows'' where
  old := fun r hr hown => h.old r (h'.old r hr hown) hown
  kept := fun r hr hown hk => h'.kept r (h.kept r hr hown hk) hown (hkeep r hr hown hk)

theorem held_append (h : ¬ own r) : Held own keep rows (rows ++ [r]) where
  old := by
    intro r' hr' hown
    rcases List.mem_append.mp hr' with hr' | hr'
    · exact hr'
    · have heq : r' = r := List.mem_singleton.mp hr'
      exact absurd (heq ▸ hown) h
  kept := fun _ hr _ _ => List.mem_append_left _ hr

/-- A statement on the rows of others, which moves none of them into the selection. -/
theorem held_updateWhere (h : ∀ r ∈ rows, p r = true → ¬ own r ∧ ¬ own (f r)) :
    Held own keep rows (updateWhere p f rows) where
  old := by
    intro r' hr' hown
    obtain ⟨r, hr, rfl⟩ := mem_updateWhere.mp hr'
    by_cases hp : p r = true
    · rw [if_pos hp] at hown
      exact absurd hown (h r hr hp).2
    · rw [if_neg hp]
      exact hr
  kept := by
    intro r hr hown _
    refine mem_updateWhere.mpr ⟨r, hr, if_neg fun hp => ?_⟩
    exact (h r hr hp).1 hown

theorem held_deleteWhere (h : ∀ r ∈ rows, own r → keep r → p r = false) :
    Held own keep rows (deleteWhere p rows) where
  old := fun _ hr _ => (mem_deleteWhere.mp hr).1
  kept := fun r hr hown hk => mem_deleteWhere.mpr ⟨hr, h r hr hown hk⟩

end Held

section Revised

theorem Revised.refl (hrev : ∀ r, rev r r) (rows : List α) : Revised own rev rows rows :=
  ⟨fun r hr hown => ⟨r, hr, hown, hrev r⟩, fun r hr hown => ⟨r, hr, hown, hrev r⟩⟩

theorem Revised.trans (htrans : ∀ r r' r'', rev r r' → rev r' r'' → rev r r'')
    (h : Revised own rev rows rows') (h' : Revised own rev rows' rows'') :
    Revised own rev rows rows'' where
  old := by
    intro r'' hr'' hown
    obtain ⟨r', hr', hown', hrev'⟩ := h'.old r'' hr'' hown
    obtain ⟨r, hr, hown, hrev⟩ := h.old r' hr' hown'
    exact ⟨r, hr, hown, htrans r r' r'' hrev hrev'⟩
  kept := by
    intro r hr hown
    obtain ⟨r', hr', hown', hrev⟩ := h.kept r hr hown
    obtain ⟨r'', hr'', hown'', hrev'⟩ := h'.kept r' hr' hown'
    exact ⟨r'', hr'', hown'', htrans r r' r'' hrev hrev'⟩

theorem revised_append (hrev : ∀ r, rev r r) (h : ¬ own r) :
    Revised own rev rows (rows ++ [r]) where
  old := by
    intro r' hr' hown
    rcases List.mem_append.mp hr' with hr' | hr'
    · exact ⟨r', hr', hown, hrev r'⟩
    · have heq : r' = r := List.mem_singleton.mp hr'
      exact absurd (heq ▸ hown) h
  kept := fun r hr hown => ⟨r, List.mem_append_left _ hr, hown, hrev r⟩

/-- A statement that makes versions of the rows it is about, and moves none of them in or out. -/
theorem revised_map {g : α → α} (h : ∀ r ∈ rows, (own (g r) ↔ own r) ∧ (own r → rev r (g r))) :
    Revised own rev rows (rows.map g) where
  old := by
    intro r' hr' hown
    obtain ⟨r, hr, rfl⟩ := List.mem_map.mp hr'
    have hown' := (h r hr).1.mp hown
    exact ⟨r, hr, hown', (h r hr).2 hown'⟩
  kept := fun r hr hown =>
    ⟨g r, List.mem_map_of_mem hr, (h r hr).1.mpr hown, (h r hr).2 hown⟩

theorem revised_updateWhere (hrev : ∀ r, rev r r)
    (h : ∀ r ∈ rows, p r = true → (own (f r) ↔ own r) ∧ (own r → rev r (f r))) :
    Revised own rev rows (updateWhere p f rows) := by
  refine revised_map fun r hr => ?_
  by_cases hp : p r = true
  · rw [if_pos hp]
    exact h r hr hp
  · rw [if_neg hp]
    exact ⟨Iff.rfl, fun _ => hrev r⟩

theorem revised_deleteWhere (hrev : ∀ r, rev r r) (h : ∀ r ∈ rows, own r → p r = false) :
    Revised own rev rows (deleteWhere p rows) where
  old := fun r hr hown => ⟨r, (mem_deleteWhere.mp hr).1, hown, hrev r⟩
  kept := fun r hr hown => ⟨r, mem_deleteWhere.mpr ⟨hr, h r hr hown⟩, hown, hrev r⟩

end Revised

end Tekir.OwnRows
