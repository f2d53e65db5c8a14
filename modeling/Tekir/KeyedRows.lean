import Mathlib.Data.List.Infix

/-!
# Rows under keys

A list of rows, each under the key of the request that has left it. A request whose key has a row
is answered with that row, whatever it asks for.
-/
namespace Tekir.KeyedRows

variable {κ π : Type*} [DecidableEq κ] {rows rows' : List (κ × π)} {key : κ} {payload : π}

/-- The rows afterwards, and the place of the row that the request is answered with. -/
def answer (rows : List (κ × π)) (key : κ) (payload : π) : List (κ × π) × ℕ :=
  match rows.findIdx? fun row => row.1 == key with
  | some place => (rows, place)
  | none => (rows ++ [(key, payload)], rows.length)

/-- The row at the place has the property. -/
def At (rows : List (κ × π)) (place : ℕ) (Q : π → Prop) : Prop :=
  ∃ row ∈ rows[place]?, Q row.2

/-- The key has no row without the property. -/
def Only (rows : List (κ × π)) (key : κ) (Q : π → Prop) : Prop :=
  ∀ row ∈ rows, row.1 = key → Q row.2

instance {Q : π → Prop} [DecidablePred Q] {place : ℕ} : Decidable (At rows place Q) :=
  inferInstanceAs (Decidable (∃ row ∈ rows[place]?, Q row.2))

instance {Q : π → Prop} [DecidablePred Q] : Decidable (Only rows key Q) :=
  inferInstanceAs (Decidable (∀ row ∈ rows, _ → Q row.2))

omit [DecidableEq κ] in
theorem At.mono {Q Q' : π → Prop} {place : ℕ} (hrows : rows <+: rows') (hQ : ∀ p, Q p → Q' p)
    (h : At rows place Q) : At rows' place Q' := by
  obtain ⟨row, hrow, hq⟩ := h
  obtain ⟨more, rfl⟩ := hrows
  exact ⟨row, List.getElem?_append_left (List.getElem?_eq_some_iff.mp hrow).1 ▸ hrow, hQ _ hq⟩

theorem prefix_answer : rows <+: (answer rows key payload).1 := by
  unfold answer
  split
  · exact List.prefix_refl rows
  · exact List.prefix_append rows _

/-- A property of what is asked for and of what the key has already is one of the answer. -/
theorem at_answer {Q : π → Prop} (hnew : Q payload) (hold : Only rows key Q) :
    At (answer rows key payload).1 (answer rows key payload).2 Q := by
  unfold answer
  split
  case h_1 place hplace =>
    obtain ⟨hlt, hkey, -⟩ := List.findIdx?_eq_some_iff_getElem.mp hplace
    have hrow : rows[place]? = some rows[place] := List.getElem?_eq_getElem hlt
    exact ⟨rows[place], hrow, hold _ (List.getElem_mem hlt) (beq_iff_eq.mp hkey)⟩
  case h_2 =>
    exact ⟨(key, payload), List.getElem?_concat_length, hnew⟩

end Tekir.KeyedRows
