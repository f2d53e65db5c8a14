import Tekir.ModerationReply

/-!
# Records from JSON

`encoding/json` on structs. A member is stored in the field of its name, or of a name that is
equal up to the case of the letters; a later member overwrites an earlier one. `null` leaves a
value as it was, and takes a pointer away. A member of another type than its field is an error
in the end.
-/
namespace Tekir.Decoding
open Json
open ModerationReply (decodeString foldName)

variable {ρ α : Type}

/-- A field of a record, and how a value is stored in it. -/
structure Field (ρ : Type) where
  name : String
  store : ρ → Value → Option ρ

def fieldOf (fields : List (Field ρ)) (key : String) : Option (Field ρ) :=
  match fields.find? fun f => f.name = key with
  | some f => some f
  | none => fields.find? fun f => foldName f.name = foldName key

/-- `strict` is `DisallowUnknownFields`. -/
def decodeMembers (strict : Bool) (fields : List (Field ρ)) : List (String × Value) → ρ → Option ρ
  | [], r => some r
  | (key, v) :: ms, r =>
    match fieldOf fields key with
    | none => if strict then none else decodeMembers strict fields ms r
    | some f => (f.store r v).bind fun r => decodeMembers strict fields ms r

def decodeRecord (strict : Bool) (fields : List (Field ρ)) (r : ρ) : Value → Option ρ
  | .object ms => decodeMembers strict fields ms r
  | .null => some r
  | _ => none

def decodeBool (old : Bool) : Value → Option Bool
  | .bool b => some b
  | .null => some old
  | _ => none

/-- An integer of 64 bits; a fraction or an exponent is of another type. -/
def integerOf (ds : List Char) : Option ℤ :=
  let minus := sign ['-'] ds
  if minus.2.all isDigit then
    let n : ℕ := minus.2.foldl (fun n c => 10 * n + (c.toNat - '0'.toNat)) 0
    let i : ℤ := if minus.1 = [] then n else -n
    if -9223372036854775808 ≤ i ∧ i < 9223372036854775808 then some i else none
  else none

def decodeInt (old : ℤ) : Value → Option ℤ
  | .number ds => integerOf ds
  | .null => some old
  | _ => none

/-- A pointer is set to a new value, or what it points to is overwritten. -/
def decodePointer (decode : α → Value → Option α) (zero : α) (old : Option α) :
    Value → Option (Option α)
  | .null => some none
  | v => (decode (old.getD zero) v).map some

/-- A slice. What its array holds beyond its length is seen again when it grows. -/
structure Slice (α : Type) where
  array : List α
  length : ℕ

def Slice.elements (s : Slice α) : List α :=
  s.array.take s.length

def Slice.empty : Slice α := ⟨[], 0⟩

/-- The elements overwrite what the array holds. -/
def decodeElements (decode : α → Value → Option α) (zero : α) :
    List α → List Value → Option (List α)
  | old, [] => some old
  | old, v :: vs => do
    let a ← decode (old.headD zero) v
    return a :: (← decodeElements decode zero old.tail vs)

def decodeSlice (decode : α → Value → Option α) (zero : α) (old : Slice α) :
    Value → Option (Slice α)
  | .null => some .empty
  | .array [] => some .empty
  | .array (v :: vs) =>
    (decodeElements decode zero old.array (v :: vs)).map (⟨·, vs.length + 1⟩)
  | _ => none

/-- `json.Unmarshal`: the text is one value and nothing else. -/
def unmarshal (cs : List Char) : Option Value :=
  (parse cs).bind fun p => if skipBlank p.2 = [] then some p.1 else none

/-- `json.NewDecoder(..).Decode`: the first value of a text. -/
def decodeFirst (cs : List Char) : Option Value :=
  (parse cs).map (·.1)

end Tekir.Decoding
