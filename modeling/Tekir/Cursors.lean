import Mathlib.Data.List.TakeWhile
import Mathlib.Data.NNRat.Lemmas
import Tekir.Base64
import Tekir.ReadServices

/-!
# Cursors

The opaque texts of page positions: two fields with a colon between them, in base64. What
the standard library prints and parses is written out for integers; for floating point
numbers and for the text of an identifier it is a parameter.
-/
namespace Tekir.Cursors
open Schema ReadQueries ReadServices

section Integers

def inInt64 (z : ℤ) : Prop :=
  -2 ^ 63 ≤ z ∧ z < 2 ^ 63

instance (z : ℤ) : Decidable (inInt64 z) :=
  inferInstanceAs (Decidable (_ ∧ _))

def parseDigits (cs : List Char) : Option ℕ :=
  if cs ≠ [] ∧ cs.all Char.isDigit then some (Nat.ofDigitChars 10 cs 0) else none

def int64 (z : ℤ) : Option ℤ :=
  if inInt64 z then some z else none

/-- `strconv.ParseInt(s, 10, 64)`. -/
def parseInt : List Char → Option ℤ
  | '-' :: cs => (parseDigits cs).bind fun n => int64 (-n)
  | '+' :: cs => (parseDigits cs).bind fun n => int64 n
  | cs => (parseDigits cs).bind fun n => int64 n

/-- `%d`. -/
def formatInt (z : ℤ) : List Char :=
  (toString z).toList

theorem parseDigits_toDigits (n : ℕ) : parseDigits (Nat.toDigits 10 n) = some n := by
  have hdigits : (Nat.toDigits 10 n).all Char.isDigit = true :=
    List.all_eq_true.mpr fun c hc => Nat.isDigit_of_mem_toDigits (by decide) (by decide) hc
  rw [parseDigits, if_pos ⟨Nat.toDigits_ne_nil, hdigits⟩, Nat.ofDigitChars_ten_toDigits]

/-- The digits of a number, after a sign if it is negative. -/
theorem formatInt_cases (z : ℤ) :
    (∃ n : ℕ, z = n ∧ formatInt z = Nat.toDigits 10 n) ∨
      ∃ n : ℕ, z = -n ∧ formatInt z = '-' :: Nat.toDigits 10 n := by
  cases z with
  | ofNat n => exact .inl ⟨n, rfl, by simp [formatInt, Int.toString_eq_repr, Int.repr]⟩
  | negSucc n =>
    refine .inr ⟨n + 1, by omega, ?_⟩
    simp [formatInt, Int.toString_eq_repr, Int.repr]

theorem parseInt_formatInt {z : ℤ} (h : inInt64 z) : parseInt (formatInt z) = some z := by
  have hint : int64 z = some z := if_pos h
  rcases formatInt_cases z with ⟨n, rfl, heq⟩ | ⟨n, rfl, heq⟩
  · rw [heq]
    have hparse : (parseDigits (Nat.toDigits 10 n)).bind (fun n => int64 n) = some (n : ℤ) := by
      rw [parseDigits_toDigits, Option.bind_some, hint]
    cases hdigits : Nat.toDigits 10 n with
    | nil => exact absurd hdigits Nat.toDigits_ne_nil
    | cons c cs =>
      have hc : c.isDigit = true := Nat.isDigit_of_mem_toDigits (b := 10) (n := n) (by decide)
        (by decide) (by simp [hdigits])
      rw [hdigits] at hparse
      unfold parseInt
      split
      · rename_i heq'
        cases heq'
        exact absurd hc (by decide)
      · rename_i heq'
        cases heq'
        exact absurd hc (by decide)
      · exact hparse
  · rw [heq, parseInt, parseDigits_toDigits, Option.bind_some, hint]

theorem mem_formatInt {z : ℤ} {c : Char} (h : c ∈ formatInt z) : c = '-' ∨ c.isDigit = true := by
  rcases formatInt_cases z with ⟨n, -, heq⟩ | ⟨n, -, heq⟩
  · rw [heq] at h
    exact .inr (Nat.isDigit_of_mem_toDigits (by decide) (by decide) h)
  · rw [heq] at h
    rcases List.mem_cons.mp h with rfl | h
    · exact .inl rfl
    · exact .inr (Nat.isDigit_of_mem_toDigits (by decide) (by decide) h)

end Integers

section Fields

/-- `strings.Cut(s, ":")`. -/
def cutColon (s : List Char) : Option (List Char × List Char) :=
  if ':' ∈ s then some (s.takeWhile (· ≠ ':'), (s.dropWhile (· ≠ ':')).tail) else none

theorem cutColon_append {a b : List Char} (h : ':' ∉ a) : cutColon (a ++ ':' :: b) = some (a, b) := by
  have hne : ∀ c ∈ a, decide (c ≠ ':') = true := fun c hc => by
    rw [decide_eq_true_eq]
    rintro rfl
    exact h hc
  rw [cutColon, if_pos (by simp), List.takeWhile_append_of_pos hne, List.dropWhile_append_of_pos hne]
  simp

/-- A byte that is no colon. -/
def Plain (c : Char) : Prop :=
  c.toNat < 256 ∧ c ≠ ':'

theorem plain_of_isDigit {c : Char} (h : c.isDigit = true) : Plain c := by
  simp only [Char.isDigit, Bool.and_eq_true, decide_eq_true_eq] at h
  obtain ⟨hlow, hhigh⟩ := h
  have hle : c.toNat ≤ '9'.toNat := hhigh
  refine ⟨lt_of_le_of_lt hle (by decide), ?_⟩
  rintro rfl
  exact absurd hhigh (by decide)

theorem plain_of_mem_formatInt {z : ℤ} {c : Char} (h : c ∈ formatInt z) : Plain c := by
  rcases mem_formatInt h with rfl | h
  · exact ⟨by decide, by decide⟩
  · exact plain_of_isDigit h

def encodeFields (a b : List Char) : String :=
  String.ofList (Base64.encode (a ++ ':' :: b))

def decodeFields (text : String) : Option (List Char × List Char) :=
  (Base64.decode text.toList).bind cutColon

theorem decodeFields_encodeFields {a b : List Char} (ha : ∀ c ∈ a, Plain c)
    (hb : ∀ c ∈ b, c.toNat < 256) : decodeFields (encodeFields a b) = some (a, b) := by
  have hbytes : ∀ c ∈ a ++ ':' :: b, c.toNat < 256 := by
    intro c hc
    rcases List.mem_append.mp hc with hc | hc
    · exact (ha c hc).1
    · rcases List.mem_cons.mp hc with rfl | hc
      · decide
      · exact hb c hc
  rw [decodeFields, encodeFields, String.toList_ofList, Base64.decode_encode hbytes]
  exact cutColon_append fun h => (ha _ h).2 rfl

end Fields

/-- What `strconv.ParseFloat` reads. -/
inductive Float64
  | finite (x : ℚ)
  | infinite
  | nan

/-- Printing and parsing of distances and of identifiers. -/
structure Texts where
  /-- `strconv.FormatFloat(x, 'g', -1, 64)`. -/
  formatFloat : ℚ≥0 → List Char
  parseFloat : List Char → Option Float64
  /-- `uuid.UUID.String`. -/
  uuidString : UUID → List Char
  parseUUID : List Char → Option UUID
  parse_formatFloat : ∀ x, parseFloat (formatFloat x) = some (.finite x)
  parse_uuidString : ∀ id, parseUUID (uuidString id) = some id
  plain_formatFloat : ∀ x, ∀ c ∈ formatFloat x, Plain c
  plain_uuidString : ∀ id, ∀ c ∈ uuidString id, c.toNat < 256

/-- `time.Time.UnixNano` of a stored instant. -/
def unixNano (t : Instant) : ℤ :=
  t * 1000

/-- A stored instant has whole microseconds. -/
def ofUnixNano (nanos : ℤ) : Instant :=
  nanos / 1000

@[simp] theorem ofUnixNano_unixNano (t : Instant) : ofUnixNano (unixNano t) = t := by
  simp [ofUnixNano, unixNano]

def encodeUpdatesCursor (c : Instant × ℕ) : String :=
  encodeFields (formatInt (unixNano c.1)) (formatInt c.2)

/-- A sequence number below zero precedes every row, as zero does. -/
def decodeUpdatesCursor (raw : String) : Option (Instant × ℕ) := do
  let fields ← decodeFields raw
  let nanos ← parseInt fields.1
  let seq ← parseInt fields.2
  return (ofUnixNano nanos, seq.toNat)

variable (texts : Texts)

def encodeDiscoverCursor (c : ℚ≥0 × UUID) : String :=
  encodeFields (texts.formatFloat c.1) (texts.uuidString c.2)

def decodeDiscoverCursor (raw : String) : Option (ℚ≥0 × UUID) := do
  let fields ← decodeFields raw
  let dist ← texts.parseFloat fields.1
  match dist with
  | .finite x =>
    if 0 ≤ x then do
      let id ← texts.parseUUID fields.2
      return (x.toNNRat, id)
    else none
  | .infinite => none
  | .nan => none

def encodeNotificationsCursor (c : Instant × UUID) : String :=
  encodeFields (formatInt (unixNano c.1)) (texts.uuidString c.2)

def decodeNotificationsCursor (raw : String) : Option (Instant × UUID) := do
  let fields ← decodeFields raw
  let nanos ← parseInt fields.1
  let id ← texts.parseUUID fields.2
  return (ofUnixNano nanos, id)

def updatesCursor : Codec (Instant × ℕ) :=
  ⟨encodeUpdatesCursor, decodeUpdatesCursor⟩

def discoverCursor : Codec (ℚ≥0 × UUID) :=
  ⟨encodeDiscoverCursor texts, decodeDiscoverCursor texts⟩

def notificationsCursor : Codec (Instant × UUID) :=
  ⟨encodeNotificationsCursor texts, decodeNotificationsCursor texts⟩

def reading (geo : Geometry) : Reading :=
  { geo with discoverCursor := discoverCursor texts, updatesCursor := updatesCursor }

/-- An instant whose nanoseconds fit 64 bits. -/
def Representable (t : Instant) : Prop :=
  inInt64 (unixNano t)

instance (t : Instant) : Decidable (Representable t) :=
  inferInstanceAs (Decidable (inInt64 _))

theorem updatesCursor_restores {c : Instant × ℕ} (ht : Representable c.1) (hseq : inInt64 c.2) :
    updatesCursor.Restores c := by
  have hfields : decodeFields (encodeUpdatesCursor c) =
      some (formatInt (unixNano c.1), formatInt c.2) :=
    decodeFields_encodeFields (fun _ => plain_of_mem_formatInt) fun _ hc =>
      (plain_of_mem_formatInt hc).1
  change decodeUpdatesCursor (encodeUpdatesCursor c) = some c
  simp [decodeUpdatesCursor, hfields, parseInt_formatInt ht, parseInt_formatInt hseq]

theorem discoverCursor_restores (c : ℚ≥0 × UUID) : (discoverCursor texts).Restores c := by
  have hfields : decodeFields (encodeDiscoverCursor texts c) =
      some (texts.formatFloat c.1, texts.uuidString c.2) :=
    decodeFields_encodeFields (texts.plain_formatFloat c.1) (texts.plain_uuidString c.2)
  change decodeDiscoverCursor texts (encodeDiscoverCursor texts c) = some c
  simp only [decodeDiscoverCursor, hfields, texts.parse_formatFloat, texts.parse_uuidString,
    Option.bind_eq_bind, Option.bind_some]
  have hnonneg : (0 : ℚ) ≤ c.1 := c.1.2
  simp [hnonneg]

theorem notificationsCursor_restores {c : Instant × UUID} (ht : Representable c.1) :
    (notificationsCursor texts).Restores c := by
  have hfields : decodeFields (encodeNotificationsCursor texts c) =
      some (formatInt (unixNano c.1), texts.uuidString c.2) :=
    decodeFields_encodeFields (fun _ => plain_of_mem_formatInt) (texts.plain_uuidString c.2)
  change decodeNotificationsCursor texts (encodeNotificationsCursor texts c) = some c
  simp [decodeNotificationsCursor, hfields, parseInt_formatInt ht, texts.parse_uuidString]

section Numerals

/-- The fraction in lowest terms; a whole number is printed as its digits. -/
def fractionText (x : ℚ≥0) : List Char :=
  Nat.toDigits 10 x.num ++ if x.den = 1 then [] else '/' :: Nat.toDigits 10 x.den

def parseFraction (cs : List Char) : Option Float64 :=
  (parseDigits (cs.takeWhile (· ≠ '/'))).bind fun num =>
    match cs.dropWhile (· ≠ '/') with
    | [] => some (.finite (num : ℚ))
    | _ :: rest => (parseDigits rest).map fun den : ℕ => .finite ((num : ℚ) / (den : ℚ))

theorem ne_slash_of_mem_toDigits {n : ℕ} {c : Char} (h : c ∈ Nat.toDigits 10 n) :
    decide (c ≠ '/') = true := by
  rw [decide_eq_true_eq]
  rintro rfl
  exact absurd (Nat.isDigit_of_mem_toDigits (by decide) (by decide) h) (by decide)

theorem parseFraction_fractionText (x : ℚ≥0) : parseFraction (fractionText x) = some (.finite x) := by
  have hslash : ∀ c ∈ Nat.toDigits 10 x.num, decide (c ≠ '/') = true := fun c =>
    ne_slash_of_mem_toDigits
  have hx : ((x.num : ℕ) : ℚ) / (x.den : ℕ) = x := by
    conv_rhs => rw [← NNRat.num_div_den x]
    push_cast
    rfl
  unfold parseFraction fractionText
  by_cases hden : x.den = 1
  · have hleft := List.takeWhile_eq_self_iff.mpr hslash
    have hright := List.dropWhile_eq_nil_iff.mpr hslash
    rw [hden, Nat.cast_one, div_one] at hx
    rw [if_pos hden, List.append_nil, hleft, hright, parseDigits_toDigits, Option.bind_some]
    exact congrArg (fun y => some (Float64.finite y)) hx
  · rw [if_neg hden, List.takeWhile_append_of_pos hslash, List.dropWhile_append_of_pos hslash]
    simp only [List.takeWhile_cons_of_neg, List.dropWhile_cons_of_neg, List.append_nil,
      parseDigits_toDigits, Option.bind_some, Option.map_some, hx, ne_eq, not_true_eq_false,
      decide_false, Bool.false_eq_true, not_false_eq_true]

/-- The text of an identifier below ten is its canonical one. -/
def identifierText (id : UUID) : List Char :=
  "00000000-0000-0000-0000-00000000000".toList ++ Nat.toDigits 10 id

def parseIdentifier (cs : List Char) : Option UUID :=
  parseDigits (cs.filter (· ≠ '-'))

theorem parseIdentifier_identifierText (id : UUID) :
    parseIdentifier (identifierText id) = some id := by
  have hdigits : ∀ c ∈ Nat.toDigits 10 id, c.isDigit = true := fun c hc =>
    Nat.isDigit_of_mem_toDigits (by decide) (by decide) hc
  have hkept : (Nat.toDigits 10 id).filter (· ≠ '-') = Nat.toDigits 10 id := by
    rw [List.filter_eq_self]
    intro c hc
    rw [decide_eq_true_eq]
    rintro rfl
    exact absurd (hdigits _ hc) (by decide)
  have hzeros : "00000000-0000-0000-0000-00000000000".toList.filter (· ≠ '-') =
      List.replicate 31 '0' := by decide
  unfold parseIdentifier identifierText
  rw [List.filter_append, hkept, hzeros, parseDigits, if_pos, Nat.ofDigitChars_append,
    Nat.ofDigitChars_replicate_zero, Nat.mul_zero, Nat.ofDigitChars_ten_toDigits]
  refine ⟨by simp, ?_⟩
  rw [List.all_append, Bool.and_eq_true]
  exact ⟨by decide, List.all_eq_true.mpr hdigits⟩

/-- Whole numbers and identifiers below ten have the texts of the standard library. -/
def numerals : Texts where
  formatFloat := fractionText
  parseFloat := parseFraction
  uuidString := identifierText
  parseUUID := parseIdentifier
  parse_formatFloat := parseFraction_fractionText
  parse_uuidString := parseIdentifier_identifierText
  plain_formatFloat x c hc := by
    have hdigit : ∀ n, c ∈ Nat.toDigits 10 n → Plain c := fun n h =>
      plain_of_isDigit (Nat.isDigit_of_mem_toDigits (by decide) (by decide) h)
    unfold fractionText at hc
    rcases List.mem_append.mp hc with hc | hc
    · exact hdigit _ hc
    · split at hc
      · cases hc
      · rcases List.mem_cons.mp hc with rfl | hc
        · exact ⟨by decide, by decide⟩
        · exact hdigit _ hc
  plain_uuidString id c hc := by
    rcases List.mem_append.mp hc with hc | hc
    · have hall : ("00000000-0000-0000-0000-00000000000".toList.all fun c =>
          decide (c.toNat < 256)) = true := by decide
      exact of_decide_eq_true (List.all_eq_true.mp hall c hc)
    · exact (plain_of_isDigit (Nat.isDigit_of_mem_toDigits (by decide) (by decide) hc)).1

end Numerals

end Tekir.Cursors
