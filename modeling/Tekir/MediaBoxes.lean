import Tekir.Bytes

/-!
# Boxes of media files

`walkBoxes` over the boxes of the ISO base media file format, with 64-bit integers. A panic is
`none`.
-/
namespace Tekir.MediaBoxes
open Bytes

/-- `start` and `stop` enclose the whole box, the header included. -/
structure IsobmffBox where
  boxType : List UInt8
  start : ℕ
  stop : ℕ
  deriving DecidableEq

/-- The conversion of an unsigned number of 64 bits, and what a sum of `int`s leaves. -/
def int64 (n : ℤ) : ℤ :=
  n.bmod (2 ^ 64)

/-- The size that the header states, and the size of the header. -/
def boxSize (buf : List UInt8) (offset : ℕ) : Option (Option (ℕ × ℕ)) := do
  let size := bigEndian (← slice buf offset (offset + 4))
  if size = 0 then return some (buf.length - offset, 8)
  else if size = 1 then
    if buf.length < offset + 16 then return none
    else return some (bigEndian (← slice buf (offset + 8) (offset + 16)), 16)
  else return some (size, 8)

/-- The boxes that are yielded from the offset on. -/
def walkFrom (buf : List UInt8) (yield : IsobmffBox → Bool) : ℕ → ℕ → Option (List IsobmffBox)
  | 0, _ => some []
  | fuel + 1, offset =>
    if buf.length < offset + 8 then some []
    else do
      let boxType ← slice buf (offset + 4) (offset + 8)
      match ← boxSize buf offset with
      | none => return []
      | some (size, headerSize) =>
        let stop := int64 (offset + int64 size)
        if size < headerSize ∨ buf.length < stop ∨ stop ≤ offset then return []
        else
          let box : IsobmffBox := ⟨boxType, offset, stop.toNat⟩
          if yield box then
            return box :: (← walkFrom buf yield fuel stop.toNat)
          else return [box]

/-- The walk passes at least a byte with each box. -/
def walkBoxes (buf : List UInt8) (yield : IsobmffBox → Bool) : Option (List IsobmffBox) :=
  walkFrom buf yield buf.length 0

/-- The first box of the type, at which the walk stops. -/
def findBox (buf boxType : List UInt8) : Option (Option IsobmffBox) := do
  let boxes ← walkBoxes buf fun b => b.boxType != boxType
  return boxes.find? fun b => b.boxType == boxType

section Format

/-- The size field of an extended header is 1, and the size stands after the type. -/
def headerSize (extended : Bool) : ℕ :=
  if extended then 16 else 8

def sizeLimit (extended : Bool) : ℕ :=
  if extended then 2 ^ 64 else 2 ^ 32

/-- A box as the format has it. -/
structure Box where
  boxType : List UInt8
  extended : Bool
  payload : List UInt8
  typed : boxType.length = 4
  fits : headerSize extended + payload.length < sizeLimit extended

namespace Box

variable (b : Box)

def size : ℕ :=
  headerSize b.extended + b.payload.length

def header : List UInt8 :=
  if b.extended then toBigEndian 4 1 ++ (b.boxType ++ toBigEndian 8 b.size)
  else toBigEndian 4 b.size ++ b.boxType

def bytes : List UInt8 :=
  b.header ++ b.payload

@[simp] theorem length_header : b.header.length = headerSize b.extended := by
  unfold header headerSize
  split <;> simp [b.typed]

@[simp] theorem length_bytes : b.bytes.length = b.size := by
  rw [bytes, List.length_append, length_header, size]

theorem headerSize_le : 8 ≤ headerSize b.extended := by
  unfold headerSize
  split <;> omega

end Box

def flatten (boxes : List Box) : List UInt8 :=
  boxes.flatMap Box.bytes

/-- Where the boxes are, one after the other from the offset on. -/
def located : ℕ → List Box → List IsobmffBox
  | _, [] => []
  | offset, b :: bs => ⟨b.boxType, offset, offset + b.size⟩ :: located (offset + b.size) bs

/-- What is yielded until a box stops the walk, that box included. -/
def upTo (yield : IsobmffBox → Bool) : List IsobmffBox → List IsobmffBox
  | [] => []
  | b :: bs => if yield b then b :: upTo yield bs else [b]

@[simp] theorem flatten_nil : flatten [] = [] := rfl

@[simp] theorem flatten_cons (b : Box) (bs : List Box) :
    flatten (b :: bs) = b.bytes ++ flatten bs := rfl

theorem flatten_append (bs bs' : List Box) : flatten (bs ++ bs') = flatten bs ++ flatten bs' :=
  List.flatMap_append

end Format

section Walk

variable {buf pre rest : List UInt8} {yield : IsobmffBox → Bool} {fuel : ℕ}

/-- An offset within a slice is a small number. -/
theorem int64_of_lt {n : ℕ} (h : n < 2 ^ 63) : int64 n = n := by
  unfold int64
  rw [Int.bmod_def]
  split <;> omega

theorem int64_add {offset size : ℕ} (h : offset + size < 2 ^ 63) :
    int64 (offset + int64 size) = offset + size := by
  have hsize : int64 size = size := int64_of_lt (by omega)
  have hsum : int64 ((offset + size : ℕ) : ℤ) = (offset + size : ℕ) := int64_of_lt h
  rw [hsize]
  exact_mod_cast hsum

/-- The header that a box starts with. -/
theorem slice_type (b : Box) :
    slice (pre ++ (b.bytes ++ rest)) (pre.length + 4) (pre.length + 8) = some b.boxType := by
  unfold Box.bytes Box.header
  split
  · have hsplit : pre ++ (toBigEndian 4 1 ++ (b.boxType ++ toBigEndian 8 b.size) ++ b.payload ++
        rest) = (pre ++ toBigEndian 4 1) ++ (b.boxType ++
          (toBigEndian 8 b.size ++ (b.payload ++ rest))) := by simp
    rw [hsplit]
    exact slice_between (by simp) (by simp [b.typed])
  · have hsplit : pre ++ (toBigEndian 4 b.size ++ b.boxType ++ b.payload ++ rest) =
        (pre ++ toBigEndian 4 b.size) ++ (b.boxType ++ (b.payload ++ rest)) := by simp
    rw [hsplit]
    exact slice_between (by simp) (by simp [b.typed])

/-- A number in the size field. -/
theorem boxSize_compact {n : ℕ} (hn : 8 ≤ n) (hlimit : n < 256 ^ 4) :
    boxSize (pre ++ (toBigEndian 4 n ++ rest)) pre.length = some (some (n, 8)) := by
  have hfield : slice (pre ++ (toBigEndian 4 n ++ rest)) pre.length (pre.length + 4) =
      some (toBigEndian 4 n) := slice_between rfl (by simp)
  unfold boxSize
  rw [hfield, Option.bind_eq_bind, Option.bind_some, bigEndian_of_lt hlimit, if_neg (by omega),
    if_neg (by omega)]
  rfl

/-- A 1 in the size field, and the size after the type. -/
theorem boxSize_extended {boxType : List UInt8} {n : ℕ} (htyped : boxType.length = 4)
    (hlimit : n < 256 ^ 8) :
    boxSize (pre ++ (toBigEndian 4 1 ++ (boxType ++ (toBigEndian 8 n ++ rest)))) pre.length =
      some (some (n, 16)) := by
  have hsplit : pre ++ (toBigEndian 4 1 ++ (boxType ++ (toBigEndian 8 n ++ rest))) =
      (pre ++ (toBigEndian 4 1 ++ boxType)) ++ (toBigEndian 8 n ++ rest) := by simp
  have hfield : slice (pre ++ (toBigEndian 4 1 ++ (boxType ++ (toBigEndian 8 n ++ rest)))) pre.length
      (pre.length + 4) = some (toBigEndian 4 1) := slice_between rfl (by simp)
  have hlarge : slice (pre ++ (toBigEndian 4 1 ++ (boxType ++ (toBigEndian 8 n ++ rest))))
      (pre.length + 8) (pre.length + 16) = some (toBigEndian 8 n) := by
    rw [hsplit]
    exact slice_between (by simp [htyped]) (by simp)
  have hroom : ¬ (pre ++ (toBigEndian 4 1 ++ (boxType ++ (toBigEndian 8 n ++ rest)))).length <
      pre.length + 16 := by
    simp only [List.length_append, length_toBigEndian, htyped]
    omega
  unfold boxSize
  rw [hfield, Option.bind_eq_bind, Option.bind_some, bigEndian_of_lt (by norm_num),
    if_neg Nat.one_ne_zero, if_pos rfl, if_neg hroom, hlarge, Option.bind_some,
    bigEndian_of_lt hlimit]
  rfl

theorem boxSize_box (b : Box) :
    boxSize (pre ++ (b.bytes ++ rest)) pre.length = some (some (b.size, headerSize b.extended)) := by
  have hfits := b.fits
  unfold Box.bytes Box.header
  cases hextended : b.extended with
  | true =>
    have hlimit : b.size < 256 ^ 8 := by
      rw [hextended] at hfits
      rw [Box.size, hextended]
      exact lt_of_lt_of_eq hfits (by norm_num [sizeLimit])
    have hsize : boxSize (pre ++ (toBigEndian 4 1 ++ (b.boxType ++ (toBigEndian 8 b.size ++
        (b.payload ++ rest))))) pre.length = some (some (b.size, 16)) :=
      boxSize_extended b.typed hlimit
    simpa [headerSize] using hsize
  | false =>
    have hlimit : b.size < 256 ^ 4 := by
      rw [hextended] at hfits
      rw [Box.size, hextended]
      exact lt_of_lt_of_eq hfits (by norm_num [sizeLimit])
    have hmin : 8 ≤ b.size := Nat.le_trans b.headerSize_le (Nat.le_add_right _ _)
    have hsize : boxSize (pre ++ (toBigEndian 4 b.size ++ (b.boxType ++ (b.payload ++ rest))))
        pre.length = some (some (b.size, 8)) := boxSize_compact hmin hlimit
    simpa [headerSize] using hsize

/-- One box on. -/
theorem walkFrom_box (b : Box) (hshort : (pre ++ (b.bytes ++ rest)).length < 2 ^ 63) :
    walkFrom (pre ++ (b.bytes ++ rest)) yield (fuel + 1) pre.length =
      if yield ⟨b.boxType, pre.length, pre.length + b.size⟩ then
        (walkFrom (pre ++ (b.bytes ++ rest)) yield fuel (pre.length + b.size)).map
          (⟨b.boxType, pre.length, pre.length + b.size⟩ :: ·)
      else some [⟨b.boxType, pre.length, pre.length + b.size⟩] := by
  have hlength : (pre ++ (b.bytes ++ rest)).length = pre.length + (b.size + rest.length) := by
    rw [List.length_append, List.length_append, Box.length_bytes]
  have hsize : headerSize b.extended ≤ b.size := Nat.le_add_right _ _
  have hheader := b.headerSize_le
  have hstop : int64 (pre.length + int64 b.size) = pre.length + b.size := int64_add (by omega)
  have hstopNat : ((pre.length : ℤ) + b.size).toNat = pre.length + b.size := by omega
  have hin : ¬ (b.size < headerSize b.extended ∨
      ((pre ++ (b.bytes ++ rest)).length : ℤ) < pre.length + b.size ∨
        (pre.length : ℤ) + b.size ≤ pre.length) := by
    rw [hlength]
    push_cast
    omega
  rw [walkFrom, if_neg (by omega), slice_type, boxSize_box]
  simp only [Option.bind_eq_bind, Option.bind_some, hstop, if_neg hin, hstopNat]
  split
  · cases walkFrom (pre ++ (b.bytes ++ rest)) yield fuel (pre.length + b.size) <;> rfl
  · rfl

/-- No box goes beyond the end. -/
theorem stop_le_of_mem_walkFrom {offset : ℕ} {boxes : List IsobmffBox}
    (h : walkFrom buf yield fuel offset = some boxes) {b : IsobmffBox} (hb : b ∈ boxes) :
    b.stop ≤ buf.length := by
  induction fuel generalizing offset boxes with
  | zero =>
    cases h
    cases hb
  | succ fuel ih =>
    rw [walkFrom] at h
    split at h
    · cases h
      cases hb
    · obtain ⟨boxType, -, h⟩ := Option.bind_eq_some_iff.mp h
      obtain ⟨size, -, h⟩ := Option.bind_eq_some_iff.mp h
      split at h
      · cases h
        cases hb
      · dsimp only at h
        split at h
        · cases h
          cases hb
        · rename_i hin
          split at h
          · obtain ⟨bs, hbs, h⟩ := Option.bind_eq_some_iff.mp h
            cases h
            rcases List.mem_cons.mp hb with rfl | hb
            · dsimp only
              omega
            · exact ih hbs hb
          · cases h
            obtain rfl := List.mem_singleton.mp hb
            dsimp only
            omega

theorem findBox_stop_le {boxType : List UInt8} {b : IsobmffBox}
    (h : findBox buf boxType = some (some b)) : b.stop ≤ buf.length := by
  obtain ⟨boxes, hboxes, h⟩ := Option.bind_eq_some_iff.mp h
  exact stop_le_of_mem_walkFrom hboxes (List.mem_of_find?_eq_some (Option.some_inj.mp h))

theorem walkFrom_end : walkFrom buf yield fuel buf.length = some [] := by
  cases fuel with
  | zero => rfl
  | succ fuel => rw [walkFrom, if_pos (by omega)]

/-- The walk yields the boxes in their order. -/
theorem walkFrom_flatten (bs : List Box) (hshort : (pre ++ flatten bs).length < 2 ^ 63)
    (hfuel : bs.length ≤ fuel) :
    walkFrom (pre ++ flatten bs) yield fuel pre.length =
      some (upTo yield (located pre.length bs)) := by
  induction bs generalizing pre fuel with
  | nil =>
    rw [flatten_nil, List.append_nil]
    exact walkFrom_end
  | cons b bs ih =>
    cases fuel with
    | zero => cases hfuel
    | succ fuel =>
      rw [flatten_cons] at hshort
      rw [flatten_cons, walkFrom_box b hshort, located, upTo]
      split
      · have hnext : pre.length + b.size = (pre ++ b.bytes).length := by simp
        have hassoc : pre ++ (b.bytes ++ flatten bs) = (pre ++ b.bytes) ++ flatten bs :=
          (List.append_assoc _ _ _).symm
        rw [hassoc] at hshort
        rw [hassoc, hnext, ih hshort (Nat.le_of_succ_le_succ hfuel), ← hnext]
        rfl
      · rfl

theorem length_le_flatten (bs : List Box) : bs.length ≤ (flatten bs).length := by
  induction bs with
  | nil => exact Nat.le_refl _
  | cons b bs ih =>
    have hheader := b.headerSize_le
    rw [flatten_cons, List.length_append, Box.length_bytes, Box.size, List.length_cons]
    omega

theorem walkBoxes_flatten (bs : List Box) (hshort : (flatten bs).length < 2 ^ 63) :
    walkBoxes (flatten bs) yield = some (upTo yield (located 0 bs)) := by
  have hwalk : walkFrom ([] ++ flatten bs) yield (flatten bs).length [].length =
      some (upTo yield (located [].length bs)) :=
    walkFrom_flatten bs hshort (length_le_flatten bs)
  exact hwalk

/-- The box that stops the walk is the last one yielded. -/
theorem find_upTo (boxes : List IsobmffBox) :
    (upTo yield boxes).find? (fun b => !yield b) = boxes.find? fun b => !yield b := by
  induction boxes with
  | nil => rfl
  | cons b bs ih =>
    rw [upTo]
    split
    · rename_i hyield
      rw [List.find?_cons_of_neg (by simp [hyield]), List.find?_cons_of_neg (by simp [hyield]), ih]
    · rename_i hyield
      rw [List.find?_cons_of_pos (by simp [hyield]), List.find?_cons_of_pos (by simp [hyield])]

theorem find_located {before after : List Box} {b : Box} {offset : ℕ}
    (hfirst : ∀ b' ∈ before, b'.boxType ≠ b.boxType) :
    (located offset (before ++ b :: after)).find? (fun b' => b'.boxType == b.boxType) =
      some ⟨b.boxType, offset + (flatten before).length,
        offset + (flatten before).length + b.size⟩ := by
  induction before generalizing offset with
  | nil => exact List.find?_cons_of_pos (beq_self_eq_true _)
  | cons b' bs ih =>
    have hne : b'.boxType ≠ b.boxType := hfirst b' List.mem_cons_self
    rw [List.cons_append, located, List.find?_cons_of_neg (by simpa using hne),
      ih fun b'' hb'' => hfirst b'' (List.mem_cons_of_mem _ hb''), flatten_cons, List.length_append,
      Box.length_bytes, Nat.add_assoc offset]

/-- The first box of its type is found where it is. -/
theorem findBox_flatten {before after : List Box} {b : Box}
    (hshort : (flatten (before ++ b :: after)).length < 2 ^ 63)
    (hfirst : ∀ b' ∈ before, b'.boxType ≠ b.boxType) :
    findBox (flatten (before ++ b :: after)) b.boxType =
      some (some ⟨b.boxType, (flatten before).length, (flatten before).length + b.size⟩) := by
  have hstops : (fun b' : IsobmffBox => b'.boxType == b.boxType) =
      fun b' => !(b'.boxType != b.boxType) := by
    funext b'
    exact (Bool.not_not _).symm
  have hfound : (located 0 (before ++ b :: after)).find? (fun b' => b'.boxType == b.boxType) =
      some ⟨b.boxType, 0 + (flatten before).length, 0 + (flatten before).length + b.size⟩ :=
    find_located hfirst
  rw [Nat.zero_add] at hfound
  rw [findBox, walkBoxes_flatten _ hshort, Option.bind_eq_bind, Option.bind_some, hstops, find_upTo,
    ← hstops, hfound]
  rfl

end Walk

end Tekir.MediaBoxes
