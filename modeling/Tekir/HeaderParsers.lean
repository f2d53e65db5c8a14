import Tekir.JpegExif
import Tekir.VideoDuration

/-!
# Headers of uploads

No upload makes the parsers of its headers panic or go on for ever, and the boxes that are yielded
lie one behind the other. The bytes that a program can hold are far fewer than an `int` can count,
so that an offset and a small number are added as they are.
-/
namespace Tekir.HeaderParsers
open Bytes MediaBoxes VideoDuration JpegExif

section Walks

/-- What the runtime allocates at most. -/
def maxAlloc : ℕ := 2 ^ 48

/-- `[]byte`. -/
structure ByteSlice where
  bytes : List UInt8
  length_le : bytes.length ≤ maxAlloc

/-- `walkBoxes` with a yield that may depend on the boxes before; also `none` if the fuel does not
last. -/
def walkWith (buf : List UInt8) (yield : List IsobmffBox → IsobmffBox → Bool) :
    ℕ → List IsobmffBox → ℕ → Option (List IsobmffBox)
  | 0, _, _ => none
  | fuel + 1, seen, offset =>
    if buf.length < offset + 8 then some []
    else do
      let boxType ← slice buf (offset + 4) (offset + 8)
      match ← boxSize buf offset with
      | none => return []
      | some (size, headerSize) =>
        let stop := int64 (offset + int64 size)
        if size < headerSize ∨ buf.length < stop ∨ stop ≤ offset then return []
        else
          let box : IsobmffBox := ⟨boxType, offset, stop.toNat⟩
          if yield seen box then
            return box :: (← walkWith buf yield fuel (seen ++ [box]) stop.toNat)
          else return [box]

/-- The boxes follow each other from the offset on, each with room for its header. -/
inductive Tiles (buf : List UInt8) : ℕ → List IsobmffBox → Prop
  | nil {offset : ℕ} : Tiles buf offset []
  | cons {offset : ℕ} {b : IsobmffBox} {bs : List IsobmffBox} : b.start = offset →
      b.start + 8 ≤ b.stop → b.stop ≤ buf.length → Tiles buf b.stop bs → Tiles buf offset (b :: bs)

/-- The walk ends, with boxes that tile the front of the bytes. -/
def Walked (buf : List UInt8) (yield : List IsobmffBox → IsobmffBox → Bool) : Prop :=
  ∃ boxes, Tiles buf 0 boxes ∧ boxes.Pairwise (fun b b' => b.stop ≤ b'.start) ∧
    ∀ fuel, buf.length < fuel → walkWith buf yield fuel [] 0 = some boxes

/-- The offset of the first directory is so large that the end of its count is not a number of 32
bits, and the count is there. -/
def Wraps (payload : List UInt8) : Prop :=
  ∃ tiff order ifd, payload = exifIdentifier ++ tiff ∧ Header order tiff ifd ∧ 2 ^ 32 ≤ ifd + 2 ∧
    ifd + 2 ≤ tiff.length

end Walks

section Boxes

variable {buf boxType : List UInt8} {yield : List IsobmffBox → IsobmffBox → Bool}
  {seen boxes : List IsobmffBox} {b : IsobmffBox} {fuel offset size headerSize : ℕ}

/-- The header of a box is within the bytes, and its size has 64 bits. -/
theorem boxSize_total (hshort : buf.length < 2 ^ 63) (h : offset + 8 ≤ buf.length) :
    boxSize buf offset = some none ∨ ∃ size headerSize,
      boxSize buf offset = some (some (size, headerSize)) ∧ 8 ≤ headerSize ∧ size < 2 ^ 64 := by
  obtain ⟨field, hfield⟩ := exists_slice buf (Nat.le_add_right offset 4) (by omega)
  have hsmall := bigEndian_lt field
  rw [length_slice hfield, Nat.add_sub_cancel_left] at hsmall
  unfold boxSize
  simp only [hfield, Option.bind_eq_bind, Option.bind_some]
  split
  · exact .inr ⟨_, _, rfl, Nat.le_refl 8, by omega⟩
  · split
    · split
      · exact .inl rfl
      · obtain ⟨large, hlarge⟩ := exists_slice buf (show offset + 8 ≤ offset + 16 by omega)
          (by omega)
        have hlt := bigEndian_lt large
        rw [length_slice hlarge, Nat.add_sub_add_left] at hlt
        simp only [hlarge, Option.bind_some]
        exact .inr ⟨_, _, rfl, by omega, lt_of_lt_of_eq hlt (by norm_num)⟩
    · exact .inr ⟨_, _, rfl, Nat.le_refl 8, lt_of_lt_of_le hsmall (by norm_num)⟩

/-- A size that is not refused is the distance to the stop. -/
theorem stop_bounds (hshort : buf.length < 2 ^ 63) (hoffset : offset ≤ buf.length)
    (hheader : 8 ≤ headerSize) (hsize : size < 2 ^ 64)
    (h : ¬ (size < headerSize ∨ (buf.length : ℤ) < int64 (offset + int64 size) ∨
      int64 (offset + int64 size) ≤ offset)) :
    offset + 8 ≤ (int64 (offset + int64 size)).toNat ∧
      (int64 (offset + int64 size)).toNat ≤ buf.length := by
  push Not at h
  obtain ⟨hmin, hmax, hforward⟩ := h
  have hstop : int64 (offset + int64 size) = offset + size ∨
      int64 (offset + int64 size) ≤ offset := by
    unfold int64
    simp only [Int.bmod_def]
    split <;> split <;> omega
  omega

/-- One box: the walk stops, or yields a box and stops, or goes on behind it. -/
theorem walkWith_cases (hshort : buf.length < 2 ^ 63) (hoffset : offset ≤ buf.length)
    (yield : List IsobmffBox → IsobmffBox → Bool) (seen : List IsobmffBox) :
    (∀ fuel, walkWith buf yield (fuel + 1) seen offset = some []) ∨
    ∃ b : IsobmffBox, b.start = offset ∧ b.start + 8 ≤ b.stop ∧ b.stop ≤ buf.length ∧
      ((∀ fuel, walkWith buf yield (fuel + 1) seen offset = some [b]) ∨
        ∀ fuel, walkWith buf yield (fuel + 1) seen offset =
          (walkWith buf yield fuel (seen ++ [b]) b.stop).map (b :: ·)) := by
  by_cases hroom : buf.length < offset + 8
  · left
    intro fuel
    rw [walkWith, if_pos hroom]
  · obtain ⟨boxType, htype⟩ := exists_slice buf (show offset + 4 ≤ offset + 8 by omega)
      (by omega)
    rcases boxSize_total hshort (show offset + 8 ≤ buf.length by omega) with
      hnone | ⟨size, headerSize, hsome, hheader, hsize⟩
    · left
      intro fuel
      rw [walkWith, if_neg hroom]
      simp only [htype, hnone, Option.bind_eq_bind, Option.bind_some]
      rfl
    · by_cases hrefused : size < headerSize ∨ (buf.length : ℤ) < int64 (offset + int64 size) ∨
          int64 (offset + int64 size) ≤ offset
      · left
        intro fuel
        rw [walkWith, if_neg hroom]
        simp only [htype, hsome, Option.bind_eq_bind, Option.bind_some, if_pos hrefused]
        rfl
      · right
        obtain ⟨hmin, hmax⟩ := stop_bounds hshort hoffset hheader hsize hrefused
        obtain ⟨stop, hstop⟩ : ∃ stop : ℕ, (int64 (offset + int64 size)).toNat = stop := ⟨_, rfl⟩
        rw [hstop] at hmin hmax
        refine ⟨⟨boxType, offset, stop⟩, rfl, hmin, hmax, ?_⟩
        cases hyield : yield seen ⟨boxType, offset, stop⟩ with
        | false =>
          left
          intro fuel
          rw [walkWith, if_neg hroom]
          simp only [htype, hsome, Option.bind_eq_bind, Option.bind_some, if_neg hrefused, hstop,
            hyield]
          rfl
        | true =>
          right
          intro fuel
          rw [walkWith, if_neg hroom]
          simp only [htype, hsome, Option.bind_eq_bind, Option.bind_some, if_neg hrefused, hstop,
            hyield, if_true]
          cases walkWith buf yield fuel (seen ++ [⟨boxType, offset, stop⟩]) stop <;> rfl

theorem Tiles.mem {first : ℕ} (h : Tiles buf first boxes) (hb : b ∈ boxes) :
    first ≤ b.start ∧ b.start + 8 ≤ b.stop ∧ b.stop ≤ buf.length := by
  induction h with
  | nil => cases hb
  | cons hstart hheader hstop _ ih =>
    rcases List.mem_cons.mp hb with rfl | hb
    · exact ⟨hstart.ge, hheader, hstop⟩
    · obtain ⟨hfrom, hrest⟩ := ih hb
      exact ⟨by omega, hrest⟩

theorem Tiles.pairwise (h : Tiles buf offset boxes) :
    boxes.Pairwise fun b b' => b.stop ≤ b'.start := by
  induction h with
  | nil => exact .nil
  | cons _ _ _ hrest ih => exact .cons (fun b' hb' => (hrest.mem hb').1) ih

/-- A walk from an offset ends, however much fuel it has beyond what it needs. -/
theorem walkWith_tiles (yield : List IsobmffBox → IsobmffBox → Bool) (seen : List IsobmffBox)
    (hshort : buf.length < 2 ^ 63) (hfuel : buf.length < offset + fuel)
    (hoffset : offset ≤ buf.length) :
    ∃ boxes, Tiles buf offset boxes ∧
      ∀ fuel, buf.length < offset + fuel → walkWith buf yield fuel seen offset = some boxes := by
  induction fuel generalizing offset seen with
  | zero => omega
  | succ fuel ih =>
    rcases walkWith_cases hshort hoffset yield seen with
      hstop | ⟨b, hstart, hheader, hstop, hlast | hnext⟩
    · refine ⟨[], .nil, fun fuel hfuel => ?_⟩
      obtain ⟨fuel, rfl⟩ := Nat.exists_eq_succ_of_ne_zero (show fuel ≠ 0 by omega)
      exact hstop fuel
    · refine ⟨[b], .cons hstart hheader hstop .nil, fun fuel hfuel => ?_⟩
      obtain ⟨fuel, rfl⟩ := Nat.exists_eq_succ_of_ne_zero (show fuel ≠ 0 by omega)
      exact hlast fuel
    · obtain ⟨boxes, htiles, hwalk⟩ := ih (seen ++ [b]) (by omega) hstop
      refine ⟨b :: boxes, .cons hstart hheader hstop htiles, fun fuel hfuel => ?_⟩
      obtain ⟨fuel, rfl⟩ := Nat.exists_eq_succ_of_ne_zero (show fuel ≠ 0 by omega)
      rw [hnext, hwalk fuel (by omega)]
      rfl

theorem walked (s : ByteSlice) (yield : List IsobmffBox → IsobmffBox → Bool) :
    Walked s.bytes yield := by
  have hle := s.length_le
  have hshort : s.bytes.length < 2 ^ 63 := lt_of_le_of_lt hle (by norm_num [maxAlloc])
  obtain ⟨boxes, htiles, hwalk⟩ := walkWith_tiles yield [] hshort
    (show s.bytes.length < 0 + (s.bytes.length + 1) by omega) (Nat.zero_le _)
  exact ⟨boxes, htiles, htiles.pairwise, fun fuel hfuel => hwalk fuel (by omega)⟩

/-- A yield that forgets is the one of `walkFrom`. -/
theorem walkFrom_eq {yield : IsobmffBox → Bool} (seen : List IsobmffBox) (hoffset : offset ≤ buf.length)
    (hfuel : buf.length ≤ offset + fuel) :
    walkFrom buf yield fuel offset = walkWith buf (fun _ => yield) (fuel + 1) seen offset := by
  induction fuel generalizing offset seen with
  | zero => rw [walkFrom, walkWith, if_pos (by omega)]
  | succ fuel ih =>
    rw [walkFrom, walkWith]
    split
    · rfl
    · cases slice buf (offset + 4) (offset + 8) with
      | none => rw [Option.bind_eq_bind, Option.bind_none, Option.bind_eq_bind, Option.bind_none]
      | some boxType =>
        simp only [Option.bind_eq_bind, Option.bind_some]
        cases boxSize buf offset with
        | none => rw [Option.bind_none, Option.bind_none]
        | some found =>
          simp only [Option.bind_some]
          cases found with
          | none => rfl
          | some sizes =>
            dsimp only
            split
            · rfl
            · rename_i hin
              split
              · rw [ih _ (by omega) (by omega)]
              · rfl

theorem walkBoxes_tiles (hshort : buf.length < 2 ^ 63) (yield : IsobmffBox → Bool) :
    ∃ boxes, walkBoxes buf yield = some boxes ∧ Tiles buf 0 boxes := by
  obtain ⟨boxes, htiles, hwalk⟩ := walkWith_tiles (fun _ => yield) [] hshort
    (show buf.length < 0 + (buf.length + 1) by omega) (Nat.zero_le _)
  refine ⟨boxes, ?_, htiles⟩
  rw [walkBoxes, walkFrom_eq [] (Nat.zero_le _) (by omega), hwalk _ (by omega)]

/-- A box that is found can be sliced. -/
theorem findBox_total (hshort : buf.length < 2 ^ 63) (boxType : List UInt8) :
    findBox buf boxType = some none ∨ ∃ b : IsobmffBox, findBox buf boxType = some (some b) ∧
      b.start + 8 ≤ b.stop ∧ b.stop ≤ buf.length := by
  obtain ⟨boxes, hboxes, htiles⟩ := walkBoxes_tiles hshort fun b => b.boxType != boxType
  rw [findBox, hboxes, Option.bind_eq_bind, Option.bind_some]
  cases hfind : boxes.find? fun b => b.boxType == boxType with
  | none => exact .inl rfl
  | some b => exact .inr ⟨b, rfl, (htiles.mem (List.mem_of_find?_eq_some hfind)).2⟩

end Boxes

section Parsers

variable {content raw payload tiff : List UInt8} {order : ByteOrder} {ifd : ℕ}

theorem mvhdSeconds_total : ∃ seconds, mvhdSeconds content = some seconds := by
  unfold mvhdSeconds
  split
  · exact ⟨_, rfl⟩
  · have hversion : content[0]? = some content[0] := List.getElem?_eq_getElem (by omega)
    simp only [hversion, Option.bind_eq_bind, Option.bind_some]
    split
    · split
      · exact ⟨_, rfl⟩
      · obtain ⟨timescale, htimescale⟩ := exists_slice content (show 12 ≤ 16 by omega)
          (by omega)
        obtain ⟨duration, hduration⟩ := exists_slice content (show 16 ≤ 20 by omega)
          (by omega)
        simp only [htimescale, hduration, Option.bind_some]
        exact ⟨_, rfl⟩
    · split
      · split
        · exact ⟨_, rfl⟩
        · obtain ⟨timescale, htimescale⟩ := exists_slice content (show 20 ≤ 24 by omega)
            (by omega)
          obtain ⟨duration, hduration⟩ := exists_slice content (show 24 ≤ 32 by omega)
            (by omega)
          simp only [htimescale, hduration, Option.bind_some]
          exact ⟨_, rfl⟩
      · exact ⟨_, rfl⟩

theorem videoDurationSeconds_total (hshort : raw.length < 2 ^ 63) :
    ∃ seconds, videoDurationSeconds raw = some seconds := by
  unfold videoDurationSeconds
  rcases findBox_total hshort moov with hnone | ⟨outer, houter, hheader, hstop⟩
  · rw [hnone]
    exact ⟨_, rfl⟩
  · obtain ⟨body, hbody⟩ := exists_slice raw hheader hstop
    have hlength := length_slice hbody
    rw [houter]
    simp only [hbody, Option.bind_eq_bind, Option.bind_some]
    rcases findBox_total (show body.length < 2 ^ 63 by omega) mvhd with
      hnone | ⟨inner, hinner, hheader', hstop'⟩
    · rw [hnone]
      exact ⟨_, rfl⟩
    · obtain ⟨content, hcontent⟩ := exists_slice raw
        (show outer.start + 8 + inner.start + 8 ≤ outer.start + 8 + inner.stop by omega) (by omega)
      rw [hinner]
      simp only [hcontent, Option.bind_some]
      exact mvhdSeconds_total

/-- The end of the count wraps around, and lies before the count. -/
theorem exif_of_wraps (hheader : Header order tiff ifd) (hwrap : 2 ^ 32 ≤ ifd + 2)
    (hin : ifd + 2 ≤ tiff.length) :
    exifOrientationFromAPP1 (exifIdentifier ++ tiff) = none := by
  obtain ⟨hidentifier, htiff⟩ := slice_identifier tiff
  obtain ⟨magic, hmagic, h42⟩ := hheader.magic
  have hlt := hheader.offset.lt
  obtain ⟨offset, hoffset, rfl⟩ := hheader.offset
  have hlength : (exifIdentifier ++ tiff).length = 6 + tiff.length := List.length_append
  have hback : slice tiff (order.number offset) ((order.number offset + 2) % 2 ^ 32) = none := by
    rw [slice, if_neg (by omega)]
  rw [exifOrientationFromAPP1, if_neg (by omega)]
  simp only [hidentifier, htiff, Option.bind_eq_bind, Option.bind_some, ne_eq, not_true, if_false,
    if_neg (show ¬ tiff.length < 8 by omega), hheader.mark, byteOrder_eq_some.mpr rfl, hmagic, h42,
    hoffset, if_neg (show ¬ tiff.length < order.number offset + 2 by omega), hback]
  rfl

theorem exif_eq_none : exifOrientationFromAPP1 payload = none ↔ Wraps payload := by
  constructor
  · intro hnone
    by_contra hwraps
    by_cases h : ∀ tiff order ifd, payload = exifIdentifier ++ tiff → Header order tiff ifd →
        tiff.length < ifd + 2
    · rw [exif_of_no_header h] at hnone
      cases hnone
    · push Not at h
      obtain ⟨tiff, order, ifd, rfl, hheader, hin⟩ := h
      have hsmall : ifd + 2 < 2 ^ 32 := by
        by_contra hwrap
        exact hwraps ⟨tiff, order, ifd, rfl, hheader, by omega, hin⟩
      obtain ⟨count, hcount⟩ := exists_field order hin
      obtain ⟨found, hfound⟩ := entriesFrom_total order tiff (ifd + 2) count 0
      rw [exif_of_header hsmall hheader hcount, hfound] at hnone
      cases hnone
  · rintro ⟨tiff, order, ifd, rfl, hheader, hwrap, hin⟩
    exact exif_of_wraps hheader hwrap hin

theorem Wraps.le (h : Wraps payload) : 2 ^ 32 + 6 ≤ payload.length := by
  obtain ⟨tiff, order, ifd, rfl, -, hwrap, hin⟩ := h
  have hlength : (exifIdentifier ++ tiff).length = 6 + tiff.length := List.length_append
  omega

end Parsers

/-- The parsers return for every upload, except the one for a payload of more than four gigabytes
whose directory begins at one of the last two offsets of 32 bits. -/
theorem headers_total :
    (∀ (s : ByteSlice) yield, Walked s.bytes yield) ∧
    (∀ s : ByteSlice, ∃ seconds, videoDurationSeconds s.bytes = some seconds) ∧
    (∀ s : ByteSlice, ∃ orientation, jpegExifOrientation s.bytes = some orientation) ∧
    (∀ s : ByteSlice, (∃ found, exifOrientationFromAPP1 s.bytes = some found) ↔ ¬ Wraps s.bytes) ∧
    ∀ s : ByteSlice, Wraps s.bytes → 2 ^ 32 + 6 ≤ s.bytes.length := by
  refine ⟨walked, fun s => ?_, fun s => jpegExifOrientation_total s.bytes, fun s => ?_,
    fun s h => h.le⟩
  · exact videoDurationSeconds_total (lt_of_le_of_lt s.length_le (by norm_num [maxAlloc]))
  · rw [← exif_eq_none, ← Option.ne_none_iff_exists']

/-- A header in front of any bytes. -/
theorem header_last (rest : List UInt8) : Header .bigEndian
    (ascii "MM" ++ ([0, 42] ++ ([0xFF, 0xFF, 0xFF, 0xFE] ++ rest))) 4294967294 where
  mark := by
    have hmark : slice ([] ++ (ascii "MM" ++ ([0, 42] ++ ([0xFF, 0xFF, 0xFF, 0xFE] ++ rest)))) 0 2 =
        some (ascii "MM") := slice_between rfl rfl
    exact hmark
  magic := ⟨[0, 42], slice_between rfl rfl, by decide⟩
  offset := by
    have hoffset : slice ((ascii "MM" ++ [0, 42]) ++ ([0xFF, 0xFF, 0xFF, 0xFE] ++ rest)) 4 8 =
        some [0xFF, 0xFF, 0xFF, 0xFE] := slice_between rfl rfl
    rw [List.append_assoc] at hoffset
    exact ⟨_, hoffset, by decide⟩

/-- The directory begins two bytes before the end. -/
def hugePayload : ByteSlice where
  bytes := exifIdentifier ++ (ascii "MM" ++ ([0, 42] ++ ([0xFF, 0xFF, 0xFF, 0xFE] ++
    List.replicate 4294967288 0)))
  length_le := by
    rw [List.length_append, List.length_append, List.length_append, List.length_append,
      List.length_replicate]
    decide

/-- A program that holds it panics. -/
theorem hugePayload_panics : exifOrientationFromAPP1 hugePayload.bytes = none := by
  refine exif_eq_none.mpr ⟨_, _, _, rfl, header_last _, by norm_num, ?_⟩
  rw [List.length_append, List.length_append, List.length_append, List.length_replicate]
  decide

end Tekir.HeaderParsers
