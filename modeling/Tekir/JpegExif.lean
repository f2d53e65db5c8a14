import Tekir.Bytes

/-!
# The orientation in a JPEG

`jpegExifOrientation` and `exifOrientationFromAPP1` with their panics, which are `none`, and what
they find, as relations on the bytes. An offset of 32 bits is added to in 32 bits.
-/
namespace Tekir.JpegExif
open Bytes

section Code

/-- `binary.ByteOrder`. -/
inductive ByteOrder | littleEndian | bigEndian
  deriving DecidableEq

def ByteOrder.number : ByteOrder → List UInt8 → ℕ
  | .littleEndian, bs => Bytes.bigEndian bs.reverse
  | .bigEndian, bs => Bytes.bigEndian bs

def ByteOrder.mark : ByteOrder → List UInt8
  | .littleEndian => ascii "II"
  | .bigEndian => ascii "MM"

def byteOrder (mark : List UInt8) : Option ByteOrder :=
  if mark = ByteOrder.mark .littleEndian then some .littleEndian
  else if mark = ByteOrder.mark .bigEndian then some .bigEndian
  else none

def exifIdentifier : List UInt8 :=
  ascii "Exif" ++ [0, 0]

def orientationTag : ℕ := 0x0112

/-- The `n` entries from the `i`-th on. The inner `none` is that no orientation is found. -/
def entriesFrom (order : ByteOrder) (tiff : List UInt8) (base : ℕ) : ℕ → ℕ → Option (Option ℕ)
  | 0, _ => some none
  | n + 1, i =>
    let entryOffset := base + i * 12
    if tiff.length < entryOffset + 12 then some none
    else do
      if order.number (← slice tiff entryOffset (entryOffset + 2)) ≠ orientationTag then
        entriesFrom order tiff base n (i + 1)
      else
        let value := order.number (← slice tiff (entryOffset + 8) (entryOffset + 10))
        if value < 1 ∨ 8 < value then return none else return some value

def exifOrientationFromAPP1 (payload : List UInt8) : Option (Option ℕ) :=
  if payload.length < 8 then some none
  else do
    if (← slice payload 0 6) ≠ exifIdentifier then return none
    else
      let tiff ← slice payload 6 payload.length
      if tiff.length < 8 then return none
      else
        match byteOrder (← slice tiff 0 2) with
        | none => return none
        | some order =>
          if order.number (← slice tiff 2 4) ≠ 42 then return none
          else
            let ifdOffset := order.number (← slice tiff 4 8)
            if tiff.length < ifdOffset + 2 then return none
            else
              let entryCount := order.number (← slice tiff ifdOffset ((ifdOffset + 2) % 2 ^ 32))
              entriesFrom order tiff (ifdOffset + 2) entryCount 0

def app1 : UInt8 := 0xE1

def startOfScan : UInt8 := 0xDA

/-- The segments from the offset on; also `none` if the fuel does not last. -/
def segmentsFrom (raw : List UInt8) : ℕ → ℕ → Option ℕ
  | 0, _ => none
  | fuel + 1, offset =>
    if raw.length < offset + 4 then some 1
    else do
      if (← raw[offset]?) ≠ 0xFF then return 1
      else
        let marker ← raw[offset + 1]?
        if marker = startOfScan then return 1
        else
          let segmentLen := bigEndian (← slice raw (offset + 2) (offset + 4))
          if segmentLen < 2 ∨ raw.length < offset + 2 + segmentLen then return 1
          else
            let found ←
              if marker = app1 then
                exifOrientationFromAPP1 (← slice raw (offset + 4) (offset + 2 + segmentLen))
              else some none
            match found with
            | some orientation => return orientation
            | none => segmentsFrom raw fuel (offset + 2 + segmentLen)

/-- The scan passes at least four bytes with each segment. -/
def jpegExifOrientation (raw : List UInt8) : Option ℕ :=
  if raw.length < 4 then some 1
  else do
    if (← raw[0]?) ≠ 0xFF then return 1
    else if (← raw[1]?) ≠ 0xD8 then return 1
    else segmentsFrom raw raw.length 2

end Code

section Format

/-- The bytes at the offset are a number. -/
def Field (order : ByteOrder) (tiff : List UInt8) (offset width n : ℕ) : Prop :=
  ∃ bs, slice tiff offset (offset + width) = some bs ∧ order.number bs = n

/-- Where the entries of a directory are, after their count. -/
def entryAt (ifd i : ℕ) : ℕ :=
  ifd + 2 + i * 12

/-- Entry `i` of the first directory is the one for the orientation, whose value is one of eight. -/
structure OrientationEntry (order : ByteOrder) (tiff : List UInt8) (ifd i v : ℕ) : Prop where
  mark : slice tiff 0 2 = some order.mark
  magic : Field order tiff 2 2 42
  offset : Field order tiff 4 4 ifd
  counted : ∃ count, Field order tiff ifd 2 count ∧ i < count
  whole : entryAt ifd i + 12 ≤ tiff.length
  tagged : Field order tiff (entryAt ifd i) 2 orientationTag
  first : ∀ j < i, ¬ Field order tiff (entryAt ifd j) 2 orientationTag
  value : Field order tiff (entryAt ifd i + 8) 2 v
  valid : 1 ≤ v ∧ v ≤ 8

def HasOrientation (payload : List UInt8) (v : ℕ) : Prop :=
  ∃ tiff, payload = exifIdentifier ++ tiff ∧ ∃ order ifd i, OrientationEntry order tiff ifd i v

/-- The bytes at the offset read as a marker and a segment, which is not the start of the scan. -/
structure Lead (raw : List UInt8) (offset : ℕ) (marker : UInt8) (content : List UInt8) : Prop where
  prefixed : raw[offset]? = some 0xFF
  marked : raw[offset + 1]? = some marker
  before_scan : marker ≠ startOfScan
  sized : ∃ bs, slice raw (offset + 2) (offset + 4) = some bs ∧ bigEndian bs = 2 + content.length
  whole : slice raw (offset + 4) (offset + 4 + content.length) = some content

/-- Read as segments from the offset on, the bytes have a first one with an orientation. -/
inductive Finds (raw : List UInt8) : ℕ → ℕ → Prop
  | here {offset v : ℕ} {content : List UInt8} : Lead raw offset app1 content →
      HasOrientation content v → Finds raw offset v
  | later {offset v : ℕ} {marker : UInt8} {content : List UInt8} : Lead raw offset marker content →
      (marker = app1 → ∀ w, ¬ HasOrientation content w) →
      Finds raw (offset + 4 + content.length) v → Finds raw offset v

/-- The first orientation, or 1. -/
def Reads (raw : List UInt8) (offset v : ℕ) : Prop :=
  Finds raw offset v ∨ (v = 1 ∧ ∀ w, ¬ Finds raw offset w)

end Format

section Fields

variable {order : ByteOrder} {tiff bs : List UInt8} {offset width n m : ℕ}

theorem number_lt (order : ByteOrder) (bs : List UInt8) : order.number bs < 256 ^ bs.length := by
  cases order with
  | littleEndian => exact lt_of_lt_of_eq (bigEndian_lt _) (by rw [List.length_reverse])
  | bigEndian => exact bigEndian_lt bs

theorem exists_field (order : ByteOrder) (h : offset + width ≤ tiff.length) :
    ∃ n, Field order tiff offset width n := by
  obtain ⟨bs, hbs⟩ := exists_slice tiff (Nat.le_add_right offset width) h
  exact ⟨_, bs, hbs, rfl⟩

theorem Field.le (h : Field order tiff offset width n) : offset + width ≤ tiff.length := by
  obtain ⟨bs, hbs, -⟩ := h
  exact (slice_eq_some.mp hbs).2.1

theorem Field.lt (h : Field order tiff offset width n) : n < 256 ^ width := by
  obtain ⟨bs, hbs, rfl⟩ := h
  have hlt := number_lt order bs
  rwa [length_slice hbs, Nat.add_sub_cancel_left] at hlt

theorem Field.unique (h : Field order tiff offset width n) (h' : Field order tiff offset width m) :
    n = m := by
  obtain ⟨bs, hbs, rfl⟩ := h
  obtain ⟨bs', hbs', rfl⟩ := h'
  rw [hbs] at hbs'
  rw [Option.some_inj.mp hbs']

end Fields

section Entries

variable {order : ByteOrder} {tiff : List UInt8} {base i k n tag v w : ℕ}

/-- The first entry from the `i`-th on for the orientation is the `k`-th, and is valid. -/
structure FirstFrom (order : ByteOrder) (tiff : List UInt8) (base i k v : ℕ) : Prop where
  le : i ≤ k
  whole : base + k * 12 + 12 ≤ tiff.length
  tagged : Field order tiff (base + k * 12) 2 orientationTag
  first : ∀ j, i ≤ j → j < k → ¬ Field order tiff (base + j * 12) 2 orientationTag
  value : Field order tiff (base + k * 12 + 8) 2 v
  valid : 1 ≤ v ∧ v ≤ 8

theorem entriesFrom_short (h : tiff.length < base + i * 12 + 12) :
    entriesFrom order tiff base (n + 1) i = some none := by
  rw [entriesFrom, if_pos h]

theorem entriesFrom_other (hwhole : base + i * 12 + 12 ≤ tiff.length)
    (htag : Field order tiff (base + i * 12) 2 tag) (hne : tag ≠ orientationTag) :
    entriesFrom order tiff base (n + 1) i = entriesFrom order tiff base n (i + 1) := by
  obtain ⟨bs, hbs, rfl⟩ := htag
  rw [entriesFrom, if_neg (by omega)]
  simp only [hbs, Option.bind_eq_bind, Option.bind_some, if_pos hne]

theorem entriesFrom_tagged (hwhole : base + i * 12 + 12 ≤ tiff.length)
    (htag : Field order tiff (base + i * 12) 2 orientationTag)
    (hvalue : Field order tiff (base + i * 12 + 8) 2 v) :
    entriesFrom order tiff base (n + 1) i =
      some (if v < 1 ∨ 8 < v then none else some v) := by
  obtain ⟨bs, hbs, htag⟩ := htag
  obtain ⟨bs', hbs', rfl⟩ := hvalue
  have hne : ¬ order.number bs ≠ orientationTag := not_not.mpr htag
  rw [entriesFrom, if_neg (by omega)]
  simp only [hbs, hbs', Option.bind_eq_bind, Option.bind_some, if_neg hne]
  split <;> rfl

/-- An entry is beyond the end, of another tag, or the first for the orientation. -/
theorem entriesFrom_cases (order : ByteOrder) (tiff : List UInt8) (base n i : ℕ) :
    (tiff.length < base + i * 12 + 12 ∧
      entriesFrom order tiff base (n + 1) i = some none) ∨
    (base + i * 12 + 12 ≤ tiff.length ∧
      ¬ Field order tiff (base + i * 12) 2 orientationTag ∧
        entriesFrom order tiff base (n + 1) i = entriesFrom order tiff base n (i + 1)) ∨
    ∃ v, base + i * 12 + 12 ≤ tiff.length ∧
      Field order tiff (base + i * 12) 2 orientationTag ∧
        Field order tiff (base + i * 12 + 8) 2 v ∧
          entriesFrom order tiff base (n + 1) i =
            some (if v < 1 ∨ 8 < v then none else some v) := by
  by_cases hshort : tiff.length < base + i * 12 + 12
  · exact .inl ⟨hshort, entriesFrom_short hshort⟩
  · have hwhole : base + i * 12 + 12 ≤ tiff.length := by omega
    have hfront : base + i * 12 + 2 ≤ tiff.length := by omega
    obtain ⟨tag, htag⟩ := exists_field order hfront
    by_cases hne : tag = orientationTag
    · subst hne
      have hback : base + i * 12 + 8 + 2 ≤ tiff.length := by omega
      obtain ⟨v, hv⟩ := exists_field order hback
      exact .inr (.inr ⟨v, hwhole, htag, hv, entriesFrom_tagged hwhole htag hv⟩)
    · exact .inr (.inl ⟨hwhole, fun h => hne (htag.unique h), entriesFrom_other hwhole htag hne⟩)

theorem entriesFrom_total (order : ByteOrder) (tiff : List UInt8) (base n i : ℕ) :
    ∃ found, entriesFrom order tiff base n i = some found := by
  induction n generalizing i with
  | zero => exact ⟨none, rfl⟩
  | succ n ih =>
    rcases entriesFrom_cases order tiff base n i with ⟨-, h⟩ | ⟨-, -, h⟩ | ⟨v, -, -, -, h⟩
    · exact ⟨_, h⟩
    · rw [h]
      exact ih _
    · exact ⟨_, h⟩

theorem FirstFrom.later (h : FirstFrom order tiff base i k v) (hlt : i < k) :
    FirstFrom order tiff base (i + 1) k v :=
  ⟨hlt, h.whole, h.tagged, fun j hj => h.first j (by omega), h.value, h.valid⟩

theorem FirstFrom.earlier (h : FirstFrom order tiff base (i + 1) k v)
    (hne : ¬ Field order tiff (base + i * 12) 2 orientationTag) :
    FirstFrom order tiff base i k v := by
  refine ⟨by have := h.le; omega, h.whole, h.tagged, ?_, h.value, h.valid⟩
  intro j hj hlt
  rcases Nat.eq_or_lt_of_le hj with rfl | hj
  · exact hne
  · exact h.first j hj hlt

/-- The loop finds the value of the first entry for the orientation, if it is valid. -/
theorem entriesFrom_eq : entriesFrom order tiff base n i = some (some v) ↔
    ∃ k, k < i + n ∧ FirstFrom order tiff base i k v := by
  induction n generalizing i with
  | zero =>
    refine ⟨by rintro ⟨⟩, ?_⟩
    rintro ⟨k, hk, h⟩
    have hle := h.le
    omega
  | succ n ih =>
    rcases entriesFrom_cases order tiff base n i with
      ⟨hshort, h⟩ | ⟨hwhole, hne, h⟩ | ⟨w, hwhole, htag, hvalue, h⟩
    · rw [h]
      refine ⟨by rintro ⟨⟩, ?_⟩
      rintro ⟨k, -, hk⟩
      have hle := hk.le
      have hin := hk.whole
      omega
    · rw [h, ih]
      constructor
      · rintro ⟨k, hk, hfirst⟩
        exact ⟨k, by omega, hfirst.earlier hne⟩
      · rintro ⟨k, hk, hfirst⟩
        have hlt : i < k := by
          rcases Nat.eq_or_lt_of_le hfirst.le with rfl | hlt
          · exact absurd hfirst.tagged hne
          · exact hlt
        exact ⟨k, by omega, hfirst.later hlt⟩
    · rw [h, Option.some_inj]
      constructor
      · intro hv
        split at hv
        · cases hv
        · obtain rfl := Option.some_inj.mp hv
          exact ⟨i, by omega, Nat.le_refl i, hwhole, htag, fun j hj hlt => by omega, hvalue, by omega⟩
      · rintro ⟨k, -, hfirst⟩
        have hk : k = i := by
          by_contra hne
          have hle := hfirst.le
          exact hfirst.first i (Nat.le_refl i) (by omega) htag
        subst hk
        obtain rfl := hvalue.unique hfirst.value
        have hvalid := hfirst.valid
        rw [if_neg (by omega)]

end Entries

section Directories

variable {order : ByteOrder} {payload tiff bs : List UInt8} {ifd count v : ℕ}

/-- The header of a TIFF structure. -/
structure Header (order : ByteOrder) (tiff : List UInt8) (ifd : ℕ) : Prop where
  mark : slice tiff 0 2 = some order.mark
  magic : Field order tiff 2 2 42
  offset : Field order tiff 4 4 ifd

theorem byteOrder_eq_some : byteOrder bs = some order ↔ bs = order.mark := by
  have hne : ByteOrder.mark .bigEndian ≠ ByteOrder.mark .littleEndian := by decide
  unfold byteOrder
  constructor
  · intro h
    split at h
    · rename_i hmark
      cases h
      exact hmark
    · split at h
      · rename_i hmark
        cases h
        exact hmark
      · cases h
  · rintro rfl
    cases order with
    | littleEndian => rw [if_pos rfl]
    | bigEndian => rw [if_neg hne, if_pos rfl]

/-- What follows the identifier. -/
theorem slice_identifier (tiff : List UInt8) :
    slice (exifIdentifier ++ tiff) 0 6 = some exifIdentifier ∧
    slice (exifIdentifier ++ tiff) 6 (exifIdentifier ++ tiff).length = some tiff := by
  have hsix : exifIdentifier.length = 6 := rfl
  constructor
  · have hhead : slice ([] ++ (exifIdentifier ++ tiff)) 0 6 = some exifIdentifier :=
      slice_between rfl rfl
    exact hhead
  · have htail : slice (exifIdentifier ++ (tiff ++ [])) 6 (exifIdentifier ++ tiff).length =
        some tiff := slice_between rfl (by rw [List.length_append, hsix])
    rwa [List.append_nil] at htail

theorem exif_of_header (hsmall : ifd + 2 < 2 ^ 32) (h : Header order tiff ifd)
    (hcount : Field order tiff ifd 2 count) :
    exifOrientationFromAPP1 (exifIdentifier ++ tiff) =
      entriesFrom order tiff (ifd + 2) count 0 := by
  obtain ⟨hidentifier, htiff⟩ := slice_identifier tiff
  obtain ⟨magic, hmagic, h42⟩ := h.magic
  obtain ⟨offset, hoffset, rfl⟩ := h.offset
  have height := h.offset.le
  have hin := hcount.le
  obtain ⟨number, hnumber, rfl⟩ := hcount
  have hlength : (exifIdentifier ++ tiff).length = 6 + tiff.length := List.length_append
  have hwrap : (order.number offset + 2) % 2 ^ 32 = order.number offset + 2 :=
    Nat.mod_eq_of_lt hsmall
  rw [exifOrientationFromAPP1, if_neg (by omega)]
  simp only [hidentifier, htiff, Option.bind_eq_bind, Option.bind_some, ne_eq, not_true, if_false,
    if_neg (show ¬ tiff.length < 8 by omega), h.mark, byteOrder_eq_some.mpr rfl, hmagic, h42,
    hoffset, if_neg (show ¬ tiff.length < order.number offset + 2 by omega), hwrap, hnumber]

/-- Without a header and a place for the count nothing is found. -/
theorem exif_of_no_header
    (h : ∀ tiff order ifd, payload = exifIdentifier ++ tiff → Header order tiff ifd →
      tiff.length < ifd + 2) : exifOrientationFromAPP1 payload = some none := by
  unfold exifOrientationFromAPP1
  split
  · rfl
  · rename_i hlength
    obtain ⟨identifier, hidentifier⟩ := exists_slice payload (Nat.zero_le 6) (by omega)
    simp only [hidentifier, Option.bind_eq_bind, Option.bind_some]
    split
    · rfl
    · rename_i hexif
      obtain ⟨tiff, rfl⟩ : ∃ tiff, payload = exifIdentifier ++ tiff := by
        obtain ⟨-, -, htake⟩ := slice_eq_some.mp hidentifier
        refine ⟨payload.drop 6, ?_⟩
        calc payload = payload.take 6 ++ payload.drop 6 := (List.take_append_drop 6 payload).symm
          _ = exifIdentifier ++ payload.drop 6 := by rw [← not_not.mp hexif, htake]; rfl
      simp only [(slice_identifier tiff).2, Option.bind_some]
      split
      · rfl
      · rename_i height
        obtain ⟨mark, hmark⟩ := exists_slice tiff (Nat.zero_le 2) (by omega)
        simp only [hmark, Option.bind_some]
        cases horder : byteOrder mark with
        | none => rfl
        | some order =>
          rw [byteOrder_eq_some.mp horder] at hmark
          obtain ⟨magic, hmagic⟩ := exists_slice tiff (show 2 ≤ 4 by omega) (by omega)
          simp only [hmagic, Option.bind_some]
          split
          · rfl
          · rename_i h42
            obtain ⟨offset, hoffset⟩ := exists_slice tiff (show 4 ≤ 8 by omega) (by omega)
            have hheader : Header order tiff (order.number offset) :=
              ⟨hmark, ⟨magic, hmagic, not_not.mp h42⟩, offset, hoffset, rfl⟩
            simp only [hoffset, Option.bind_some]
            rw [if_pos (h tiff order _ rfl hheader)]
            rfl

theorem exif_cases (hshort : payload.length < 2 ^ 32 + 6) :
    ((∀ tiff order ifd, payload = exifIdentifier ++ tiff → Header order tiff ifd →
        tiff.length < ifd + 2) ∧ exifOrientationFromAPP1 payload = some none) ∨
    ∃ tiff order ifd count, payload = exifIdentifier ++ tiff ∧ Header order tiff ifd ∧
      Field order tiff ifd 2 count ∧
        exifOrientationFromAPP1 payload = entriesFrom order tiff (ifd + 2) count 0 := by
  by_cases h : ∀ tiff order ifd, payload = exifIdentifier ++ tiff → Header order tiff ifd →
      tiff.length < ifd + 2
  · exact .inl ⟨h, exif_of_no_header h⟩
  · push Not at h
    obtain ⟨tiff, order, ifd, rfl, hheader, hin⟩ := h
    obtain ⟨count, hcount⟩ := exists_field order hin
    have hsix : (exifIdentifier ++ tiff).length = 6 + tiff.length := List.length_append
    exact .inr ⟨tiff, order, ifd, count, rfl, hheader, hcount,
      exif_of_header (show ifd + 2 < 2 ^ 32 by omega) hheader hcount⟩

theorem exif_total (hshort : payload.length < 2 ^ 32 + 6) :
    ∃ found, exifOrientationFromAPP1 payload = some found := by
  rcases exif_cases hshort with ⟨-, h⟩ | ⟨tiff, order, ifd, count, -, -, -, h⟩
  · exact ⟨none, h⟩
  · rw [h]
    exact entriesFrom_total _ _ _ _ _

theorem Header.unique {order' : ByteOrder} {ifd' : ℕ} (h : Header order tiff ifd)
    (h' : Header order' tiff ifd') : order = order' ∧ ifd = ifd' := by
  have hmark : order.mark = order'.mark := Option.some_inj.mp (h.mark.symm.trans h'.mark)
  have horder : some order = some order' := by
    rw [← byteOrder_eq_some.mpr rfl, hmark, byteOrder_eq_some.mpr rfl]
  obtain rfl := Option.some_inj.mp horder
  exact ⟨rfl, h.offset.unique h'.offset⟩

/-- The payload has the orientation that is found. -/
theorem exif_eq (hshort : payload.length < 2 ^ 32 + 6) :
    exifOrientationFromAPP1 payload = some (some v) ↔ HasOrientation payload v := by
  rcases exif_cases hshort with ⟨hnone, h⟩ | ⟨tiff, order, ifd, count, rfl, hheader, hcount, h⟩
  · rw [h]
    refine ⟨by rintro ⟨⟩, ?_⟩
    rintro ⟨tiff, hpayload, order, ifd, i, hentry⟩
    obtain ⟨count, hcount, -⟩ := hentry.counted
    have hle := hcount.le
    have hlt := hnone tiff order ifd hpayload ⟨hentry.mark, hentry.magic, hentry.offset⟩
    omega
  · rw [h, entriesFrom_eq]
    constructor
    · rintro ⟨k, hk, hfirst⟩
      refine ⟨tiff, rfl, order, ifd, k, hheader.mark, hheader.magic, hheader.offset,
        ⟨count, hcount, by omega⟩, hfirst.whole, hfirst.tagged, ?_, hfirst.value, hfirst.valid⟩
      exact fun j hj => hfirst.first j (Nat.zero_le j) hj
    · rintro ⟨tiff', happend, order', ifd', i, hentry⟩
      obtain rfl := List.append_cancel_left happend
      obtain ⟨rfl, rfl⟩ := hheader.unique ⟨hentry.mark, hentry.magic, hentry.offset⟩
      obtain ⟨count', hcount', hi⟩ := hentry.counted
      obtain rfl := hcount.unique hcount'
      exact ⟨i, by omega, Nat.zero_le i, hentry.whole, hentry.tagged,
        fun j _ hj => hentry.first j hj, hentry.value, hentry.valid⟩

theorem HasOrientation.unique {w : ℕ} (hshort : payload.length < 2 ^ 32 + 6)
    (h : HasOrientation payload v) (h' : HasOrientation payload w) : v = w := by
  have hv := (exif_eq hshort).mpr h
  rw [(exif_eq hshort).mpr h'] at hv
  exact (Option.some_inj.mp (Option.some_inj.mp hv)).symm

end Directories

section Segments

variable {raw content content' : List UInt8} {marker marker' : UInt8} {offset fuel v w : ℕ}

theorem Lead.le (h : Lead raw offset marker content) :
    offset + 4 + content.length ≤ raw.length :=
  (slice_eq_some.mp h.whole).2.1

theorem Lead.short (h : Lead raw offset marker content) : content.length < 2 ^ 32 + 6 := by
  obtain ⟨bs, hbs, hlength⟩ := h.sized
  have hlt := bigEndian_lt bs
  rw [length_slice hbs, Nat.add_sub_add_left, hlength] at hlt
  omega

theorem Lead.unique (h : Lead raw offset marker content) (h' : Lead raw offset marker' content') :
    marker = marker' ∧ content = content' := by
  refine ⟨Option.some_inj.mp (h.marked.symm.trans h'.marked), ?_⟩
  obtain ⟨bs, hbs, hlength⟩ := h.sized
  obtain ⟨bs', hbs', hlength'⟩ := h'.sized
  obtain rfl := Option.some_inj.mp (hbs.symm.trans hbs')
  have hsame : content.length = content'.length := by omega
  have hwhole := h'.whole
  rw [← hsame, h.whole] at hwhole
  exact Option.some_inj.mp hwhole

theorem segmentsFrom_lead (h : Lead raw offset marker content) :
    segmentsFrom raw (fuel + 1) offset =
      (if marker = app1 then exifOrientationFromAPP1 content else some none).bind fun found =>
        match found with
        | some orientation => some orientation
        | none => segmentsFrom raw fuel (offset + 4 + content.length) := by
  have hle := h.le
  obtain ⟨bs, hbs, hlength⟩ := h.sized
  have hstop : offset + 2 + (2 + content.length) = offset + 4 + content.length := by omega
  rw [segmentsFrom, if_neg (by omega)]
  simp only [h.prefixed, h.marked, hbs, hlength, hstop, h.whole, Option.bind_eq_bind,
    Option.bind_some, ne_eq, not_true, if_false, if_neg h.before_scan,
    if_neg (show ¬ (2 + content.length < 2 ∨ raw.length < offset + 4 + content.length) by omega)]
  split <;> rfl

/-- What does not read as a segment ends the scan. -/
theorem segmentsFrom_stop (h : ∀ marker content, ¬ Lead raw offset marker content) :
    segmentsFrom raw (fuel + 1) offset = some 1 := by
  rw [segmentsFrom]
  split
  · rfl
  · rename_i hlength
    have hprefixed : raw[offset]? = some raw[offset] := List.getElem?_eq_getElem (by omega)
    have hmarked : raw[offset + 1]? = some raw[offset + 1] := List.getElem?_eq_getElem (by omega)
    obtain ⟨bs, hbs⟩ := exists_slice raw (show offset + 2 ≤ offset + 4 by omega) (by omega)
    simp only [hprefixed, hmarked, hbs, Option.bind_eq_bind, Option.bind_some]
    split
    · rfl
    · rename_i hff
      split
      · rfl
      · rename_i hscan
        split
        · rfl
        · rename_i hin
          obtain ⟨content, hcontent⟩ := exists_slice raw
            (show offset + 4 ≤ offset + 4 + (bigEndian bs - 2) by omega) (by omega)
          have hsize := length_slice hcontent
          rw [Nat.add_sub_cancel_left] at hsize
          rw [← hsize] at hcontent
          refine absurd ?_ (h raw[offset + 1] content)
          exact ⟨hprefixed.trans (congrArg some (not_not.mp hff)), hmarked, hscan,
            ⟨bs, hbs, by omega⟩, hcontent⟩

/-- The scan stops, decides at a segment, or goes on behind it. -/
theorem segmentsFrom_cases (raw : List UInt8) (fuel offset : ℕ) :
    ((∀ marker content, ¬ Lead raw offset marker content) ∧
      segmentsFrom raw (fuel + 1) offset = some 1) ∨
    (∃ content v, Lead raw offset app1 content ∧ HasOrientation content v ∧
      segmentsFrom raw (fuel + 1) offset = some v) ∨
    ∃ marker content, Lead raw offset marker content ∧
      (marker = app1 → ∀ w, ¬ HasOrientation content w) ∧
        segmentsFrom raw (fuel + 1) offset =
          segmentsFrom raw fuel (offset + 4 + content.length) := by
  by_cases h : ∀ marker content, ¬ Lead raw offset marker content
  · exact .inl ⟨h, segmentsFrom_stop h⟩
  · push Not at h
    obtain ⟨marker, content, hlead⟩ := h
    rw [segmentsFrom_lead hlead]
    by_cases happ1 : marker = app1
    · subst happ1
      obtain ⟨found, hfound⟩ := exif_total hlead.short
      rw [if_pos rfl, hfound, Option.bind_some]
      cases found with
      | none =>
        refine .inr (.inr ⟨app1, content, hlead, ?_, rfl⟩)
        intro _ w hw
        rw [(exif_eq hlead.short).mpr hw] at hfound
        cases hfound
      | some v => exact .inr (.inl ⟨content, v, hlead, (exif_eq hlead.short).mp hfound, rfl⟩)
    · rw [if_neg happ1, Option.bind_some]
      exact .inr (.inr ⟨marker, content, hlead, fun h => absurd h happ1, rfl⟩)

theorem not_finds (h : ∀ marker content, ¬ Lead raw offset marker content) :
    ¬ Finds raw offset v := by
  intro hfinds
  cases hfinds with
  | here hlead _ => exact h _ _ hlead
  | later hlead _ _ => exact h _ _ hlead

theorem finds_here (hlead : Lead raw offset app1 content) (hv : HasOrientation content v) :
    Finds raw offset w ↔ w = v := by
  constructor
  · intro hfinds
    cases hfinds with
    | here hlead' hw =>
      obtain ⟨-, rfl⟩ := hlead.unique hlead'
      exact hw.unique hlead.short hv
    | later hlead' hnone _ =>
      obtain ⟨rfl, rfl⟩ := hlead.unique hlead'
      exact absurd hv (hnone rfl v)
  · rintro rfl
    exact .here hlead hv

theorem finds_later (hlead : Lead raw offset marker content)
    (hnone : marker = app1 → ∀ w, ¬ HasOrientation content w) :
    Finds raw offset v ↔ Finds raw (offset + 4 + content.length) v := by
  constructor
  · intro hfinds
    cases hfinds with
    | here hlead' hv =>
      obtain ⟨rfl, rfl⟩ := hlead.unique hlead'
      exact absurd hv (hnone rfl v)
    | later hlead' _ hfinds =>
      obtain ⟨rfl, rfl⟩ := hlead.unique hlead'
      exact hfinds
  · exact .later hlead hnone

theorem reads_later (hlead : Lead raw offset marker content)
    (hnone : marker = app1 → ∀ w, ¬ HasOrientation content w) :
    Reads raw offset v ↔ Reads raw (offset + 4 + content.length) v := by
  unfold Reads
  simp only [finds_later hlead hnone]

theorem reads_here (hlead : Lead raw offset app1 content) (hv : HasOrientation content v) :
    Reads raw offset w ↔ w = v := by
  unfold Reads
  simp only [finds_here hlead hv]
  constructor
  · rintro (rfl | ⟨-, hne⟩)
    · rfl
    · exact absurd rfl (hne v)
  · exact .inl

theorem reads_stop (h : ∀ marker content, ¬ Lead raw offset marker content) :
    Reads raw offset v ↔ v = 1 := by
  constructor
  · rintro (hfinds | ⟨rfl, -⟩)
    · exact absurd hfinds (not_finds h)
    · rfl
  · rintro rfl
    exact .inr ⟨rfl, fun w => not_finds h⟩

/-- The scan reads what the bytes read as. -/
theorem segmentsFrom_eq (hfuel : raw.length < offset + fuel) (hin : offset ≤ raw.length) :
    segmentsFrom raw fuel offset = some v ↔ Reads raw offset v := by
  induction fuel generalizing offset with
  | zero => omega
  | succ fuel ih =>
    rcases segmentsFrom_cases raw fuel offset with
      ⟨hstop, h⟩ | ⟨content, w, hlead, hw, h⟩ | ⟨marker, content, hlead, hnone, h⟩
    · rw [h, Option.some_inj, reads_stop hstop]
      exact eq_comm
    · rw [h, Option.some_inj, reads_here hlead hw]
      exact eq_comm
    · have hle := hlead.le
      rw [h, ih (by omega) hle, reads_later hlead hnone]

end Segments

section Files

variable {raw : List UInt8} {v : ℕ}

/-- A file that starts as a JPEG. -/
theorem jpegExifOrientation_eq (h0 : raw[0]? = some 0xFF) (h1 : raw[1]? = some 0xD8) :
    jpegExifOrientation raw = some v ↔ Reads raw 2 v := by
  have htwo : 2 ≤ raw.length := (List.getElem?_eq_some_iff.mp h1).1
  rw [jpegExifOrientation]
  split
  · have hstop : ∀ marker content, ¬ Lead raw 2 marker content := by
      intro marker content hlead
      have hle := hlead.le
      omega
    rw [reads_stop hstop, Option.some_inj]
    exact eq_comm
  · simp only [h0, h1, Option.bind_eq_bind, Option.bind_some, ne_eq, not_true, if_false]
    exact segmentsFrom_eq (by omega) htwo

/-- A file that does not. -/
theorem jpegExifOrientation_other (h : ¬ (raw[0]? = some 0xFF ∧ raw[1]? = some 0xD8)) :
    jpegExifOrientation raw = some 1 := by
  rw [jpegExifOrientation]
  split
  · rfl
  · have h0 : raw[0]? = some raw[0] := List.getElem?_eq_getElem (by omega)
    have h1 : raw[1]? = some raw[1] := List.getElem?_eq_getElem (by omega)
    simp only [h0, h1, Option.bind_eq_bind, Option.bind_some]
    split
    · rfl
    · rename_i hff
      split
      · rfl
      · rename_i hd8
        rw [h0, h1, not_not.mp hff, not_not.mp hd8] at h
        exact absurd ⟨rfl, rfl⟩ h

theorem jpegExifOrientation_total (raw : List UInt8) :
    ∃ v, jpegExifOrientation raw = some v := by
  by_cases h : raw[0]? = some 0xFF ∧ raw[1]? = some 0xD8
  · obtain ⟨v, hv⟩ : ∃ v, Reads raw 2 v := by
      by_cases hfinds : ∃ w, Finds raw 2 w
      · obtain ⟨w, hw⟩ := hfinds
        exact ⟨w, .inl hw⟩
      · exact ⟨1, .inr ⟨rfl, fun w hw => hfinds ⟨w, hw⟩⟩⟩
    exact ⟨v, (jpegExifOrientation_eq h.1 h.2).mpr hv⟩
  · exact ⟨1, jpegExifOrientation_other h⟩

end Files

end Tekir.JpegExif
