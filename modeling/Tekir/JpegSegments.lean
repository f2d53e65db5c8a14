import Tekir.JpegExif
import Mathlib.Data.List.TakeWhile

/-!
# Segments of a JPEG

The markers and segments before the first scan, and whether `jpegExifOrientation` reads the
orientation that they hold. A marker may stand after any number of bytes `0xFF`, of which the code
takes the second one for the marker.
-/
namespace Tekir.JpegSegments
open Bytes JpegExif

section Format

/-- A marker that a length follows: not a restart, a start or an end of an image, or a scan. -/
def SegmentMarker (marker : UInt8) : Prop :=
  0xC0 ≤ marker ∧ marker ≠ 0xFF ∧ ¬ (0xD0 ≤ marker ∧ marker ≤ startOfScan)

instance (marker : UInt8) : Decidable (SegmentMarker marker) :=
  inferInstanceAs (Decidable (_ ∧ _))

def fillBytes (fill : ℕ) : List UInt8 :=
  List.replicate fill 0xFF

structure Segment where
  fill : ℕ
  marker : UInt8
  payload : List UInt8
  legal : SegmentMarker marker
  fits : payload.length + 2 < 2 ^ 16

def Segment.body (s : Segment) : List UInt8 :=
  [0xFF, s.marker] ++ (toBigEndian 2 (s.payload.length + 2) ++ s.payload)

def Segment.bytes (s : Segment) : List UInt8 :=
  fillBytes s.fill ++ s.body

def flatten (ss : List Segment) : List UInt8 :=
  ss.flatMap Segment.bytes

structure JpegFile where
  soiFill : ℕ
  segments : List Segment
  sosFill : ℕ
  /-- What follows the marker of the first scan. -/
  scan : List UInt8

/-- The Exif segment has an orientation. -/
def Segment.Decides (s : Segment) (v : ℕ) : Prop :=
  s.marker = app1 ∧ HasOrientation s.payload v

/-- The orientation of the first segment that has one, and 1 if none has. -/
def Oriented (ss : List Segment) (v : ℕ) : Prop :=
  (∃ before s after, ss = before ++ s :: after ∧ s.Decides v ∧
    ∀ s' ∈ before, ∀ w, ¬ s'.Decides w) ∨
  (v = 1 ∧ ∀ s ∈ ss, ∀ w, ¬ s.Decides w)

/-- No marker is filled up to one that decides, or to the scan if none does. -/
def Unfilled (ss : List Segment) (sosFill : ℕ) : Prop :=
  (∃ before s after v, ss = before ++ s :: after ∧ s.Decides v ∧ s.fill = 0 ∧
    ∀ s' ∈ before, s'.fill = 0) ∨
  (sosFill = 0 ∧ ∀ s ∈ ss, s.fill = 0)

namespace JpegFile

variable (f : JpegFile)

def fromScan : List UInt8 :=
  fillBytes f.sosFill ++ ([0xFF, startOfScan] ++ f.scan)

def bytes : List UInt8 :=
  fillBytes f.soiFill ++ ([0xFF, 0xD8] ++ (flatten f.segments ++ f.fromScan))

/-- The code returns the orientation of the file. -/
def Sound : Prop :=
  ∀ v, jpegExifOrientation f.bytes = some v ↔ Oriented f.segments v

/-- Where the first byte stands that fills, if none does before the start of the image. -/
def firstFill : ℕ :=
  2 + (flatten (f.segments.takeWhile fun s => s.fill == 0)).length

/-- No byte fills before the decision, or the decision happens to be that of what the bytes read as
from the first one that fills. -/
def Harmless : Prop :=
  (f.soiFill = 0 ∧ Unfilled f.segments f.sosFill) ∨
  ∃ v, Oriented f.segments v ∧ if f.soiFill = 0 then Reads f.bytes f.firstFill v else v = 1

end JpegFile

end Format

section Segments

variable {s : Segment} {ss ss' : List Segment} {pre rest : List UInt8} {v w sosFill : ℕ}

theorem Segment.bytes_eq (h : s.fill = 0) : s.bytes = s.body := by
  rw [Segment.bytes, h]
  rfl

theorem Segment.length_body : s.body.length = 4 + s.payload.length := by
  rw [Segment.body, List.length_append, List.length_append, length_toBigEndian]
  simp only [List.length_cons, List.length_nil]
  omega

theorem Segment.short : s.payload.length < 2 ^ 32 + 6 := by
  have hfits := s.fits
  omega

/-- A segment reads as itself. -/
theorem lead_body : Lead (pre ++ (s.body ++ rest)) pre.length s.marker s.payload := by
  have hscan : s.marker ≠ startOfScan := by
    intro h
    obtain ⟨-, -, hother⟩ := s.legal
    rw [h] at hother
    exact absurd hother (by decide)
  have hbytes : pre ++ (s.body ++ rest) = (pre ++ [0xFF, s.marker]) ++
      (toBigEndian 2 (s.payload.length + 2) ++ (s.payload ++ rest)) := by
    simp [Segment.body]
  have hsize : slice (pre ++ (s.body ++ rest)) (pre.length + 2) (pre.length + 4) =
      some (toBigEndian 2 (s.payload.length + 2)) := by
    rw [hbytes]
    exact slice_between (by simp) (by simp)
  have hpayload : slice (pre ++ (s.body ++ rest)) (pre.length + 4)
      (pre.length + 4 + s.payload.length) = some s.payload := by
    rw [hbytes, ← List.append_assoc]
    exact slice_between (by simp) rfl
  refine ⟨?_, ?_, hscan, ⟨_, hsize, ?_⟩, hpayload⟩
  · rw [List.getElem?_append_right (Nat.le_refl _), Nat.sub_self]
    rfl
  · rw [List.getElem?_append_right (Nat.le_add_right _ _), Nat.add_sub_cancel_left]
    rfl
  · rw [bigEndian_of_lt (lt_of_lt_of_eq s.fits (by norm_num)), Nat.add_comm]

theorem reads_decided (hfill : s.fill = 0) (hv : s.Decides v) :
    Reads (pre ++ (s.bytes ++ rest)) pre.length w ↔ w = v := by
  obtain ⟨happ1, hv⟩ := hv
  rw [Segment.bytes_eq hfill]
  exact reads_here (happ1 ▸ lead_body) hv

theorem reads_undecided (hfill : s.fill = 0) (hnone : ∀ w, ¬ s.Decides w) :
    Reads (pre ++ (s.bytes ++ rest)) pre.length v ↔
      Reads ((pre ++ s.bytes) ++ rest) (pre ++ s.bytes).length v := by
  have hnext : (pre ++ s.body).length = pre.length + 4 + s.payload.length := by
    rw [List.length_append, Segment.length_body, Nat.add_assoc]
  rw [Segment.bytes_eq hfill, hnext, List.append_assoc]
  exact reads_later lead_body fun happ1 w hw => hnone w ⟨happ1, hw⟩

/-- A scan ends the segments. -/
theorem reads_scan {scan : List UInt8} :
    Reads (pre ++ ([0xFF, startOfScan] ++ scan)) pre.length v ↔ v = 1 := by
  refine reads_stop fun marker content hlead => hlead.before_scan ?_
  have hmarked := hlead.marked
  rw [List.getElem?_append_right (Nat.le_add_right _ _), Nat.add_sub_cancel_left] at hmarked
  exact (Option.some_inj.mp hmarked).symm

theorem reads_unfilled (pre : List UInt8) (hfill : ∀ s ∈ ss, s.fill = 0) (hnone : ∀ s ∈ ss, ∀ w, ¬ s.Decides w) :
    Reads (pre ++ (flatten ss ++ rest)) pre.length v ↔
      Reads (pre ++ (flatten ss ++ rest)) (pre.length + (flatten ss).length) v := by
  induction ss generalizing pre with
  | nil => exact Iff.rfl
  | cons s ss ih =>
    have hsplit : pre ++ (flatten (s :: ss) ++ rest) = pre ++ (s.bytes ++ (flatten ss ++ rest)) := by
      rw [flatten, List.flatMap_cons, List.append_assoc]
      rfl
    have hlength : pre.length + (flatten (s :: ss)).length =
        (pre ++ s.bytes).length + (flatten ss).length := by
      rw [flatten, List.flatMap_cons, List.length_append, List.length_append, Nat.add_assoc]
      rfl
    rw [hsplit, hlength, reads_undecided (hfill s List.mem_cons_self) (hnone s List.mem_cons_self),
      ih _ (fun s hs => hfill s (List.mem_cons_of_mem _ hs))
        (fun s hs => hnone s (List.mem_cons_of_mem _ hs)), List.append_assoc]

end Segments

section Orientations

variable {s : Segment} {ss : List Segment} {v w sosFill : ℕ}

theorem Segment.Decides.unique (h : s.Decides v) (h' : s.Decides w) : v = w :=
  h.2.unique Segment.short h'.2

theorem oriented_decided (hv : s.Decides v) : Oriented (s :: ss) w ↔ w = v := by
  constructor
  · rintro (⟨before, s', after, happend, hw, hfirst⟩ | ⟨-, hnone⟩)
    · cases before with
      | nil =>
        cases happend
        exact hw.unique hv
      | cons b before =>
        cases happend
        exact absurd hv (hfirst s List.mem_cons_self v)
    · exact absurd hv (hnone s List.mem_cons_self v)
  · rintro rfl
    exact .inl ⟨[], s, ss, rfl, hv, by simp⟩

theorem oriented_undecided (hnone : ∀ w, ¬ s.Decides w) :
    Oriented (s :: ss) v ↔ Oriented ss v := by
  constructor
  · rintro (⟨before, s', after, happend, hv, hfirst⟩ | ⟨rfl, hall⟩)
    · cases before with
      | nil =>
        cases happend
        exact absurd hv (hnone v)
      | cons b before =>
        cases happend
        exact .inl ⟨before, s', after, rfl, hv,
          fun s' hs' => hfirst s' (List.mem_cons_of_mem _ hs')⟩
    · exact .inr ⟨rfl, fun s hs => hall s (List.mem_cons_of_mem _ hs)⟩
  · rintro (⟨before, s', after, rfl, hv, hfirst⟩ | ⟨rfl, hall⟩)
    · exact .inl ⟨s :: before, s', after, rfl, hv, List.forall_mem_cons.mpr ⟨hnone, hfirst⟩⟩
    · exact .inr ⟨rfl, List.forall_mem_cons.mpr ⟨hnone, hall⟩⟩

theorem Oriented.unique (h : Oriented ss v) (h' : Oriented ss w) : v = w := by
  induction ss with
  | nil =>
    rcases h with ⟨before, s, after, happend, -⟩ | ⟨rfl, -⟩
    · exact absurd happend (by simp)
    · rcases h' with ⟨before, s, after, happend, -⟩ | ⟨rfl, -⟩
      · exact absurd happend (by simp)
      · rfl
  | cons s ss ih =>
    by_cases hs : ∃ w, s.Decides w
    · obtain ⟨u, hu⟩ := hs
      rw [(oriented_decided hu).mp h, (oriented_decided hu).mp h']
    · have hnone : ∀ w, ¬ s.Decides w := not_exists.mp hs
      exact ih ((oriented_undecided hnone).mp h) ((oriented_undecided hnone).mp h')

theorem Unfilled.head (h : Unfilled (s :: ss) sosFill) : s.fill = 0 := by
  rcases h with ⟨before, s', after, v, happend, -, hfill, hbefore⟩ | ⟨-, hall⟩
  · cases before with
    | nil =>
      cases happend
      exact hfill
    | cons b before =>
      cases happend
      exact hbefore s List.mem_cons_self
  · exact hall s List.mem_cons_self

theorem Unfilled.tail (h : Unfilled (s :: ss) sosFill) (hnone : ∀ w, ¬ s.Decides w) :
    Unfilled ss sosFill := by
  rcases h with ⟨before, s', after, v, happend, hv, hfill, hbefore⟩ | ⟨hsos, hall⟩
  · cases before with
    | nil =>
      cases happend
      exact absurd hv (hnone v)
    | cons b before =>
      cases happend
      exact .inl ⟨before, s', after, v, rfl, hv, hfill,
        fun s' hs' => hbefore s' (List.mem_cons_of_mem _ hs')⟩
  · exact .inr ⟨hsos, fun s hs => hall s (List.mem_cons_of_mem _ hs)⟩

end Orientations

section Files

variable {f : JpegFile} {ss : List Segment} {pre scan : List UInt8} {v sosFill : ℕ}

/-- Segments without fill bytes read as they are. -/
theorem reads_oriented (h : Unfilled ss sosFill) :
    Reads (pre ++ (flatten ss ++ (fillBytes sosFill ++ ([0xFF, startOfScan] ++ scan)))) pre.length v ↔
      Oriented ss v := by
  induction ss generalizing pre with
  | nil =>
    rcases h with ⟨before, s, after, w, happend, -⟩ | ⟨rfl, -⟩
    · exact absurd happend (by simp)
    · have hnil : Oriented [] v ↔ v = 1 := by
        constructor
        · rintro (⟨before, s, after, happend, -⟩ | ⟨rfl, -⟩)
          · exact absurd happend (by simp)
          · rfl
        · rintro rfl
          exact .inr ⟨rfl, by simp⟩
      rw [hnil]
      exact reads_scan
  | cons s ss ih =>
    have hsplit : flatten (s :: ss) ++ (fillBytes sosFill ++ ([0xFF, startOfScan] ++ scan)) =
        s.bytes ++ (flatten ss ++ (fillBytes sosFill ++ ([0xFF, startOfScan] ++ scan))) := by
      rw [flatten, List.flatMap_cons, List.append_assoc]
      rfl
    rw [hsplit]
    by_cases hs : ∃ w, s.Decides w
    · obtain ⟨w, hw⟩ := hs
      rw [reads_decided h.head hw, oriented_decided hw]
    · have hnone : ∀ w, ¬ s.Decides w := not_exists.mp hs
      rw [reads_undecided h.head hnone, ih (h.tail hnone), oriented_undecided hnone]

/-- A file whose image starts at once. -/
theorem jpegExifOrientation_bytes (h : f.soiFill = 0) :
    jpegExifOrientation f.bytes = some v ↔
      Reads ([0xFF, 0xD8] ++ (flatten f.segments ++ f.fromScan)) [0xFF, 0xD8].length v := by
  have hbytes : f.bytes = [0xFF, 0xD8] ++ (flatten f.segments ++ f.fromScan) := by
    rw [JpegFile.bytes, h]
    rfl
  rw [hbytes]
  exact jpegExifOrientation_eq rfl rfl

/-- Of a file that starts with fill bytes nothing is read. -/
theorem jpegExifOrientation_filled (h : f.soiFill ≠ 0) : jpegExifOrientation f.bytes = some 1 := by
  apply jpegExifOrientation_other
  rintro ⟨-, h1⟩
  obtain ⟨n, hn⟩ := Nat.exists_eq_succ_of_ne_zero h
  rw [JpegFile.bytes, hn, fillBytes, List.replicate_succ, List.cons_append,
    List.getElem?_cons_succ] at h1
  cases n with
  | zero => exact absurd (Option.some_inj.mp h1) (by decide)
  | succ n => exact absurd (Option.some_inj.mp h1) (by decide)

theorem sound_of_unfilled (hsoi : f.soiFill = 0) (h : Unfilled f.segments f.sosFill) : f.Sound := by
  intro v
  rw [jpegExifOrientation_bytes hsoi]
  exact reads_oriented h

/-- No segment before the first fill byte decides, unless the file is read as it is. -/
theorem reads_firstFill (hsoi : f.soiFill = 0) (h : ¬ Unfilled f.segments f.sosFill) :
    jpegExifOrientation f.bytes = some v ↔ Reads f.bytes f.firstFill v := by
  obtain ⟨front, hfront⟩ : ∃ front, front = f.segments.takeWhile fun s => s.fill == 0 := ⟨_, rfl⟩
  obtain ⟨back, hback⟩ : ∃ back, f.segments = front ++ back := by
    rw [hfront]
    exact ⟨_, List.takeWhile_append_dropWhile.symm⟩
  have hfill : ∀ s ∈ front, s.fill = 0 := by
    intro s hs
    rw [hfront] at hs
    simpa using List.mem_takeWhile_imp hs
  have hnone : ∀ s ∈ front, ∀ w, ¬ s.Decides w := by
    intro s hs w hw
    obtain ⟨before, after, rfl⟩ := List.append_of_mem hs
    refine h (.inl ⟨before, s, after ++ back, w, ?_, hw, hfill s hs, fun s' hs' =>
      hfill s' (List.mem_append_left _ hs')⟩)
    rw [hback, List.append_assoc, List.cons_append]
  have hbytes : f.bytes = [0xFF, 0xD8] ++ (flatten front ++ (flatten back ++ f.fromScan)) := by
    rw [JpegFile.bytes, hsoi, hback, flatten, List.flatMap_append, List.append_assoc]
    rfl
  rw [JpegFile.firstFill, ← hfront, hbytes, jpegExifOrientation_eq rfl rfl]
  exact reads_unfilled [0xFF, 0xD8] hfill hnone

/-- The orientation of a file is returned exactly if no byte fills before the decision, or if what
is read in place of the segments happens to say the same. -/
theorem orientation_sound_iff (f : JpegFile) : f.Sound ↔ f.Harmless := by
  constructor
  · intro h
    by_cases hclear : f.soiFill = 0 ∧ Unfilled f.segments f.sosFill
    · exact .inl hclear
    · obtain ⟨v, hv⟩ := jpegExifOrientation_total f.bytes
      refine .inr ⟨v, (h v).mp hv, ?_⟩
      split
      · rename_i hsoi
        exact (reads_firstFill hsoi fun hunfilled => hclear ⟨hsoi, hunfilled⟩).mp hv
      · rename_i hsoi
        rw [jpegExifOrientation_filled hsoi] at hv
        exact (Option.some_inj.mp hv).symm
  · rintro (⟨hsoi, hunfilled⟩ | ⟨v, horiented, hreads⟩)
    · exact sound_of_unfilled hsoi hunfilled
    · by_cases hclear : f.soiFill = 0 ∧ Unfilled f.segments f.sosFill
      · exact sound_of_unfilled hclear.1 hclear.2
      · have hv : jpegExifOrientation f.bytes = some v := by
          split at hreads
          · rename_i hsoi
            exact (reads_firstFill hsoi fun hunfilled => hclear ⟨hsoi, hunfilled⟩).mpr hreads
          · rename_i hsoi
            rw [hreads]
            exact jpegExifOrientation_filled hsoi
        intro w
        rw [hv, Option.some_inj]
        exact ⟨fun hw => hw ▸ horiented, fun hw => horiented.unique hw⟩

/-- A photograph that is to be turned, with a byte that fills before its Exif segment. -/
def sideways : JpegFile where
  soiFill := 0
  segments := [
    { fill := 1
      marker := app1
      payload := exifIdentifier ++ (ascii "MM" ++ [0, 42, 0, 0, 0, 8, 0, 1, 0x01, 0x12, 0, 3, 0, 0, 0, 1,
        0, 6, 0, 0, 0, 0, 0, 0])
      legal := by decide
      fits := by decide }]
  sosFill := 0
  scan := [0, 8, 1, 1, 0, 0, 63, 0]

/-- The byte is taken for the marker, and the photograph stays as it is. -/
theorem sideways_not_sound : ¬ sideways.Sound := by
  intro h
  have hread : jpegExifOrientation sideways.bytes = some 1 := by decide
  have hsix : Oriented sideways.segments 6 := by
    refine .inl ⟨[], _, [], rfl, ⟨rfl, ?_⟩, by simp⟩
    exact (exif_eq (by decide)).mp (by decide)
  exact absurd (((h 1).mp hread).unique hsix) (by decide)

end Files

end Tekir.JpegSegments
