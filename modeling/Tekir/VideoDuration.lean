import Tekir.Float64
import Tekir.MediaBoxes
import Tekir.Statements

/-!
# The duration of a video

`videoDurationSeconds` on files of the ISO base media file format, and the decision of `process` on
them. The code skips eight bytes of each header, also of one that is twice as long.
-/
namespace Tekir.VideoDuration
open Bytes MediaBoxes
open Statements (Error)

/-- What `float64(duration) / float64(timescale)` divides. -/
structure Seconds where
  duration : ℕ
  timescale : ℕ
  deriving DecidableEq

/-- The quotient as a rational number. -/
def Seconds.value (s : Seconds) : ℚ :=
  s.duration / s.timescale

def Seconds.float64 (s : Seconds) : ℚ :=
  Float64.float64 (Float64.float64 s.duration / Float64.float64 s.timescale)

def moov : List UInt8 :=
  ascii "moov"

def mvhd : List UInt8 :=
  ascii "mvhd"

def quotient (timescale duration : ℕ) : Except Error Seconds :=
  if timescale = 0 then .error .malformedMedia else .ok ⟨duration, timescale⟩

/-- The fields of `mvhd`, from its version on. -/
def mvhdSeconds (content : List UInt8) : Option (Except Error Seconds) :=
  if content.length < 1 then some (.error .malformedMedia)
  else do
    let version ← content[0]?
    if version = 0 then
      if content.length < 20 then return .error .malformedMedia
      else
        return quotient (bigEndian (← slice content 12 16)) (bigEndian (← slice content 16 20))
    else if version = 1 then
      if content.length < 32 then return .error .malformedMedia
      else
        return quotient (bigEndian (← slice content 20 24)) (bigEndian (← slice content 24 32))
    else return .error .malformedMedia

def videoDurationSeconds (raw : List UInt8) : Option (Except Error Seconds) := do
  match ← findBox raw moov with
  | none => return .error .malformedMedia
  | some moov =>
    match ← findBox (← slice raw (moov.start + 8) moov.stop) mvhd with
    | none => return .error .malformedMedia
    | some mvhd =>
      mvhdSeconds (← slice raw (moov.start + 8 + mvhd.start + 8) (moov.start + 8 + mvhd.stop))

structure VideoContainer where
  contentType : String
  extension : String
  deriving DecidableEq

def videoMajorBrands : List (List UInt8 × VideoContainer) :=
  [(ascii "isom", ⟨"video/mp4", "mp4"⟩), (ascii "mp42", ⟨"video/mp4", "mp4"⟩),
    (ascii "mp41", ⟨"video/mp4", "mp4"⟩), (ascii "M4V ", ⟨"video/mp4", "mp4"⟩),
    (ascii "qt  ", ⟨"video/quicktime", "mov"⟩)]

def sniffVideoContainer (raw : List UInt8) : Option (Option VideoContainer) :=
  if raw.length < 12 then some none
  else do
    if (← slice raw 4 8) ≠ ascii "ftyp" then return none
    else return videoMajorBrands.lookup (← slice raw 8 12)

structure ProcessedMedia where
  data : List UInt8
  contentType : String
  extension : String
  deriving DecidableEq

structure Pipeline where
  maxBytes : ℤ
  maxVideoBytes : ℤ

def maxVideoDurationSeconds : ℕ := 30

def processVideo (p : Pipeline) (raw : List UInt8) (vc : VideoContainer) :
    Option (Except Error ProcessedMedia) :=
  if p.maxVideoBytes < raw.length then some (.error .mediaTooLarge)
  else do
    match ← videoDurationSeconds raw with
    | .error e => return .error e
    | .ok duration =>
      if duration.float64 ≤ 0 then return .error .malformedMedia
      else if maxVideoDurationSeconds < duration.float64 then return .error .mediaDurationTooLong
      else return .ok ⟨raw, vc.contentType, vc.extension⟩

/-- What decodes and encodes an image is a parameter. -/
def process (reencode : List UInt8 → Option (Except Error ProcessedMedia)) (p : Pipeline)
    (raw : List UInt8) : Option (Except Error ProcessedMedia) :=
  let image := if p.maxBytes < raw.length then some (.error .mediaTooLarge) else reencode raw
  if raw.length = 0 then some (.error .malformedMedia)
  else if 0 < p.maxVideoBytes then do
    match ← sniffVideoContainer raw with
    | some vc => processVideo p raw vc
    | none => image
  else image

section Format

inductive Version | zero | one
  deriving DecidableEq

def Version.byte : Version → UInt8
  | .zero => 0
  | .one => 1

/-- The bytes of a time and of the duration. -/
def Version.width : Version → ℕ
  | .zero => 4
  | .one => 8

/-- The content of a movie header box. -/
structure Mvhd where
  version : Version
  flags : List UInt8
  creationTime : ℕ
  modificationTime : ℕ
  timescale : ℕ
  duration : ℕ
  /-- The rate, the volume, the matrix, the next track and what is reserved. -/
  rest : List UInt8
  flags_length : flags.length = 3
  rest_length : rest.length = 80
  creationTime_lt : creationTime < 256 ^ version.width
  modificationTime_lt : modificationTime < 256 ^ version.width
  timescale_lt : timescale < 256 ^ 4
  duration_lt : duration < 256 ^ version.width

def Mvhd.content (m : Mvhd) : List UInt8 :=
  m.version.byte :: (m.flags ++ (toBigEndian m.version.width m.creationTime ++
    (toBigEndian m.version.width m.modificationTime ++ (toBigEndian 4 m.timescale ++
      (toBigEndian m.version.width m.duration ++ m.rest)))))

/-- What stands eight bytes before the timescale and the duration of a version 0 header. -/
def Mvhd.misread (m : Mvhd) : ℕ × ℕ :=
  match m.version with
  | .zero => (m.creationTime, m.modificationTime)
  | .one => (m.creationTime / 256 ^ 4, m.creationTime % 256 ^ 4)

/-- Top-level boxes, of which one is `moov`, and its boxes, of which one is `mvhd`. -/
structure IsoFile where
  before : List Box
  moovBox : Box
  after : List Box
  childrenBefore : List Box
  mvhdBox : Box
  childrenAfter : List Box
  mvhd : Mvhd
  moovBox_type : moovBox.boxType = moov
  moovBox_payload : moovBox.payload = flatten (childrenBefore ++ mvhdBox :: childrenAfter)
  mvhdBox_type : mvhdBox.boxType = VideoDuration.mvhd
  mvhdBox_payload : mvhdBox.payload = mvhd.content
  one_moov : ∀ b ∈ before ++ after, b.boxType ≠ moov
  one_mvhd : ∀ b ∈ childrenBefore ++ childrenAfter, b.boxType ≠ VideoDuration.mvhd
  /-- The length of the file is an `int`. -/
  short : (flatten (before ++ moovBox :: after)).length < 2 ^ 63

namespace IsoFile

variable (f : IsoFile)

def bytes : List UInt8 :=
  flatten (f.before ++ f.moovBox :: f.after)

/-- The duration that the file declares; no time if the timescale is 0. -/
def seconds : ℚ :=
  f.mvhd.duration / f.mvhd.timescale

def declared : Except Error ℚ :=
  if f.mvhd.timescale = 0 then .error .malformedMedia else .ok f.seconds

/-- The duration is the declared one, and decides whether a recognised video is accepted. -/
structure Sound : Prop where
  duration : ∃ x, videoDurationSeconds f.bytes = some x ∧ x.map Seconds.value = f.declared
  accepted : ∀ (reencode : List UInt8 → Option (Except Error ProcessedMedia)) (p : Pipeline)
    (vc : VideoContainer), 0 < p.maxVideoBytes → sniffVideoContainer f.bytes = some (some vc) →
      ((∃ m, process reencode p f.bytes = some (.ok m)) ↔
        0 < f.seconds ∧ f.seconds ≤ maxVideoDurationSeconds ∧
          (f.bytes.length : ℤ) ≤ p.maxVideoBytes)

end IsoFile

end Format

/-- The search for `mvhd` in what is taken for the content of `moov`. -/
def bodySeconds (body : List UInt8) : Option (Except Error Seconds) := do
  match ← findBox body mvhd with
  | none => return .error .malformedMedia
  | some mvhd => mvhdSeconds (← slice body (mvhd.start + 8) mvhd.stop)

/-- `mvhd` as a number of four bytes. -/
def mvhdNumber : ℕ := 0x6d766864

/-- Both headers are short, or what is read in place of the fields happens to say the same. With
a long `moov` below four gigabytes nothing is found, unless the size of the box reads as `mvhd`. -/
def IsoFile.Harmless (f : IsoFile) : Prop :=
  match f.moovBox.extended, f.mvhdBox.extended with
  | false, false => True
  | false, true => (f.mvhd.misread.1 = 0 ↔ f.mvhd.timescale = 0) ∧
      f.mvhd.misread.2 * f.mvhd.timescale = f.mvhd.duration * f.mvhd.misread.1
  | true, _ =>
    if f.moovBox.size < 256 ^ 4 ∧ f.moovBox.size ≠ mvhdNumber then f.mvhd.timescale = 0
    else ∃ x, bodySeconds (toBigEndian 8 f.moovBox.size ++ f.moovBox.payload) = some x ∧
      x.map Seconds.value = f.declared

section Fields

variable {pre ts ds rest content : List UInt8}

theorem mvhdSeconds_zero (hpre : pre.length = 12) (hversion : pre[0]? = some 0)
    (hts : ts.length = 4) (hds : ds.length = 4) :
    mvhdSeconds (pre ++ (ts ++ (ds ++ rest))) =
      some (quotient (bigEndian ts) (bigEndian ds)) := by
  have hlength : (pre ++ (ts ++ (ds ++ rest))).length = 20 + rest.length := by
    simp only [List.length_append]
    omega
  have hfirst : (pre ++ (ts ++ (ds ++ rest)))[0]? = some 0 := by
    rw [List.getElem?_append_left (by omega), hversion]
  have htimescale : slice (pre ++ (ts ++ (ds ++ rest))) 12 16 = some ts :=
    slice_between hpre.symm (by omega)
  have hduration : slice (pre ++ (ts ++ (ds ++ rest))) 16 20 = some ds := by
    rw [← List.append_assoc]
    exact slice_between (by simp [hpre, hts]) (by omega)
  rw [mvhdSeconds, if_neg (by omega), hfirst, Option.bind_eq_bind, Option.bind_some, if_pos rfl,
    if_neg (by omega), htimescale, hduration]
  rfl

theorem mvhdSeconds_one (hpre : pre.length = 20) (hversion : pre[0]? = some 1)
    (hts : ts.length = 4) (hds : ds.length = 8) :
    mvhdSeconds (pre ++ (ts ++ (ds ++ rest))) =
      some (quotient (bigEndian ts) (bigEndian ds)) := by
  have hlength : (pre ++ (ts ++ (ds ++ rest))).length = 32 + rest.length := by
    simp only [List.length_append]
    omega
  have hfirst : (pre ++ (ts ++ (ds ++ rest)))[0]? = some 1 := by
    rw [List.getElem?_append_left (by omega), hversion]
  have htimescale : slice (pre ++ (ts ++ (ds ++ rest))) 20 24 = some ts :=
    slice_between hpre.symm (by omega)
  have hduration : slice (pre ++ (ts ++ (ds ++ rest))) 24 32 = some ds := by
    rw [← List.append_assoc]
    exact slice_between (by simp [hpre, hts]) (by omega)
  rw [mvhdSeconds, if_neg (by omega), hfirst, Option.bind_eq_bind, Option.bind_some,
    if_neg (by decide), if_pos rfl, if_neg (by omega), htimescale, hduration]
  rfl

theorem quotient_bounds {i j n : ℕ} {s : Seconds} (hslice : slice content i j = some ts)
    (hwidth : j = i + 4) (h : quotient (bigEndian ts) n = .ok s) :
    0 < s.timescale ∧ s.timescale < 2 ^ 32 := by
  have hlt := bigEndian_lt ts
  rw [length_slice hslice, hwidth, Nat.add_sub_cancel_left] at hlt
  unfold quotient at h
  split at h
  · cases h
  · rename_i hne
    cases h
    exact ⟨Nat.pos_of_ne_zero hne, lt_of_lt_of_eq hlt (by norm_num)⟩

/-- The timescale that is read has four bytes and is not 0. -/
theorem mvhdSeconds_bounds {s : Seconds} (h : mvhdSeconds content = some (.ok s)) :
    0 < s.timescale ∧ s.timescale < 2 ^ 32 := by
  unfold mvhdSeconds at h
  split at h
  · cases h
  · obtain ⟨version, -, h⟩ := Option.bind_eq_some_iff.mp h
    split at h
    · split at h
      · cases h
      · obtain ⟨ts, hts, h⟩ := Option.bind_eq_some_iff.mp h
        obtain ⟨ds, hds, h⟩ := Option.bind_eq_some_iff.mp h
        exact quotient_bounds hts rfl (Option.some_inj.mp h)
    · split at h
      · split at h
        · cases h
        · obtain ⟨ts, hts, h⟩ := Option.bind_eq_some_iff.mp h
          obtain ⟨ds, hds, h⟩ := Option.bind_eq_some_iff.mp h
          exact quotient_bounds hts rfl (Option.some_inj.mp h)
      · cases h

end Fields

section Boxes

variable {f : IsoFile} {b : Box}

/-- What the code takes for the content of a box: all but eight bytes. -/
def tail (b : Box) : List UInt8 :=
  if b.extended then toBigEndian 8 b.size ++ b.payload else b.payload

theorem bytes_eq_tail (b : Box) : ∃ front : List UInt8, front.length = 8 ∧
    b.bytes = front ++ tail b := by
  unfold Box.bytes Box.header tail
  split
  · exact ⟨toBigEndian 4 1 ++ b.boxType, by simp [b.typed], by simp⟩
  · exact ⟨toBigEndian 4 b.size ++ b.boxType, by simp [b.typed], by simp⟩

/-- The slice from eight bytes behind the start of a box to its end. -/
theorem slice_tail {before after : List Box} :
    slice (flatten (before ++ b :: after)) ((flatten before).length + 8)
      ((flatten before).length + b.size) = some (tail b) := by
  obtain ⟨front, hfront, hbytes⟩ := bytes_eq_tail b
  have hsize : b.size = 8 + (tail b).length := by
    rw [← Box.length_bytes, hbytes, List.length_append, hfront]
  have hsplit : flatten (before ++ b :: after) =
      (flatten before ++ front) ++ (tail b ++ flatten after) := by
    rw [flatten_append, flatten_cons, hbytes]
    simp only [List.append_assoc]
  rw [hsplit]
  exact slice_between (by rw [List.length_append, hfront]) (by omega)

theorem videoDurationSeconds_eq : videoDurationSeconds f.bytes = bodySeconds (tail f.moovBox) := by
  have hfirst : ∀ b ∈ f.before, b.boxType ≠ f.moovBox.boxType := by
    intro b hb
    rw [f.moovBox_type]
    exact f.one_moov b (List.mem_append_left _ hb)
  have hfound := findBox_flatten f.short hfirst
  rw [f.moovBox_type] at hfound
  have hslice : slice f.bytes ((flatten f.before).length + 8)
      ((flatten f.before).length + f.moovBox.size) = some (tail f.moovBox) := slice_tail
  unfold videoDurationSeconds bodySeconds
  rw [IsoFile.bytes, hfound]
  simp only [Option.bind_eq_bind, Option.bind_some]
  rw [← IsoFile.bytes, hslice]
  simp only [Option.bind_some]
  rcases hmvhd : findBox (tail f.moovBox) mvhd with _ | _ | box
  · rfl
  · rfl
  · simp only [Option.bind_some]
    have hstop : box.stop ≤ (tail f.moovBox).length := findBox_stop_le hmvhd
    have heq := slice_slice hslice (a := box.start + 8) hstop
    rw [← heq]
    rfl

theorem bodySeconds_bounds {body : List UInt8} {s : Seconds}
    (h : bodySeconds body = some (.ok s)) : 0 < s.timescale ∧ s.timescale < 2 ^ 32 := by
  obtain ⟨box, -, h⟩ := Option.bind_eq_some_iff.mp h
  cases box with
  | none => cases h
  | some box =>
    obtain ⟨content, -, h⟩ := Option.bind_eq_some_iff.mp h
    exact mvhdSeconds_bounds h

end Boxes

section Decisions

variable {f : IsoFile} {s : Seconds} {p : Pipeline} {raw : List UInt8} {vc : VideoContainer}
  {reencode : List UInt8 → Option (Except Error ProcessedMedia)}

theorem lt_value_iff (ht : 0 < s.timescale) (c : ℕ) :
    (c : ℚ) < s.value ↔ c * s.timescale < s.duration := by
  have htq : (0 : ℚ) < s.timescale := by exact_mod_cast ht
  rw [Seconds.value, lt_div_iff₀ htq]
  exact_mod_cast Iff.rfl

/-- Rounding does not change how a duration compares with a small whole number. -/
theorem lt_float64_iff (ht : 0 < s.timescale) (htimes : s.timescale < 2 ^ 32) {c : ℕ}
    (hc : c ≤ 2 ^ 10) : (c : ℚ) < s.float64 ↔ (c : ℚ) < s.value := by
  rw [lt_value_iff ht]
  exact Float64.lt_quotient_iff hc ht htimes

theorem processVideo_error {e : Error} (h : videoDurationSeconds raw = some (.error e)) :
    ¬ ∃ m, processVideo p raw vc = some (.ok m) := by
  rintro ⟨m, hm⟩
  unfold processVideo at hm
  split at hm
  · cases hm
  · rw [h] at hm
    cases hm

theorem processVideo_ok (h : videoDurationSeconds raw = some (.ok s)) (ht : 0 < s.timescale)
    (htimes : s.timescale < 2 ^ 32) : (∃ m, processVideo p raw vc = some (.ok m)) ↔
      0 < s.value ∧ s.value ≤ maxVideoDurationSeconds ∧ (raw.length : ℤ) ≤ p.maxVideoBytes := by
  have hpositive : (0 : ℚ) < s.float64 ↔ 0 < s.value := by
    exact_mod_cast lt_float64_iff ht htimes (c := 0) (by norm_num)
  have hlong : (maxVideoDurationSeconds : ℚ) < s.float64 ↔ maxVideoDurationSeconds < s.value :=
    lt_float64_iff ht htimes (by norm_num [maxVideoDurationSeconds])
  unfold processVideo
  rw [h, Option.bind_eq_bind, Option.bind_some, ← hpositive, ← not_lt, ← hlong]
  dsimp only
  split
  · rename_i hlarge
    exact ⟨fun ⟨_, hm⟩ => (nomatch hm), fun hall => absurd hlarge (not_lt_of_ge hall.2.2)⟩
  · rename_i hfits
    split
    · rename_i hzero
      exact ⟨fun ⟨_, hm⟩ => (nomatch hm), fun hall => absurd hzero (not_le_of_gt hall.1)⟩
    · rename_i hsome
      split
      · rename_i hover
        exact ⟨fun ⟨_, hm⟩ => (nomatch hm), fun hall => absurd hover hall.2.1⟩
      · rename_i hwithin
        exact ⟨fun _ => ⟨lt_of_not_ge hsome, hwithin, le_of_not_gt hfits⟩, fun _ => ⟨_, rfl⟩⟩

theorem process_video (hraw : raw.length ≠ 0) (hmax : 0 < p.maxVideoBytes)
    (hsniff : sniffVideoContainer raw = some (some vc)) :
    process reencode p raw = processVideo p raw vc := by
  unfold process
  rw [if_neg hraw, if_pos hmax, hsniff]
  rfl

namespace IsoFile

theorem length_ne_zero : f.bytes.length ≠ 0 := by
  have hheader := f.moovBox.headerSize_le
  rw [bytes, flatten_append, List.length_append, flatten_cons, List.length_append,
    Box.length_bytes, Box.size]
  omega

/-- The decision follows from the duration. -/
theorem sound_iff : f.Sound ↔
    ∃ x, bodySeconds (tail f.moovBox) = some x ∧ x.map Seconds.value = f.declared := by
  constructor
  · intro h
    rw [← videoDurationSeconds_eq]
    exact h.duration
  · rintro ⟨x, hx, hdeclared⟩
    have hduration := videoDurationSeconds_eq.trans hx
    refine ⟨⟨x, hduration, hdeclared⟩, fun reencode p vc hmax hsniff => ?_⟩
    rw [process_video length_ne_zero hmax hsniff]
    unfold declared at hdeclared
    rcases x with e | s
    · split at hdeclared
      · rename_i hzero
        -- a file without a timescale declares no duration
        have hnone : f.seconds = 0 := by rw [seconds, hzero, Nat.cast_zero, div_zero]
        refine ⟨fun haccepted => absurd haccepted (processVideo_error hduration), fun hall => ?_⟩
        rw [hnone] at hall
        exact absurd hall.1 (lt_irrefl _)
      · cases hdeclared
    · split at hdeclared
      · cases hdeclared
      · obtain ⟨ht, htimes⟩ := bodySeconds_bounds hx
        have hvalue : s.value = f.seconds := Except.ok.inj hdeclared
        rw [← hvalue]
        exact processVideo_ok hduration ht htimes

end IsoFile

end Decisions

section Headers

variable {f : IsoFile} {m : Mvhd}

theorem content_zero (h : m.version = .zero) : mvhdSeconds m.content =
    some (quotient m.timescale m.duration) := by
  have hduration := m.duration_lt
  have hcontent : m.content = (0 :: (m.flags ++ (toBigEndian 4 m.creationTime ++
      toBigEndian 4 m.modificationTime))) ++ (toBigEndian 4 m.timescale ++
        (toBigEndian 4 m.duration ++ m.rest)) := by
    simp [Mvhd.content, h, Version.byte, Version.width]
  rw [h, Version.width] at hduration
  rw [hcontent, mvhdSeconds_zero (by simp [m.flags_length]) rfl (by simp) (by simp),
    bigEndian_of_lt m.timescale_lt, bigEndian_of_lt hduration]

theorem content_one (h : m.version = .one) : mvhdSeconds m.content =
    some (quotient m.timescale m.duration) := by
  have hduration := m.duration_lt
  have hcontent : m.content = (1 :: (m.flags ++ (toBigEndian 8 m.creationTime ++
      toBigEndian 8 m.modificationTime))) ++ (toBigEndian 4 m.timescale ++
        (toBigEndian 8 m.duration ++ m.rest)) := by
    simp [Mvhd.content, h, Version.byte, Version.width]
  rw [h, Version.width] at hduration
  rw [hcontent, mvhdSeconds_one (by simp [m.flags_length]) rfl (by simp) (by simp),
    bigEndian_of_lt m.timescale_lt, bigEndian_of_lt hduration]

/-- The fields are read where they are. -/
theorem mvhdSeconds_content : mvhdSeconds m.content = some (quotient m.timescale m.duration) := by
  cases h : m.version with
  | zero => exact content_zero h
  | one => exact content_one h

/-- The size of a movie header box fits one byte. -/
theorem size_digits {n : ℕ} (h : n < 256) : (toBigEndian 8 n)[0]? = some 0 := by
  have hzero : n / 256 ^ 7 = 0 := Nat.div_eq_of_lt (by omega)
  rw [toBigEndian, hzero]
  rfl

/-- With the size before them, two other fields are read. -/
theorem mvhdSeconds_misread {n : ℕ} (h : n < 256) :
    mvhdSeconds (toBigEndian 8 n ++ m.content) =
      some (quotient m.misread.1 m.misread.2) := by
  have hcreation := m.creationTime_lt
  have hmodification := m.modificationTime_lt
  cases hversion : m.version with
  | zero =>
    rw [hversion, Version.width] at hcreation hmodification
    have hcontent : toBigEndian 8 n ++ m.content = (toBigEndian 8 n ++ (0 :: m.flags)) ++
        (toBigEndian 4 m.creationTime ++ (toBigEndian 4 m.modificationTime ++
          (toBigEndian 4 m.timescale ++ (toBigEndian 4 m.duration ++ m.rest)))) := by
      simp [Mvhd.content, hversion, Version.byte, Version.width]
    rw [hcontent, mvhdSeconds_zero (by simp [m.flags_length]) ?_ (by simp) (by simp),
      bigEndian_of_lt hcreation, bigEndian_of_lt hmodification, Mvhd.misread, hversion]
    rw [List.getElem?_append_left (by simp), size_digits h]
  | one =>
    rw [hversion] at hcreation
    have hhigh : m.creationTime / 256 ^ 4 < 256 ^ 4 := by
      apply Nat.div_lt_of_lt_mul
      exact lt_of_lt_of_eq hcreation (by norm_num [Version.width])
    have hsplit : toBigEndian 8 m.creationTime =
        toBigEndian 4 (m.creationTime / 256 ^ 4) ++ toBigEndian 4 m.creationTime :=
      toBigEndian_add 4 4 m.creationTime
    have hcontent : toBigEndian 8 n ++ m.content = (toBigEndian 8 n ++ (1 :: m.flags)) ++
        (toBigEndian 4 (m.creationTime / 256 ^ 4) ++ (toBigEndian 4 m.creationTime ++
          (toBigEndian 8 m.modificationTime ++ (toBigEndian 4 m.timescale ++
            (toBigEndian 8 m.duration ++ m.rest))))) := by
      rw [← List.append_assoc (toBigEndian 4 (m.creationTime / 256 ^ 4)), ← hsplit]
      simp [Mvhd.content, hversion, Version.byte, Version.width]
    rw [hcontent, mvhdSeconds_zero (by simp [m.flags_length]) ?_ (by simp) (by simp),
      bigEndian_of_lt hhigh, bigEndian_toBigEndian, Mvhd.misread, hversion]
    rw [List.getElem?_append_left (by simp), size_digits h]

/-- A search of the boxes themselves finds `mvhd`. -/
theorem bodySeconds_compact (h : f.moovBox.extended = false) :
    bodySeconds (tail f.moovBox) = mvhdSeconds (tail f.mvhdBox) := by
  have htail : tail f.moovBox = flatten (f.childrenBefore ++ f.mvhdBox :: f.childrenAfter) := by
    rw [tail, h, ← f.moovBox_payload]
    rfl
  have hshort : (flatten (f.childrenBefore ++ f.mvhdBox :: f.childrenAfter)).length < 2 ^ 63 := by
    have hwhole := f.short
    rw [flatten_append, List.length_append, flatten_cons, List.length_append, Box.length_bytes,
      Box.size, f.moovBox_payload] at hwhole
    omega
  have hfirst : ∀ b ∈ f.childrenBefore, b.boxType ≠ f.mvhdBox.boxType := by
    intro b hb
    rw [f.mvhdBox_type]
    exact f.one_mvhd b (List.mem_append_left _ hb)
  have hfound := findBox_flatten hshort hfirst
  rw [f.mvhdBox_type] at hfound
  rw [htail, bodySeconds, hfound]
  simp only [Option.bind_eq_bind, Option.bind_some]
  rw [slice_tail]
  rfl

theorem ascii_mvhd : mvhd = toBigEndian 4 mvhdNumber := by decide

/-- A size field of 0 makes one box of all that follows. -/
theorem boxSize_zero {rest : List UInt8} :
    boxSize (toBigEndian 4 0 ++ rest) 0 = some (some ((toBigEndian 4 0 ++ rest).length, 8)) := by
  have hfield : slice ([] ++ (toBigEndian 4 0 ++ rest)) 0 4 = some (toBigEndian 4 0) :=
    slice_between rfl rfl
  rw [List.nil_append] at hfield
  unfold boxSize
  rw [Nat.zero_add, hfield, Option.bind_eq_bind, Option.bind_some, bigEndian_of_lt (by norm_num),
    if_pos rfl, Nat.sub_zero]
  rfl

theorem walkBoxes_zero {boxType rest : List UInt8} {yield : IsobmffBox → Bool}
    (htyped : boxType.length = 4) (hshort : rest.length + 8 < 2 ^ 63)
    (hyield : yield ⟨boxType, 0, rest.length + 8⟩ = true) :
    walkBoxes (toBigEndian 4 0 ++ (boxType ++ rest)) yield =
      some [⟨boxType, 0, rest.length + 8⟩] := by
  obtain ⟨buf, hbuf⟩ : ∃ buf, buf = toBigEndian 4 0 ++ (boxType ++ rest) := ⟨_, rfl⟩
  have hlength : buf.length = rest.length + 8 := by
    rw [hbuf]
    simp only [List.length_append, length_toBigEndian, htyped]
    omega
  have htype : slice buf (0 + 4) (0 + 8) = some boxType := by
    rw [hbuf]
    exact slice_between (by simp) (by simp [htyped])
  have hsize : boxSize buf 0 = some (some (buf.length, 8)) := by
    rw [hbuf]
    exact boxSize_zero
  have hstop : int64 ((0 : ℕ) + int64 buf.length) = buf.length := by
    have hadd : int64 ((0 : ℕ) + int64 buf.length) = (0 : ℕ) + buf.length := int64_add (by omega)
    rw [hadd, Nat.cast_zero, zero_add]
  have hin : ¬ (buf.length < 8 ∨ (buf.length : ℤ) < buf.length ∨ (buf.length : ℤ) ≤ (0 : ℕ)) := by
    omega
  have hwalk : ∀ fuel, walkFrom buf yield (fuel + 1) 0 = some [⟨boxType, 0, buf.length⟩] := by
    intro fuel
    rw [walkFrom, if_neg (by omega), htype, hsize]
    simp only [Option.bind_eq_bind, Option.bind_some, hstop, if_neg hin, Int.toNat_natCast]
    rw [hlength, if_pos hyield, ← hlength, walkFrom_end]
    rfl
  rw [← hbuf, walkBoxes, hlength, hwalk, hlength]

/-- So nothing of another type is found after it. -/
theorem findBox_zero {boxType rest : List UInt8} (htyped : boxType.length = 4)
    (hne : boxType ≠ mvhd) (hshort : rest.length + 8 < 2 ^ 63) :
    findBox (toBigEndian 4 0 ++ (boxType ++ rest)) mvhd = some none := by
  rw [findBox, walkBoxes_zero htyped hshort (by simpa using hne)]
  simp [hne]

/-- What a long header leaves is one box, of the type that its size reads as. -/
theorem bodySeconds_extended {n : ℕ} {payload : List UInt8} (hn : n < 256 ^ 4)
    (hne : n ≠ mvhdNumber) (hshort : payload.length + 8 < 2 ^ 63) :
    bodySeconds (toBigEndian 8 n ++ payload) = some (.error .malformedMedia) := by
  have hhigh : toBigEndian 4 (n / 256 ^ 4) = toBigEndian 4 0 := by
    rw [Nat.div_eq_of_lt hn]
  have hsplit : toBigEndian 8 n ++ payload =
      toBigEndian 4 0 ++ (toBigEndian 4 n ++ payload) := by
    rw [← hhigh, ← List.append_assoc]
    exact congrArg (· ++ payload) (toBigEndian_add 4 4 n)
  have htype : toBigEndian 4 n ≠ mvhd := by
    intro heq
    rw [ascii_mvhd] at heq
    exact hne (toBigEndian_inj hn (by decide) heq)
  rw [hsplit, bodySeconds, findBox_zero (by simp) htype hshort]
  rfl

/-- The movie header box has one of two sizes. -/
theorem mvhdBox_size (h : f.mvhdBox.extended = true) : f.mvhdBox.size < 256 := by
  rw [Box.size, h, f.mvhdBox_payload, Mvhd.content]
  simp only [List.length_cons, List.length_append, f.mvhd.flags_length, length_toBigEndian,
    f.mvhd.rest_length, headerSize]
  cases f.mvhd.version <;> simp [Version.width]

theorem map_quotient (timescale duration : ℕ) : (quotient timescale duration).map Seconds.value =
    if timescale = 0 then .error .malformedMedia else .ok ((duration : ℚ) / timescale) := by
  unfold quotient
  split <;> rfl

theorem quotient_declared : (quotient f.mvhd.timescale f.mvhd.duration).map Seconds.value =
    f.declared :=
  map_quotient _ _

/-- Two quotients are one if the products across are. -/
theorem quotient_declared_iff {timescale duration : ℕ} :
    (quotient timescale duration).map Seconds.value = f.declared ↔
      (timescale = 0 ↔ f.mvhd.timescale = 0) ∧
        duration * f.mvhd.timescale = f.mvhd.duration * timescale := by
  rw [← quotient_declared, map_quotient, map_quotient]
  by_cases ht : timescale = 0
  · by_cases ht' : f.mvhd.timescale = 0
    · simp [ht, ht']
    · simp [ht, ht']
  · by_cases ht' : f.mvhd.timescale = 0
    · simp [ht, ht']
    · have htq : (timescale : ℚ) ≠ 0 := by exact_mod_cast ht
      have htq' : (f.mvhd.timescale : ℚ) ≠ 0 := by exact_mod_cast ht'
      rw [if_neg ht, if_neg ht', Except.ok.injEq, div_eq_div_iff htq htq']
      constructor
      · intro h
        exact ⟨by simp [ht, ht'], by exact_mod_cast h⟩
      · intro h
        exact_mod_cast h.2

theorem exists_some_iff {x : Except Error Seconds} {P : Except Error Seconds → Prop} :
    (∃ y, some x = some y ∧ P y) ↔ P x := by
  simp

end Headers

/-- The duration that the code finds is the declared one, and it accepts the videos that it should,
exactly if the length of the headers does no harm. -/
theorem duration_sound_iff (f : IsoFile) : f.Sound ↔ f.Harmless := by
  rw [IsoFile.sound_iff, IsoFile.Harmless]
  cases hmoov : f.moovBox.extended with
  | false =>
    rw [bodySeconds_compact hmoov]
    cases hmvhd : f.mvhdBox.extended with
    | false =>
      have htail : tail f.mvhdBox = f.mvhd.content := by
        rw [tail, hmvhd, f.mvhdBox_payload]
        rfl
      rw [htail, mvhdSeconds_content, exists_some_iff]
      exact ⟨fun _ => trivial, fun _ => quotient_declared⟩
    | true =>
      have htail : tail f.mvhdBox = toBigEndian 8 f.mvhdBox.size ++ f.mvhd.content := by
        rw [tail, hmvhd, f.mvhdBox_payload]
        rfl
      rw [htail, mvhdSeconds_misread (mvhdBox_size hmvhd), exists_some_iff]
      exact quotient_declared_iff
  | true =>
    have htail : tail f.moovBox = toBigEndian 8 f.moovBox.size ++ f.moovBox.payload := by
      rw [tail, hmoov]
      rfl
    rw [htail]
    dsimp only
    split
    · rename_i hsize
      have hshort : f.moovBox.payload.length + 8 < 2 ^ 63 := by
        have hlimit := hsize.1
        rw [Box.size, hmoov] at hlimit
        norm_num [headerSize] at hlimit
        omega
      rw [bodySeconds_extended hsize.1 hsize.2 hshort, exists_some_iff, IsoFile.declared]
      constructor
      · intro h
        by_contra hne
        rw [if_neg hne] at h
        cases h
      · intro h
        rw [if_pos h]
        rfl
    · exact Iff.rfl

section Files

/-- An hour, created and last modified at the same time. -/
def oneHour : Mvhd where
  version := .zero
  flags := [0, 0, 0]
  creationTime := 3800000000
  modificationTime := 3800000000
  timescale := 1000
  duration := 3600000
  rest := List.replicate 80 0
  flags_length := rfl
  rest_length := rfl
  creationTime_lt := by decide
  modificationTime_lt := by decide
  timescale_lt := by decide
  duration_lt := by decide

/-- Its header has a size of 64 bits. -/
def longHeader : IsoFile where
  before := [⟨ascii "ftyp", false, ascii "isom" ++ [0, 0, 2, 0], by decide, by decide⟩]
  moovBox := ⟨moov, false, toBigEndian 4 1 ++ (mvhd ++ (toBigEndian 8 116 ++ oneHour.content)),
    by decide, by decide⟩
  after := []
  childrenBefore := []
  mvhdBox := ⟨mvhd, true, oneHour.content, by decide, by decide⟩
  childrenAfter := []
  mvhd := oneHour
  moovBox_type := rfl
  moovBox_payload := by decide
  mvhdBox_type := rfl
  mvhdBox_payload := rfl
  one_moov := by decide
  one_mvhd := nofun
  short := by decide +kernel

/-- The code takes the modification time for the duration and the creation time for the timescale,
and finds a second. -/
theorem hour_taken_for_second : ¬ longHeader.Sound := by
  intro h
  obtain ⟨x, hx, hdeclared⟩ := h.duration
  have hfound : videoDurationSeconds longHeader.bytes =
      some (.ok ⟨3800000000, 3800000000⟩) := by decide +kernel
  rw [hfound] at hx
  cases hx
  have hseconds : (1 : ℚ) = 3600 := by
    have hvalue := Except.ok.inj hdeclared
    norm_num [Seconds.value, IsoFile.seconds, longHeader, oneHour] at hvalue
  norm_num at hseconds

end Files

end Tekir.VideoDuration
