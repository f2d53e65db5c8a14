import Tekir.ImageOrientation
import Tekir.JpegExif
import Tekir.VideoDuration

/-!
# What the media pipeline makes of an upload

`mediaPipeline.process` with its branch for images: the header, the dimensions, the pixels set
upright, the new encoding and its size. The codecs of the standard library are parameters.
-/
namespace Tekir.MediaProcessing
open ImageOrientation JpegExif VideoDuration
open Schema (ContentType)
open Statements (Error)

/-- `image.DecodeConfig`, `image.Decode`, `jpeg.Encode` with quality 90 and `png.Encode`. -/
structure Codecs where
  /-- The width and the height that the header declares. -/
  decodeConfig : List UInt8 → Option (ℤ × ℤ)
  /-- The image and the name of its format. -/
  decode : List UInt8 → Option (Image × String)
  encodeJpeg : Image → Except Error (List UInt8)
  encodePng : Image → Except Error (List UInt8)

def maxImagePixels : ℤ := 40000000

/-- Only the orientation of a jpeg is applied. -/
def setUpright (raw : List UInt8) (format : String) (img : Image) : Option Image :=
  if format = "jpeg" then do
    let orientation ← jpegExifOrientation raw
    return if orientation = 1 then img else applyExifOrientation img orientation
  else some img

def reencode (codecs : Codecs) (format : String) (img : Image) : Except Error ProcessedMedia :=
  if format = "jpeg" then do
    let data ← codecs.encodeJpeg img
    return ⟨data, "image/jpeg", "jpg"⟩
  else if format = "png" then do
    let data ← codecs.encodePng img
    return ⟨data, "image/png", "png"⟩
  else .error .unsupportedMediaType

/-- What is stored is bounded as well as what was sent. -/
def bounded (p : Pipeline) (result : ProcessedMedia) : Except Error ProcessedMedia :=
  if p.maxBytes < result.data.length then .error .mediaTooLarge else .ok result

def processImage (codecs : Codecs) (p : Pipeline) (raw : List UInt8) :
    Option (Except Error ProcessedMedia) :=
  match codecs.decodeConfig raw with
  | none => some (.error .malformedMedia)
  | some (width, height) =>
    if width ≤ 0 ∨ height ≤ 0 then some (.error .malformedMedia)
    else if maxImagePixels / height < width then some (.error .mediaDimensionsTooLarge)
    else
      match codecs.decode raw with
      | none => some (.error .malformedMedia)
      | some (img, format) => do
        let img ← setUpright raw format img
        return (reencode codecs format img) >>= bounded p

/-- A panic ends the request, as an error does. -/
def process (codecs : Codecs) (p : Pipeline) (raw : List UInt8) : Except Error ProcessedMedia :=
  (VideoDuration.process (processImage codecs p) p raw).getD (.error .malformedMedia)

def contentTypeText : ContentType → String
  | .imageJpeg => "image/jpeg"
  | .imagePng => "image/png"
  | .videoMp4 => "video/mp4"
  | .videoQuicktime => "video/quicktime"

/-- The column keeps the text; only these four texts are ever written. -/
def storedAs (contentType : String) : ContentType :=
  if contentType = "image/png" then .imagePng
  else if contentType = "video/mp4" then .videoMp4
  else if contentType = "video/quicktime" then .videoQuicktime
  else .imageJpeg

/-- `strings.HasPrefix(contentType, "video/")`. -/
def isVideo (contentType : String) : Bool :=
  "video/".toList.isPrefixOf contentType.toList

variable {codecs : Codecs} {p : Pipeline} {raw : List UInt8} {m : ProcessedMedia}

theorem reencode_type {format : String} {img : Image} (h : reencode codecs format img = .ok m) :
    m.contentType = "image/jpeg" ∨ m.contentType = "image/png" := by
  unfold reencode at h
  split at h
  · obtain ⟨data, -, h⟩ := Statements.bind_eq_ok.mp h
    cases h
    exact .inl rfl
  · split at h
    · obtain ⟨data, -, h⟩ := Statements.bind_eq_ok.mp h
      cases h
      exact .inr rfl
    · cases h

theorem processImage_type (h : processImage codecs p raw = some (.ok m)) :
    m.contentType = "image/jpeg" ∨ m.contentType = "image/png" := by
  unfold processImage at h
  split at h
  · cases h
  · split at h
    · cases h
    · split at h
      · cases h
      · split at h
        · cases h
        · obtain ⟨img, -, h⟩ := Option.bind_eq_some_iff.mp h
          obtain ⟨result, hresult, h⟩ := Statements.bind_eq_ok.mp (Option.some.inj h)
          unfold bounded at h
          split at h
          · cases h
          · cases h
            exact reencode_type hresult

theorem processVideo_type {vc : VideoContainer} (hvc : ∃ brand, (brand, vc) ∈ videoMajorBrands)
    (h : processVideo p raw vc = some (.ok m)) :
    m.contentType = "video/mp4" ∨ m.contentType = "video/quicktime" := by
  have htype : m.contentType = vc.contentType := by
    unfold processVideo at h
    split at h
    · cases h
    · obtain ⟨duration, -, h⟩ := Option.bind_eq_some_iff.mp h
      split at h
      · cases h
      · split at h
        · cases h
        · split at h
          · cases h
          · cases h
            rfl
  obtain ⟨brand, hvc⟩ := hvc
  rw [htype]
  simp only [videoMajorBrands, List.mem_cons, Prod.mk.injEq, List.not_mem_nil, or_false] at hvc
  rcases hvc with ⟨-, rfl⟩ | ⟨-, rfl⟩ | ⟨-, rfl⟩ | ⟨-, rfl⟩ | ⟨-, rfl⟩
  · exact .inl rfl
  · exact .inl rfl
  · exact .inl rfl
  · exact .inl rfl
  · exact .inr rfl

/-- An accepted upload is a video of a pipeline that takes videos, or an image. -/
theorem process_eq_ok (h : process codecs p raw = .ok m) :
    processImage codecs p raw = some (.ok m) ∨
      ∃ vc, 0 < p.maxVideoBytes ∧ sniffVideoContainer raw = some (some vc) ∧
        processVideo p raw vc = some (.ok m) := by
  have himage : (if p.maxBytes < raw.length then some (.error .mediaTooLarge)
      else processImage codecs p raw) = some (.ok m) →
      processImage codecs p raw = some (.ok m) := by
    intro h
    split at h
    · cases h
    · exact h
  have h : VideoDuration.process (processImage codecs p) p raw = some (.ok m) := by
    unfold process at h
    cases hprocess : VideoDuration.process (processImage codecs p) p raw with
    | none =>
      rw [hprocess] at h
      cases h
    | some result =>
      rw [hprocess] at h
      exact congrArg some h
  unfold VideoDuration.process at h
  dsimp only at h
  by_cases hempty : raw.length = 0
  · rw [if_pos hempty] at h
    cases h
  · rw [if_neg hempty] at h
    by_cases hvideo : 0 < p.maxVideoBytes
    · rw [if_pos hvideo] at h
      obtain ⟨sniffed, hsniffed, h⟩ := Option.bind_eq_some_iff.mp h
      cases sniffed with
      | some vc => exact .inr ⟨vc, hvideo, hsniffed, h⟩
      | none => exact .inl (himage h)
    · rw [if_neg hvideo] at h
      exact .inl (himage h)

/-- A pipeline without a bound for videos accepts none. -/
theorem process_photo (hvideo : p.maxVideoBytes = 0) (h : process codecs p raw = .ok m) :
    isVideo m.contentType = false := by
  rcases process_eq_ok h with himage | ⟨vc, hpositive, -⟩
  · rcases processImage_type himage with htype | htype
    · rw [htype]
      decide
    · rw [htype]
      decide
  · omega

theorem sniffed_brand {vc : VideoContainer} (h : sniffVideoContainer raw = some (some vc)) :
    ∃ brand, (brand, vc) ∈ videoMajorBrands := by
  unfold sniffVideoContainer at h
  split at h
  · cases h
  · obtain ⟨ftyp, -, h⟩ := Option.bind_eq_some_iff.mp h
    split at h
    · cases h
    · obtain ⟨brand, -, h⟩ := Option.bind_eq_some_iff.mp h
      obtain ⟨before, after, happend, -⟩ := List.lookup_eq_some_iff.mp (Option.some.inj h)
      rw [happend]
      exact ⟨brand, List.mem_append_right _ List.mem_cons_self⟩

/-- Whatever is stored has one of the four content types. -/
theorem process_type (h : process codecs p raw = .ok m) :
    contentTypeText (storedAs m.contentType) = m.contentType := by
  rcases process_eq_ok h with himage | ⟨vc, -, hsniffed, hvideo⟩
  · rcases processImage_type himage with htype | htype
    · rw [htype]
      rfl
    · rw [htype]
      rfl
  · rcases processVideo_type (sniffed_brand hsniffed) hvideo with htype | htype
    · rw [htype]
      rfl
    · rw [htype]
      rfl

end Tekir.MediaProcessing
