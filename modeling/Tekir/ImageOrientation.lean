import Mathlib.Data.Set.Function
import Mathlib.Tactic.IntervalCases
import Mathlib.Tactic.Ring

/-!
# Upright images

`applyExifOrientation` on the images of the standard library, and the table of the Exif orientations.
-/
namespace Tekir.ImageOrientation

section Images

/-- `color.NRGBA`. -/
structure NRGBA where
  r : UInt8
  g : UInt8
  b : UInt8
  a : UInt8
  deriving DecidableEq

/-- A color is one of `color.NRGBA`, or what its method `RGBA` returns. -/
inductive Color
  | nrgba (c : NRGBA)
  | rgba (r g b a : UInt32)
  deriving DecidableEq

/-- `color.NRGBAModel`. -/
def nrgbaModel : Color → NRGBA
  | .nrgba c => c
  | .rgba r g b a =>
    if a = 0xffff then ⟨(r >>> 8).toUInt8, (g >>> 8).toUInt8, (b >>> 8).toUInt8, 0xff⟩
    else if a = 0 then ⟨0, 0, 0, 0⟩
    else
      let straight (v : UInt32) := ((v * 0xffff / a) >>> 8).toUInt8
      ⟨straight r, straight g, straight b, (a >>> 8).toUInt8⟩

/-- `image.Image`: where its bounds begin, how far they reach, and the color `At` a point. -/
structure Image where
  minX : ℤ
  minY : ℤ
  dx : ℕ
  dy : ℕ
  colorAt : ℤ → ℤ → Color

/-- `image.NRGBA`, from the origin on, row after row. -/
structure Raster where
  dx : ℕ
  dy : ℕ
  pix : List NRGBA
  length_pix : pix.length = dx * dy

def newNRGBA (dx dy : ℕ) : Raster :=
  ⟨dx, dy, List.replicate (dx * dy) ⟨0, 0, 0, 0⟩, List.length_replicate⟩

namespace Raster

variable (r : Raster)

def pixOffset (x y : ℕ) : ℕ :=
  y * r.dx + x

def set (x y : ℕ) (c : Color) : Raster :=
  if x < r.dx ∧ y < r.dy then
    { r with
      pix := r.pix.set (r.pixOffset x y) (nrgbaModel c)
      length_pix := by rw [List.length_set, r.length_pix] }
  else r

def nrgbaAt (x y : ℤ) : NRGBA :=
  if 0 ≤ x ∧ x < r.dx ∧ 0 ≤ y ∧ y < r.dy then
    r.pix.getD (r.pixOffset x.toNat y.toNat) ⟨0, 0, 0, 0⟩
  else ⟨0, 0, 0, 0⟩

def image : Image :=
  ⟨0, 0, r.dx, r.dy, fun x y => .nrgba (r.nrgbaAt x y)⟩

end Raster

end Images

section Orientations

/-- The size of the result. -/
def dstSize (orientation w h : ℕ) : ℕ × ℕ :=
  match orientation with
  | 2 | 3 | 4 => (w, h)
  | _ => (h, w)

/-- Where the pixel of the result comes from, relative to the bounds. -/
def src (orientation : ℕ) (w h x y : ℤ) : ℤ × ℤ :=
  match orientation with
  | 2 => (w - 1 - x, y)
  | 3 => (w - 1 - x, h - 1 - y)
  | 4 => (x, h - 1 - y)
  | 5 => (y, x)
  | 6 => (y, h - 1 - x)
  | 7 => (w - 1 - y, h - 1 - x)
  | _ => (w - 1 - y, x)

/-- The order in which two loops visit the pixels. -/
def scan (dstW dstH : ℕ) : List (ℕ × ℕ) :=
  (List.range dstH).flatMap fun y => (List.range dstW).map fun x => (x, y)

/-- A pixel that is set, and the point that is read for it. -/
structure Visit where
  x : ℕ
  y : ℕ
  readX : ℤ
  readY : ℤ

def visits (img : Image) (orientation : ℕ) : List Visit :=
  let size := dstSize orientation img.dx img.dy
  (scan size.1 size.2).map fun p =>
    let s := src orientation img.dx img.dy p.1 p.2
    ⟨p.1, p.2, img.minX + s.1, img.minY + s.2⟩

def draw (img : Image) (dst : Raster) (vs : List Visit) : Raster :=
  vs.foldl (fun dst v => dst.set v.x v.y (img.colorAt v.readX v.readY)) dst

def applyExifOrientation (img : Image) (orientation : ℕ) : Image :=
  if orientation < 2 ∨ 8 < orientation then img
  else
    let size := dstSize orientation img.dx img.dy
    (draw img (newNRGBA size.1 size.2) (visits img orientation)).image

end Orientations

section Table

inductive Side | top | right | bottom | left
  deriving DecidableEq

/-- Where row 0 of the stored image is seen. -/
def rowSide : ℕ → Side
  | 3 | 4 => .bottom
  | 5 | 8 => .left
  | 6 | 7 => .right
  | _ => .top

/-- Where column 0 of the stored image is seen. -/
def columnSide : ℕ → Side
  | 2 | 3 => .right
  | 5 | 6 => .top
  | 7 | 8 => .bottom
  | _ => .left

namespace Image

variable (img : Image)

def pixels : Set (ℤ × ℤ) :=
  {p | img.minX ≤ p.1 ∧ p.1 < img.minX + img.dx ∧ img.minY ≤ p.2 ∧ p.2 < img.minY + img.dy}

/-- A pixel as the result can hold it, of eight bits in each channel. -/
def pixel (p : ℤ × ℤ) : NRGBA :=
  nrgbaModel (img.colorAt p.1 p.2)

/-- The pixels between the point and the side. -/
def distance (p : ℤ × ℤ) : Side → ℤ
  | .top => p.2 - img.minY
  | .right => img.minX + img.dx - 1 - p.1
  | .bottom => img.minY + img.dy - 1 - p.2
  | .left => p.1 - img.minX

/-- The pixel that the table shows at a point of the displayed image: it is as far from row 0 and
column 0 of the stored one as the point is from their sides. -/
def stored (displayed : Image) (orientation : ℕ) (p : ℤ × ℤ) : ℤ × ℤ :=
  (img.minX + displayed.distance p (columnSide orientation),
    img.minY + displayed.distance p (rowSide orientation))

/-- The result is the image as the table displays it. -/
structure Upright (orientation : ℕ) : Prop where
  size : ((applyExifOrientation img orientation).dx, (applyExifOrientation img orientation).dy) =
    if 5 ≤ orientation then (img.dy, img.dx) else (img.dx, img.dy)
  reads : ∀ v ∈ visits img orientation, (v.readX, v.readY) ∈ img.pixels
  bijective : Set.BijOn (img.stored (applyExifOrientation img orientation) orientation)
    (applyExifOrientation img orientation).pixels img.pixels
  placed : ∀ p ∈ (applyExifOrientation img orientation).pixels,
    (applyExifOrientation img orientation).colorAt p.1 p.2 =
      .nrgba (img.pixel (img.stored (applyExifOrientation img orientation) orientation p))

/-- The image from the origin on, with its pixels as the result can hold them. -/
structure Same (result : Image) : Prop where
  dx : result.dx = img.dx
  dy : result.dy = img.dy
  minX : result.minX = 0
  minY : result.minY = 0
  colorAt : ∀ p ∈ img.pixels,
    result.colorAt (p.1 - img.minX) (p.2 - img.minY) = .nrgba (img.pixel p)

end Image

/-- The corrections that undo each other. -/
def inverses : List (ℕ × ℕ) :=
  [(2, 2), (3, 3), (4, 4), (5, 5), (7, 7), (6, 8), (8, 6)]

end Table

section Rasters

variable {r : Raster} {x y x' y' : ℕ} {c : Color}

@[simp] theorem Raster.set_dx : (r.set x y c).dx = r.dx := by
  unfold Raster.set
  split <;> rfl

@[simp] theorem Raster.set_dy : (r.set x y c).dy = r.dy := by
  unfold Raster.set
  split <;> rfl

theorem Raster.nrgbaAt_eq (hx : x < r.dx) (hy : y < r.dy) :
    r.nrgbaAt x y = r.pix.getD (r.pixOffset x y) ⟨0, 0, 0, 0⟩ := by
  have hin : (0 : ℤ) ≤ x ∧ (x : ℤ) < r.dx ∧ (0 : ℤ) ≤ y ∧ (y : ℤ) < r.dy := by omega
  rw [Raster.nrgbaAt, if_pos hin]
  rfl

theorem Raster.pixOffset_lt (hx : x < r.dx) (hy : y < r.dy) : r.pixOffset x y < r.pix.length := by
  rw [r.length_pix, Raster.pixOffset]
  calc y * r.dx + x < y * r.dx + r.dx := Nat.add_lt_add_left hx _
    _ = (y + 1) * r.dx := by ring
    _ ≤ r.dy * r.dx := Nat.mul_le_mul_right _ hy
    _ = r.dx * r.dy := Nat.mul_comm _ _

/-- Two pixels do not share a place. -/
theorem Raster.pixOffset_inj (hx : x < r.dx) (hx' : x' < r.dx)
    (h : r.pixOffset x y = r.pixOffset x' y') : x = x' ∧ y = y' := by
  have hdiv : ∀ {x y : ℕ}, x < r.dx → r.pixOffset x y / r.dx = y := by
    intro x y hx
    rw [Raster.pixOffset, Nat.mul_comm, Nat.mul_add_div (by omega), Nat.div_eq_of_lt hx]
    rfl
  have hy : y = y' := by rw [← hdiv hx (y := y), h, hdiv hx']
  subst hy
  exact ⟨Nat.add_left_cancel h, rfl⟩

theorem Raster.nrgbaAt_set_self (hx : x < r.dx) (hy : y < r.dy) :
    (r.set x y c).nrgbaAt x y = nrgbaModel c := by
  rw [Raster.nrgbaAt_eq (by simpa using hx) (by simpa using hy), Raster.set, if_pos ⟨hx, hy⟩]
  change (r.pix.set (r.pixOffset x y) (nrgbaModel c)).getD (r.pixOffset x y) _ = _
  rw [List.getD_eq_getElem?_getD, List.getElem?_set_self (Raster.pixOffset_lt hx hy)]
  rfl

theorem Raster.nrgbaAt_set_ne (hx : x < r.dx) (hy : y < r.dy) (hx' : x' < r.dx) (hy' : y' < r.dy)
    (hne : ¬ (x = x' ∧ y = y')) : (r.set x y c).nrgbaAt x' y' = r.nrgbaAt x' y' := by
  rw [Raster.nrgbaAt_eq (by simpa using hx') (by simpa using hy'), Raster.nrgbaAt_eq hx' hy',
    Raster.set, if_pos ⟨hx, hy⟩]
  change (r.pix.set (r.pixOffset x y) (nrgbaModel c)).getD (r.pixOffset x' y') _ = _
  rw [List.getD_eq_getElem?_getD, List.getD_eq_getElem?_getD,
    List.getElem?_set_ne fun h => hne (Raster.pixOffset_inj hx hx' h)]

end Rasters

section Loops

variable {img : Image} {dst : Raster} {vs : List Visit} {x y : ℕ} {c : Color} {w h : ℕ}

theorem mem_scan {p : ℕ × ℕ} : p ∈ scan w h ↔ p.1 < w ∧ p.2 < h := by
  simp only [scan, List.mem_flatMap, List.mem_range, List.mem_map]
  constructor
  · rintro ⟨y, hy, x, hx, rfl⟩
    exact ⟨hx, hy⟩
  · rintro ⟨hx, hy⟩
    exact ⟨p.2, hy, p.1, hx, rfl⟩

theorem draw_dx : (draw img dst vs).dx = dst.dx := by
  induction vs generalizing dst with
  | nil => rfl
  | cons v vs ih => exact ih.trans Raster.set_dx

theorem draw_dy : (draw img dst vs).dy = dst.dy := by
  induction vs generalizing dst with
  | nil => rfl
  | cons v vs ih => exact ih.trans Raster.set_dy

/-- A pixel has the color of its visits, once there was one. -/
theorem nrgbaAt_draw (hin : ∀ v ∈ vs, v.x < dst.dx ∧ v.y < dst.dy) (hx : x < dst.dx)
    (hy : y < dst.dy)
    (hcolor : ∀ v ∈ vs, v.x = x ∧ v.y = y → img.colorAt v.readX v.readY = c)
    (hset : (∃ v ∈ vs, v.x = x ∧ v.y = y) ∨ dst.nrgbaAt x y = nrgbaModel c) :
    (draw img dst vs).nrgbaAt x y = nrgbaModel c := by
  induction vs generalizing dst with
  | nil =>
    rcases hset with ⟨v, hv, -⟩ | hset
    · cases hv
    · exact hset
  | cons v vs ih =>
    obtain ⟨hvx, hvy⟩ := hin v List.mem_cons_self
    refine ih ?_ (by simpa using hx) (by simpa using hy) ?_ ?_
    · intro v' hv'
      simpa using hin v' (List.mem_cons_of_mem _ hv')
    · exact fun v' hv' => hcolor v' (List.mem_cons_of_mem _ hv')
    · by_cases hhere : v.x = x ∧ v.y = y
      · right
        have hc := hcolor v List.mem_cons_self hhere
        obtain ⟨rfl, rfl⟩ := hhere
        rw [Raster.nrgbaAt_set_self hvx hvy, hc]
      · rcases hset with ⟨v', hv', hat⟩ | hset
        · rcases List.mem_cons.mp hv' with rfl | hv'
          · exact absurd hat hhere
          · exact .inl ⟨v', hv', hat⟩
        · exact .inr ((Raster.nrgbaAt_set_ne hvx hvy hx hy hhere).trans hset)

end Loops

section Corrections

variable {img : Image} {o o' : ℕ} {p : ℤ × ℤ}

theorem dstSize_eq (h2 : 2 ≤ o) (h8 : o ≤ 8) (w h : ℕ) :
    dstSize o w h = if 5 ≤ o then (h, w) else (w, h) := by
  interval_cases o <;> rfl

theorem applyExifOrientation_eq (h2 : 2 ≤ o) (h8 : o ≤ 8) : applyExifOrientation img o =
    (draw img (newNRGBA (dstSize o img.dx img.dy).1 (dstSize o img.dx img.dy).2)
      (visits img o)).image := by
  rw [applyExifOrientation, if_neg (by omega)]

/-- The result starts at the origin and has the size that the table gives it. -/
theorem bounds_applyExifOrientation (img : Image) (h2 : 2 ≤ o) (h8 : o ≤ 8) :
    (applyExifOrientation img o).minX = 0 ∧ (applyExifOrientation img o).minY = 0 ∧
      (applyExifOrientation img o).dx = (if 5 ≤ o then img.dy else img.dx) ∧
        (applyExifOrientation img o).dy = if 5 ≤ o then img.dx else img.dy := by
  rw [applyExifOrientation_eq h2 h8]
  refine ⟨rfl, rfl, draw_dx.trans ?_, draw_dy.trans ?_⟩
  · rw [dstSize_eq h2 h8]
    change (if 5 ≤ o then (img.dy, img.dx) else (img.dx, img.dy)).1 = _
    split <;> rfl
  · rw [dstSize_eq h2 h8]
    change (if 5 ≤ o then (img.dy, img.dx) else (img.dx, img.dy)).2 = _
    split <;> rfl

/-- The code reads the pixel of the table. -/
theorem src_eq_stored (h2 : 2 ≤ o) (h8 : o ≤ 8) :
    (img.minX + (src o img.dx img.dy p.1 p.2).1, img.minY + (src o img.dx img.dy p.1 p.2).2) =
      img.stored (applyExifOrientation img o) o p := by
  obtain ⟨hminX, hminY, hdx, hdy⟩ := bounds_applyExifOrientation img h2 h8
  unfold Image.stored Image.distance
  rw [hminX, hminY, hdx, hdy]
  interval_cases o <;> simp [src, columnSide, rowSide]

theorem mem_pixels_image {r : Raster} : p ∈ r.image.pixels ↔
    ∃ x y : ℕ, x < r.dx ∧ y < r.dy ∧ p = ((x : ℤ), (y : ℤ)) := by
  constructor
  · rintro ⟨hx, hx', hy, hy'⟩
    change 0 ≤ p.1 at hx
    change 0 ≤ p.2 at hy
    change p.1 < 0 + r.dx at hx'
    change p.2 < 0 + r.dy at hy'
    exact ⟨p.1.toNat, p.2.toNat, by omega, by omega, by ext <;> simp [hx, hy]⟩
  · rintro ⟨x, y, hx, hy, rfl⟩
    change 0 ≤ (x : ℤ) ∧ (x : ℤ) < 0 + r.dx ∧ 0 ≤ (y : ℤ) ∧ (y : ℤ) < 0 + r.dy
    omega

/-- No point of the result is taken from outside of the bounds. -/
theorem stored_mem (h2 : 2 ≤ o) (h8 : o ≤ 8) (hp : p ∈ (applyExifOrientation img o).pixels) :
    img.stored (applyExifOrientation img o) o p ∈ img.pixels := by
  obtain ⟨hminX, hminY, hdx, hdy⟩ := bounds_applyExifOrientation img h2 h8
  obtain ⟨hx, hx', hy, hy'⟩ := hp
  rw [hminX] at hx hx'
  rw [hminY] at hy hy'
  rw [hdx] at hx'
  rw [hdy] at hy'
  rw [← src_eq_stored h2 h8]
  change _ ≤ _ ∧ _ < _ ∧ _ ≤ _ ∧ _ < _
  interval_cases o <;> simp only [src] <;> norm_num at hx' hy' <;> omega

theorem stored_injOn (h2 : 2 ≤ o) (h8 : o ≤ 8) :
    Set.InjOn (img.stored (applyExifOrientation img o) o) (applyExifOrientation img o).pixels := by
  intro p _ q _ h
  simp only [← src_eq_stored h2 h8, Prod.mk.injEq] at h
  obtain ⟨hx, hy⟩ := h
  ext
  · interval_cases o <;> simp only [src] at hx hy <;> omega
  · interval_cases o <;> simp only [src] at hx hy <;> omega

theorem mem_inverses (h : (o, o') ∈ inverses) : 2 ≤ o ∧ o ≤ 8 ∧ 2 ≤ o' ∧ o' ≤ 8 := by
  have hall : ∀ p ∈ inverses, 2 ≤ p.1 ∧ p.1 ≤ 8 ∧ 2 ≤ p.2 ∧ p.2 ≤ 8 := by decide
  exact hall _ h

theorem exists_inverse (h2 : 2 ≤ o) (h8 : o ≤ 8) : ∃ o', (o, o') ∈ inverses := by
  have hall : ∀ o < 9, 2 ≤ o → ∃ p ∈ inverses, p.1 = o := by decide
  obtain ⟨⟨o, o'⟩, hp, rfl⟩ := hall o (by omega) h2
  exact ⟨o', hp⟩

/-- The table read twice. -/
theorem stored_stored (h : (o, o') ∈ inverses) (img : Image) (p : ℤ × ℤ) :
    img.stored (applyExifOrientation img o) o
        ((applyExifOrientation img o).stored
          (applyExifOrientation (applyExifOrientation img o) o') o' p) =
      (img.minX + p.1, img.minY + p.2) := by
  obtain ⟨h2, h8, h2', h8'⟩ := mem_inverses h
  obtain ⟨hminX, hminY, hdx, hdy⟩ := bounds_applyExifOrientation img h2 h8
  rw [← src_eq_stored h2' h8', ← src_eq_stored h2 h8, hminX, hminY, hdx, hdy]
  simp only [inverses, List.mem_cons, Prod.mk.injEq, List.not_mem_nil, or_false] at h
  rcases h with ⟨rfl, rfl⟩ | ⟨rfl, rfl⟩ | ⟨rfl, rfl⟩ | ⟨rfl, rfl⟩ | ⟨rfl, rfl⟩ | ⟨rfl, rfl⟩ |
    ⟨rfl, rfl⟩ <;> simp [src]

/-- Two corrections that undo each other keep the size. -/
theorem bounds_twice (h : (o, o') ∈ inverses) (img : Image) :
    (applyExifOrientation (applyExifOrientation img o) o').minX = 0 ∧
      (applyExifOrientation (applyExifOrientation img o) o').minY = 0 ∧
        (applyExifOrientation (applyExifOrientation img o) o').dx = img.dx ∧
          (applyExifOrientation (applyExifOrientation img o) o').dy = img.dy := by
  obtain ⟨h2, h8, h2', h8'⟩ := mem_inverses h
  obtain ⟨-, -, hdx, hdy⟩ := bounds_applyExifOrientation img h2 h8
  obtain ⟨hminX, hminY, hdx', hdy'⟩ :=
    bounds_applyExifOrientation (applyExifOrientation img o) h2' h8'
  have hboth : 5 ≤ o ↔ 5 ≤ o' := by
    have hall : ∀ p ∈ inverses, 5 ≤ p.1 ↔ 5 ≤ p.2 := by decide
    exact hall _ h
  refine ⟨hminX, hminY, ?_, ?_⟩
  · rw [hdx', hdx, hdy]
    by_cases h5 : 5 ≤ o
    · rw [if_pos (hboth.mp h5), if_pos h5]
    · rw [if_neg (hboth.not.mp h5), if_neg h5]
  · rw [hdy', hdx, hdy]
    by_cases h5 : 5 ≤ o
    · rw [if_pos (hboth.mp h5), if_pos h5]
    · rw [if_neg (hboth.not.mp h5), if_neg h5]

/-- The point of the upright image again, counted from the origin. -/
theorem mem_twice (h : (o, o') ∈ inverses) (hp : p ∈ img.pixels) :
    (p.1 - img.minX, p.2 - img.minY) ∈
      (applyExifOrientation (applyExifOrientation img o) o').pixels := by
  obtain ⟨hminX, hminY, hdx, hdy⟩ := bounds_twice h img
  obtain ⟨hx, hx', hy, hy'⟩ := hp
  change _ ≤ _ ∧ _ < _ ∧ _ ≤ _ ∧ _ < _
  rw [hminX, hminY, hdx, hdy]
  dsimp only
  omega

theorem stored_bijOn (h2 : 2 ≤ o) (h8 : o ≤ 8) :
    Set.BijOn (img.stored (applyExifOrientation img o) o) (applyExifOrientation img o).pixels
      img.pixels := by
  refine ⟨fun p hp => stored_mem h2 h8 hp, stored_injOn h2 h8, ?_⟩
  intro p hp
  obtain ⟨o', h⟩ := exists_inverse h2 h8
  obtain ⟨-, -, h2', h8'⟩ := mem_inverses h
  refine ⟨_, stored_mem h2' h8' (mem_twice h hp), ?_⟩
  rw [stored_stored h]
  ext
  · exact add_sub_cancel _ _
  · exact add_sub_cancel _ _

/-- The visits are those of the points of the result. -/
theorem mem_visits (h2 : 2 ≤ o) (h8 : o ≤ 8) {v : Visit} (hv : v ∈ visits img o) :
    ((v.x : ℤ), (v.y : ℤ)) ∈ (applyExifOrientation img o).pixels ∧
      (v.readX, v.readY) =
        img.stored (applyExifOrientation img o) o ((v.x : ℤ), (v.y : ℤ)) := by
  obtain ⟨p, hp, rfl⟩ := List.mem_map.mp hv
  obtain ⟨hx, hy⟩ := mem_scan.mp hp
  refine ⟨?_, src_eq_stored (p := ((p.1 : ℤ), (p.2 : ℤ))) h2 h8⟩
  rw [applyExifOrientation_eq h2 h8, mem_pixels_image, draw_dx, draw_dy]
  exact ⟨p.1, p.2, hx, hy, rfl⟩

theorem colorAt_applyExifOrientation (h2 : 2 ≤ o) (h8 : o ≤ 8)
    (hp : p ∈ (applyExifOrientation img o).pixels) :
    (applyExifOrientation img o).colorAt p.1 p.2 =
      .nrgba (img.pixel (img.stored (applyExifOrientation img o) o p)) := by
  have hin := hp
  rw [applyExifOrientation_eq h2 h8, mem_pixels_image, draw_dx, draw_dy] at hin
  obtain ⟨x, y, hx, hy, rfl⟩ := hin
  have hdrawn : (draw img (newNRGBA (dstSize o img.dx img.dy).1 (dstSize o img.dx img.dy).2)
      (visits img o)).nrgbaAt x y =
        img.pixel (img.stored (applyExifOrientation img o) o ((x : ℤ), (y : ℤ))) := by
    refine nrgbaAt_draw ?_ hx hy ?_ (.inl ?_)
    · intro v hv
      obtain ⟨p, hp, rfl⟩ := List.mem_map.mp hv
      exact mem_scan.mp hp
    · rintro v hv ⟨rfl, rfl⟩
      rw [← (mem_visits h2 h8 hv).2]
    · exact ⟨_, List.mem_map.mpr ⟨(x, y), mem_scan.mpr ⟨hx, hy⟩, rfl⟩, rfl, rfl⟩
  rw [← hdrawn, applyExifOrientation_eq h2 h8]
  rfl

theorem upright (h2 : 2 ≤ o) (h8 : o ≤ 8) : img.Upright o where
  size := by
    obtain ⟨-, -, hdx, hdy⟩ := bounds_applyExifOrientation img h2 h8
    rw [hdx, hdy]
    split <;> rfl
  reads v hv := by
    obtain ⟨hmem, hread⟩ := mem_visits h2 h8 hv
    rw [hread]
    exact stored_mem h2 h8 hmem
  bijective := stored_bijOn h2 h8
  placed _ := colorAt_applyExifOrientation h2 h8

/-- A correction and the one that undoes it. -/
theorem same (h : (o, o') ∈ inverses) (img : Image) :
    img.Same (applyExifOrientation (applyExifOrientation img o) o') where
  dx := (bounds_twice h img).2.2.1
  dy := (bounds_twice h img).2.2.2
  minX := (bounds_twice h img).1
  minY := (bounds_twice h img).2.1
  colorAt p hp := by
    obtain ⟨h2, h8, h2', h8'⟩ := mem_inverses h
    have hmid := stored_mem h2' h8' (mem_twice h hp)
    have hfirst := colorAt_applyExifOrientation h2 h8 hmid
    have hsecond := colorAt_applyExifOrientation h2' h8' (mem_twice h hp)
    rw [hsecond, Image.pixel, hfirst, stored_stored h, add_sub_cancel, add_sub_cancel]
    rfl

end Corrections

/-- Each of the corrections displays an image as the table says, those of one pair give it back, and
any other orientation leaves it as it is. -/
theorem orientation_table :
    (∀ img o, 2 ≤ o → o ≤ 8 → Image.Upright img o) ∧
    (∀ img o o', (o, o') ∈ inverses →
      Image.Same img (applyExifOrientation (applyExifOrientation img o) o')) ∧
    ∀ img o, ¬ (2 ≤ o ∧ o ≤ 8) → applyExifOrientation img o = img := by
  refine ⟨fun _ _ => upright, fun img _ _ h => same h img, ?_⟩
  intro img o h
  rw [applyExifOrientation, if_pos (by omega)]

end Tekir.ImageOrientation
