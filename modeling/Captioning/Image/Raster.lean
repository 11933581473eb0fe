import Captioning.Image.Fault
/-!
# Rasters

A raster is a rectangle of pixels, row by row from the top. A pixel has red, green and blue parts and an
opacity. Pictures that are composed of several ones are described point by point with `Raster.ofFn`.

Main statement: `Raster.get_ofFn` (every point of a described raster is as described).
-/

namespace Captioning.Image

/-- A colour with its opacity. -/
structure Pixel where
  red : UInt8
  green : UInt8
  blue : UInt8
  alpha : UInt8
deriving Repr, DecidableEq

namespace Pixel

/-- Nothing is to be seen. -/
def clear : Pixel := ⟨0, 0, 0, 0⟩

instance : Inhabited Pixel := ⟨clear⟩

/-- A shade of grey. -/
def gray (v alpha : UInt8) : Pixel := ⟨v, v, v, alpha⟩

/-- The colour without transparency. -/
def opaque_ (p : Pixel) : Pixel := { p with alpha := 255 }

/-- A part of a pixel between 0 and 1. -/
def unit (v : UInt8) : Float32 := v.toNat.toFloat32 / 255.0

/-- A pixel seen through the one over it. -/
def under (below above : Pixel) : Pixel :=
  if above.alpha == 0 then below
  else if above.alpha == 255 then above
  else
    let a := unit below.alpha
    let b := unit above.alpha
    let alpha := a + b - a * b
    let mix := fun (low high : UInt8) =>
      (255.0 * ((unit high * b + unit low * a * (1.0 - b)) / alpha)).toUInt8
    ⟨mix below.red above.red, mix below.green above.green, mix below.blue above.blue, (255.0 * alpha).toUInt8⟩

end Pixel

/-- A rectangle of pixels, row by row. -/
structure Raster where
  width : Nat
  height : Nat
  pixels : Array Pixel
  size_eq : pixels.size = width * height

namespace Raster

/-- A raster described point by point. -/
def ofFn (width height : Nat) (f : Nat → Nat → Pixel) : Raster :=
  ⟨width, height, Array.ofFn (n := width * height) fun i => f (i.val % width) (i.val / width), by simp⟩

/-- The raster on which nothing is to be seen. -/
def blank (width height : Nat) : Raster :=
  ⟨width, height, Array.replicate (width * height) .clear, by simp⟩

instance : Inhabited Raster := ⟨blank 0 0⟩

/-- The pixel at a point; nothing is to be seen outside. -/
def get (r : Raster) (x y : Nat) : Pixel :=
  if x < r.width then r.pixels.getD (y * r.width + x) .clear else .clear

/-- Every pixel changed. -/
def map (f : Pixel → Pixel) (r : Raster) : Raster :=
  ⟨r.width, r.height, r.pixels.map f, by simp [r.size_eq]⟩

/-- A raster with a part of it redrawn: inside the rectangle that `part` covers when its corner is put at
(`left`, `top`), the pixel is computed from the old one and the one of `part`. -/
def redraw (r part : Raster) (left top : Nat) (mix : Pixel → Pixel → Pixel) : Raster :=
  ofFn r.width r.height fun x y =>
    let old := r.get x y
    if left ≤ x && top ≤ y && x < left + part.width && y < top + part.height then
      mix old (part.get (x - left) (y - top))
    else old

/-- The most bytes that a picture may take. -/
def byteLimit : Nat := 512 * 1024 * 1024

/-- Objects to a picture that is too large to be held. -/
def checkSize (width height : Nat) : Except Fault Unit :=
  if byteLimit < 4 * width * height then .error .tooLarge else .ok ()

@[simp] theorem width_ofFn (w h : Nat) (f : Nat → Nat → Pixel) : (ofFn w h f).width = w := rfl

@[simp] theorem height_ofFn (w h : Nat) (f : Nat → Nat → Pixel) : (ofFn w h f).height = h := rfl

theorem get_ofFn {w h x y : Nat} (f : Nat → Nat → Pixel) (hx : x < w) (hy : y < h) :
    (ofFn w h f).get x y = f x y := by
  have hlt : y * w + x < w * h := by
    calc y * w + x < y * w + w := by omega
      _ = (y + 1) * w := by rw [Nat.add_mul, Nat.one_mul]
      _ ≤ h * w := Nat.mul_le_mul_right w hy
      _ = w * h := Nat.mul_comm h w
  have hm : (y * w + x) % w = x := by
    rw [Nat.add_comm, Nat.add_mul_mod_self_right, Nat.mod_eq_of_lt hx]
  have hd : (y * w + x) / w = y := by
    rw [Nat.add_comm, Nat.add_mul_div_right _ _ (by omega), Nat.div_eq_of_lt hx, Nat.zero_add]
  simp [get, ofFn, hx, Array.getD, hlt, hm, hd]

end Raster

end Captioning.Image
