import Captioning.Image.Raster
/-!
# Resizing

A raster brought to another size. Every new row or column is a weighted mean of the old ones around its
place, the weights being those of a windowed sinc function three lobes wide; first the rows are resized, then
the columns. A raster without pixels becomes one on which nothing is to be seen.

Main statement: `resize_size` (the result has the size that was asked for).
-/

namespace Captioning.Image

/-- How many lobes of the sinc function count. -/
def lobes : Float := 3.0

/-- The sinc function. -/
def sinc (t : Float) : Float :=
  if t == 0.0 then 1.0
  else
    let a := t * 3.141592653589793
    a.sin / a

/-- The weight of something at a distance. -/
def windowedSinc (t : Float) : Float :=
  if t.abs < lobes then sinc t * sinc (t / lobes) else 0.0

/-- The old places that a new one is made of, with their weights, which sum up to 1. -/
def weights (old new place : Nat) : List (Nat × Float) :=
  let ratio := old.toFloat / new.toFloat
  let spread := max ratio 1.0
  let centre := (place.toFloat + 0.5) * ratio
  let reach := lobes * spread
  let first := (max (centre - reach).floor 0.0).toUInt64.toNat
  let last := min (centre + reach).ceil.toUInt64.toNat old
  let first := min first (last - 1)
  let raw := (List.range (last - first)).map fun k =>
    (first + k, windowedSinc (((first + k).toFloat + 0.5 - centre) / spread))
  let sum := raw.foldl (fun s p => s + p.2) 0.0
  raw.map fun (n, w) => (n, w / sum)

/-- A number brought to eight bits. -/
def toByte (x : Float) : UInt8 :=
  x.round.toUInt8

/-- The weighted mean of pixels. -/
def meanPixel (ps : List (Pixel × Float)) : Pixel :=
  let part := fun (f : Pixel → UInt8) => toByte (ps.foldl (fun s (p, w) => s + (f p).toNat.toFloat * w) 0.0)
  ⟨part (·.red), part (·.green), part (·.blue), part (·.alpha)⟩

/-- A raster with another number of rows. -/
def resizeRows (r : Raster) (height : Nat) : Raster :=
  let table := (Array.range height).map (weights r.height height)
  .ofFn r.width height fun x y => meanPixel ((table.getD y []).map fun (n, w) => (r.get x n, w))

/-- A raster with another number of columns. -/
def resizeColumns (r : Raster) (width : Nat) : Raster :=
  let table := (Array.range width).map (weights r.width width)
  .ofFn width r.height fun x y => meanPixel ((table.getD x []).map fun (n, w) => (r.get n y, w))

/-- A raster brought to another size. -/
def resize (r : Raster) (width height : Nat) : Raster :=
  if r.width == 0 || r.height == 0 then .blank width height
  else resizeColumns (resizeRows r height) width

theorem resize_size (r : Raster) (w h : Nat) : (resize r w h).width = w ∧ (resize r w h).height = h := by
  unfold resize
  split <;> simp [Raster.blank, resizeColumns, resizeRows]

end Captioning.Image
