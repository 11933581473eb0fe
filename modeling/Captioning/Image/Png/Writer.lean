import Captioning.Image.Inflate
import Captioning.Image.Png.Head
import Captioning.Image.Raster
/-!
# Writing portable network graphics

A raster is written with eight bits for each of red, green, blue and opacity, without filters and without
compression. A raster without pixels has no such form.
-/

namespace Captioning.Image.Png

/-- The bytes of a pixel. -/
def pixelBytes (p : Pixel) : Bytes :=
  [p.red, p.green, p.blue, p.alpha]

/-- The rows of a raster, each behind the name of the filter that changes nothing. -/
def rowBytes (r : Raster) : Bytes :=
  (List.range r.height).flatMap fun y =>
    0 :: (List.range r.width).flatMap fun x => pixelBytes (r.get x y)

/-- The data of a raster. -/
def write (r : Raster) : Except Fault Bytes :=
  if r.width == 0 || r.height == 0 then .error (.malformed "size")
  else
    let head := bigFour r.width ++ bigFour r.height ++ [8, 6, 0, 0, 0]
    .ok (signature ++ Chunk.write "IHDR" head ++ Chunk.write "IDAT" (deflateStored (rowBytes r))
      ++ Chunk.write "IEND" [])

end Captioning.Image.Png
