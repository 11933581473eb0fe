import Captioning.Image.Anymap
import Captioning.Image.Bitmap
import Captioning.Image.Gif
import Captioning.Image.Library
import Captioning.Image.Png.Animation
import Captioning.Image.Png.Writer
import Captioning.Image.Resize
import Captioning.Image.Webp.Container
/-!
# A library for some forms of pictures

Data is recognised by its first bytes. Of the forms that are recognised, portable network graphics, graphics
interchange, lossless WebP, bitmaps and portable anymaps are read; data in another one is not supported.
-/

namespace Captioning.Image

namespace Format

/-- The first bytes of a form; none stands for any byte. -/
def signatures : List (List (Option UInt8) × Format) :=
  let word := fun (s : String) => (Utf8.ofString s).map some
  let gap := fun (n : Nat) => List.replicate n (none : Option UInt8)
  [(Png.signature.map some, png),
    ([some 0xFF, some 0xD8, some 0xFF], other "JPEG"),
    (word "GIF89a", gif),
    (word "GIF87a", gif),
    (word "RIFF" ++ gap 4 ++ word "WEBP", webp),
    (word "MM" ++ [some 0] ++ word "*", other "TIFF"),
    (word "II*" ++ [some 0], other "TIFF"),
    (word "DDS ", other "DDS"),
    (word "BM", bitmap),
    ([some 0, some 0, some 1, some 0], other "ICO"),
    (word "#?RADIANCE", other "HDR"),
    ([some 0, some 0] ++ gap 2 ++ word "ftypavif", other "AVIF"),
    ([some 0x76, some 0x2F, some 0x31, some 0x01], other "EXR"),
    (word "qoif", other "QOI"),
    (word "P1", anymap), (word "P2", anymap), (word "P3", anymap), (word "P4", anymap), (word "P5", anymap),
    (word "P6", anymap), (word "P7", anymap),
    (word "farbfeld", other "farbfeld")]

/-- Whether data starts in a given way. -/
def startsWith : List (Option UInt8) → Bytes → Bool
  | [], _ => true
  | _ :: _, [] => false
  | some a :: p, b :: r => a == b && startsWith p r
  | none :: p, _ :: r => startsWith p r

/-- The form of data. -/
def ofBytes? (b : Bytes) : Option Format :=
  (signatures.find? fun s => startsWith s.1 b).map (·.2)

end Format

/-- The form of data, which has to be known. -/
def formatOf (b : Bytes) : Except Fault Format :=
  match Format.ofBytes? b with
  | some f => .ok f
  | none => .error (.unsupported "format")

/-- The picture of data in a given form; of an animation the one that is shown without animating it. -/
def decodeAs (format : Format) (b : Bytes) : Except Fault Raster := do
  match format with
  | .png => (← Png.Reading.ofBytes b).still
  | .webp => (← Webp.File.ofBytes b).picture
  | .bitmap => Bitmap.read b
  | .anymap => Anymap.read b
  | .gif => match ← Gif.frames b with
    | first :: _ => first
    | [] => throw (.malformed "animation without frames")
  | .other name => throw (.unsupported name)

/-- The picture of data. -/
def decode (b : Bytes) : Except Fault Raster := do
  decodeAs (← formatOf b) b

/-- Frames whose faults are put into words. -/
def inWords (frames : List (Except Fault Raster)) : FrameList :=
  frames.map (·.mapError Fault.message)

/-- The library for the forms that are read here. -/
instance standard : Library where
  formatOf b := (formatOf b).mapError Fault.message
  gifFrames b := ((Gif.frames b).map inWords).mapError Fault.message
  webpFrames? b := ((Webp.File.ofBytes b).map fun file => file.frames?.map inWords).mapError Fault.message
  pngFrames? b := ((Png.Reading.ofBytes b).map fun r => r.frames?.map inWords).mapError Fault.message
  picture format b := (decodeAs format b).mapError Fault.message
  resize := resize
  encode r := (Png.write r).mapError Fault.message
  resize_size := resize_size

end Captioning.Image
