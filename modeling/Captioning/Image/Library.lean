import Captioning.Bytes.Utf8
import Captioning.Image.Raster
/-!
# The library for pictures

Pictures are told apart, decoded, resized and encoded by a library, whose faults are the texts in which it words them.
What it does is left open: all that is known of it is that a resized picture has the size that was asked for.
`Image.standard` is a library for some of the forms.
-/

namespace Captioning.Image

/-- The forms that are told apart. -/
inductive Format
  | png
  | gif
  | webp
  | bitmap
  | anymap
  | other (name : String)
deriving Repr, DecidableEq

/-- The frames of an animation, one after the other. -/
abbrev FrameList := List (Except String Raster)

/-- A library for pictures. The same data always has the same frames. -/
class Library where
  /-- The form of data, by its first bytes. -/
  formatOf : Bytes → Except String Format
  gifFrames : Bytes → Except String FrameList
  /-- The frames of an animation; none for a still picture. -/
  webpFrames? : Bytes → Except String (Option FrameList)
  /-- The frames of an animation; none for a still picture. -/
  pngFrames? : Bytes → Except String (Option FrameList)
  /-- The picture of data in a given form; of an animation the one that is shown without animating it. -/
  picture : Format → Bytes → Except String Raster
  resize : Raster → Nat → Nat → Raster
  encode : Raster → Except String Bytes
  resize_size (r : Raster) (width height : Nat) :
    (resize r width height).width = width ∧ (resize r width height).height = height

/-- The picture of data, whose form is found out. -/
def load [Library] (b : Bytes) : Except String Raster := do
  Library.picture (← Library.formatOf b) b

end Captioning.Image
