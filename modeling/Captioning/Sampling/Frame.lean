import Captioning.Bytes.Utf8
/-!
# Frames

A frame is a still picture taken from an animation or clip, already encoded, with its size and where in the
media it was taken from. Frames are kept in the order of time.
-/

namespace Captioning

/-- Where a frame was taken from: its number in a sequence, or its moment in a stream. -/
inductive FrameOrigin
  | index (n : Nat)
  | moment (seconds : Float)
deriving Repr

/-- An encoded still picture. -/
structure Frame where
  data : Bytes
  width : Nat
  height : Nat
  origin : FrameOrigin
deriving Repr

/-- The frames of one item. -/
abbrev FrameSet := List Frame

/-- The form in which frames are encoded. -/
def Frame.mediaType : String := "image/png"

/-- The number of a frame, if it was taken from a sequence. -/
def FrameOrigin.index? : FrameOrigin → Option Nat
  | .index n => some n
  | .moment _ => none

/-- The numbers of the frames that were taken from a sequence. -/
def FrameSet.indices (frames : FrameSet) : List Nat :=
  frames.filterMap (·.origin.index?)

end Captioning
