import Captioning.Sampling.Encode
import Captioning.Sampling.Plan
import Captioning.Sampling.Sampler
/-!
# Sampling animated pictures

The frames of an animation are gone through twice: once to count them, and once to take those that are
wanted, so that no more than one has to be kept at a time. A frame that cannot be decoded spoils the whole
animation, wanted or not. A still picture counts as one frame.

Main statement: `pick_nil` (going through stops when nothing more is wanted).
-/

namespace Captioning

namespace Animated

variable {ε α β : Type}

/-- The number of frames, unless one of them is a fault. -/
def count : List (Except ε α) → Except ε Nat
  | [] => .ok 0
  | .error f :: _ => .error f
  | .ok _ :: more => (count more).map (· + 1)

/-- Goes through frames from number `place` on and uses those whose numbers are wanted. -/
def pick (use : Nat → α → Except ε β) : List Nat → Nat → List (Except ε α) → Except ε (List β)
  | [], _, _ => .ok []
  | _ :: _, _, [] => .ok []
  | n :: wanted, place, x :: more => do
    let frame ← x
    if place == n then
      let y ← use place frame
      let ys ← pick use wanted (place + 1) more
      return y :: ys
    else pick use (n :: wanted) (place + 1) more

@[simp] theorem pick_nil (use : Nat → α → Except ε β) (place : Nat) (xs : List (Except ε α)) :
    pick use [] place xs = .ok [] := by
  cases xs <;> rfl

variable [Image.Library]

/-- The frames of an animation that are sampled. -/
def sample (settings : SampleSettings) (frames : List (Except ItemFault Image.Raster)) :
    Except ItemFault FrameSet := do
  let total ← count frames
  pick (fun n r => Frame.ofRaster settings.maxDimension (.index n) r)
    (sampleIndices total settings.frameCount) 0 frames

/-- What the library says of a fault, in the words of a sampler. -/
def inWords (what text : String) : ItemFault :=
  .sampling (what ++ ": " ++ text)

/-- What cannot be decoded as a frame of an animation. -/
def frameFault : String → ItemFault :=
  inWords "Frame decode failed"

/-- The frames of data in a form, if it is an animation. -/
def frames? (data : Bytes) : Image.Format → Except String (Option Image.FrameList)
  | .gif => (Image.Library.gifFrames data).map some
  | .webp => Image.Library.webpFrames? data
  | .png => Image.Library.pngFrames? data
  | _ => .ok none

/-- The frames of an animated or still picture that are sampled. -/
def sampleBytes (data : Bytes) (settings : SampleSettings) : Except ItemFault FrameSet := do
  let format ← (Image.Library.formatOf data).mapError (inWords "Unrecognised image data")
  let frames ← match ← (frames? data format).mapError frameFault with
    | some frames => sample settings (frames.map fun r => r.mapError frameFault)
    | none => do
      let r ← (Image.Library.picture format data).mapError (inWords "Image decode failed")
      return [← Frame.ofRaster settings.maxDimension (.index 0) r]
  if frames.isEmpty then throw (.sampling "Image contains no frames")
  return frames

end Animated

/-- Samples animated and still pictures. `t` holds the files. -/
def Sampler.animatedImage [Image.Library] (t : FileTree) : Sampler where
  name := "animated-image"
  sample := fun media settings => .value (match media.bytes t with
    | .ok data => Animated.sampleBytes data settings
    | .error f => .error (.sampling ("Failed to read media: " ++ f.message)))

end Captioning
