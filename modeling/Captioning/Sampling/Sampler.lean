import Captioning.Job.Fault
import Captioning.Job.Timed
import Captioning.Locate.Media
import Captioning.Sampling.Frame
import Captioning.Settings.Basic
/-!
# Samplers

A sampler takes frames from media. How many it takes, and how large they may be, is set for the whole run.
-/

namespace Captioning

/-- How many frames are sampled, and how large they may be. -/
structure SampleSettings where
  frameCount : Nat
  maxDimension : Nat
deriving Repr, DecidableEq

/-- What the settings say about sampling. -/
def Settings.sampling (s : Settings) : SampleSettings :=
  ⟨s.frameCount, s.maxFrameDimension⟩

/-- A way to sample frames from media. -/
structure Sampler where
  name : String
  sample : Media → SampleSettings → Timed (Except ItemFault FrameSet)

end Captioning
