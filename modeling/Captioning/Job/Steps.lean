import Captioning.Job.Pipeline
import Captioning.Model.Client
import Captioning.Sampling.Sampler
import Captioning.Sampling.Table
/-!
# The steps of a description

To describe an item its media is located, frames are sampled from it, and the model is asked about them. Each
step uses up what the one before has left.
-/

namespace Captioning

/-- How the media of an item is looked for. -/
abbrev Locator := Item → Timed (Except ItemFault Located)

namespace Step

/-- Goes on from a changed context. -/
def goOn (c : JobContext) : JobContext × Except ItemFault Flow :=
  (c, .ok .next)

/-- Fails. -/
def fail (c : JobContext) (f : ItemFault) : JobContext × Except ItemFault Flow :=
  (c, .error f)

/-- Looks for the media of the item. -/
def locate (locator : Locator) : Step where
  name := "locate"
  stage := .locate
  apply := fun c => (locator c.item).andThen fun
    | .ok (.media m) => .value (goOn { c with media := some m })
    | .ok (.removed landing) => .value ({ c with removedLanding := some landing }, .ok .removed)
    | .error f => .value (fail c f)

/-- What is said when a sampler has found no frames. -/
def noFramesText (s : Sampler) (m : Media) : String :=
  s.name ++ " produced no frames from " ++ m.text

/-- Samples frames from the media, with the sampler for the format of the item. -/
def sample (table : SamplerTable Sampler) (settings : SampleSettings) : Step where
  name := "sample"
  stage := .sample
  apply := fun c =>
    match c.media with
    | none => .value (fail c (.sampling "no media was located"))
    | some m =>
      let c := { c with media := none }
      match table.get? c.item.format with
      | none => .value (fail c (.sampling ("no sampler registered for " ++ c.item.format.name)))
      | some s => (s.sample m settings).andThen fun
        | .error f => .value (fail c f)
        | .ok [] => .value (fail c (.sampling (noFramesText s m)))
        | .ok frames => .value (goOn { c with frames := some frames })

/-- Asks the model about the frames. -/
def describe (client : Client) : Step where
  name := "describe"
  stage := .describe
  apply := fun c =>
    match c.frames with
    | none => .value (fail c (.sampling "no frames were sampled"))
    | some frames =>
      let c := { c with frames := none }
      (client.describe frames).andThen fun
        | .ok d => .value (goOn { c with description := some d })
        | .error f => .value (fail c f)

end Step

/-- The steps that lead from an item to its description, with their times recorded. -/
def Pipeline.standard (locator : Locator) (table : SamplerTable Sampler) (settings : SampleSettings)
    (client : Client) : Pipeline :=
  [(Step.locate locator).recorded, (Step.sample table settings).recorded, (Step.describe client).recorded]

end Captioning
