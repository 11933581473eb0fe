import Captioning.Job.Step
import Captioning.Record
/-!
# A chain of steps

The steps of a job are taken in order up to the first that does not go on. What comes of the job is a
record, the news that the media was taken down, or a fault with the stage where it arose.
-/

namespace Captioning

/-- What comes of a job. -/
inductive Outcome
  | success (record : Record)
  | removed
  | failed (stage : Stage) (fault : ItemFault)

/-- Whether a job led to a record. -/
def Outcome.isSuccess : Outcome → Bool
  | .success _ => true
  | _ => false

/-- The steps of a job in order. -/
abbrev Pipeline := List Step

namespace Pipeline

/-- What comes of a job whose steps have all been taken, at the time `now`. -/
def conclude (now : Instant) (c : JobContext) : JobContext × Outcome :=
  match c.description with
  | some d => ({ c with description := none }, .success (.ofItem c.item d now))
  | none => (c, .failed .job (.aborted "pipeline finished without a description"))

/-- Takes steps in order. -/
def process (now : Instant) : Pipeline → JobContext → Timed (JobContext × Outcome)
  | [], c => .value (conclude now c)
  | s :: more, c => (s.apply c).andThen fun (d, r) =>
    match r with
    | .ok .next => process now more d
    | .ok .removed => .value (d, .removed)
    | .error f => .value (d, .failed s.stage f)

/-- The times that have been recorded when `limit` nanoseconds have passed: those of the steps that have ended by then.
A step that is cut off records none. -/
def timesBy (limit : Nat) : Pipeline → JobContext → Timings
  | [], c => c.timings
  | s :: more, c =>
    let x := s.apply c
    if Event.total x.events ≤ limit then
      match x.result with
      | .ok (d, .ok .next) => timesBy (limit - Event.total x.events) more d
      | .ok (d, _) => d.timings
      | .error _ => c.timings
    else c.timings

end Pipeline

end Captioning
