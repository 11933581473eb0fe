import Captioning.Job.Context
import Captioning.Job.Fault
import Captioning.Job.Timed
/-!
# Steps

A step changes the context of a job, and says whether the job goes on, ends because the media was taken
down, or fails. A timed step also records how long it took, and is the same step otherwise.
-/

namespace Captioning

/-- How a job goes on behind a step. -/
inductive Flow
  | next
  | removed
deriving Repr, DecidableEq

/-- One step of a job. -/
structure Step where
  name : String
  stage : Stage
  apply : JobContext → Timed (JobContext × Except ItemFault Flow)

namespace Step

/-- The step with the time that it takes recorded. -/
def recorded (s : Step) : Step :=
  { s with
    apply := fun c =>
      let x := s.apply c
      ⟨x.events, x.result.map fun (d, r) => ({ d with timings := d.timings.record s.stage x.length }, r)⟩ }

end Step

end Captioning
