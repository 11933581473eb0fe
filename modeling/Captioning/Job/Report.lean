import Captioning.Job.Pipeline
import Captioning.Text.Quoted
/-!
# Jobs

A job takes an item through a pipeline, within a deadline if there is one. It always ends with a report: a
missed deadline and a crash count as failures of the job as a whole.

Main statement: `id_ofJob` (a job reports about its own item).
-/

namespace Captioning

/-- What a job reports. -/
structure Report where
  id : String
  outcome : Outcome
  timings : Timings

namespace Report

/-- What is said about a crash of the job with a number. -/
def crashText (number : Nat) (message : String) : String :=
  "task " ++ toString number ++ " panicked with message " ++ Text.quoted message

/-- The report of a job that went to its end, or not. A job that misses its deadline has the times that it has recorded
until then, and one that crashes has none. -/
def ofResult (number : Nat) (item : Item) (pipeline : Pipeline) (deadline : Option Span) :
    Except String (Option (JobContext × Outcome)) → Report
  | .ok (some (c, outcome)) => ⟨item.id, outcome, c.timings⟩
  | .ok none =>
    let limit := deadline.getD .zero
    ⟨item.id, .failed .job (.jobTimeout limit), pipeline.timesBy limit.nanos (.new item)⟩
  | .error message => ⟨item.id, .failed .job (.aborted (crashText number message)), .zero⟩

/-- What happens in the job with a number, and its report. -/
def ofJob (now : Instant) (pipeline : Pipeline) (deadline : Option Span) (number : Nat) (item : Item) :
    List Event × Report :=
  let work := pipeline.process now (.new item)
  let bounded := match deadline with
    | some limit => work.within limit
    | none => ⟨work.events, work.result.map some⟩
  (bounded.events, ofResult number item pipeline deadline bounded.result)

theorem id_ofJob (now : Instant) (pipeline : Pipeline) (deadline : Option Span) (number : Nat)
    (item : Item) : (ofJob now pipeline deadline number item).2.id = item.id := by
  unfold ofJob ofResult
  dsimp only
  split <;> rfl

end Report

end Captioning
