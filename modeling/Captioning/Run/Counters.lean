import Captioning.Job.Pipeline
/-!
# Counting outcomes

How many jobs of a run have ended in which way, and how long the stages of the successful ones took.

Main statement: `completed_tally` (one more job is one more completed).
-/

namespace Captioning

/-- How many jobs have ended in which way. -/
structure Counters where
  succeeded : Nat
  removed : Nat
  failed : Nat
deriving Repr, DecidableEq

namespace Counters

/-- No jobs. -/
def zero : Counters := ⟨0, 0, 0⟩

/-- The number of jobs that have ended. -/
def completed (c : Counters) : Nat :=
  c.succeeded + c.removed + c.failed

/-- The counts of two runs together. -/
def add (c d : Counters) : Counters :=
  ⟨c.succeeded + d.succeeded, c.removed + d.removed, c.failed + d.failed⟩

/-- The counts with one more outcome. -/
def tally (c : Counters) : Outcome → Counters
  | .success _ => { c with succeeded := c.succeeded + 1 }
  | .removed => { c with removed := c.removed + 1 }
  | .failed .. => { c with failed := c.failed + 1 }

@[simp] theorem completed_tally (c : Counters) (o : Outcome) :
    (c.tally o).completed = c.completed + 1 := by
  cases o <;> simp only [tally, completed] <;> omega

end Counters

/-- The time that successful jobs spent in each stage, and their number. -/
structure StageTotals where
  times : Timings
  jobs : Nat
deriving Repr, DecidableEq

namespace StageTotals

/-- No jobs. -/
def zero : StageTotals := ⟨.zero, 0⟩

/-- The totals with one more job. -/
def add (s : StageTotals) (t : Timings) : StageTotals :=
  ⟨⟨s.times.locate + t.locate, s.times.sample + t.sample, s.times.describe + t.describe⟩, s.jobs + 1⟩

/-- The average of a total over the jobs, in whole nanoseconds; none for no jobs, or for more jobs than a
word of thirty-two bits counts. -/
def average (total : Span) (jobs : Nat) : Span :=
  if 0 < jobs && jobs < Nat.pow 2 32 then ⟨total.nanos / jobs⟩ else .zero

/-- The average times of the stages. -/
def averages (s : StageTotals) : Timings :=
  ⟨average s.times.locate s.jobs, average s.times.sample s.jobs, average s.times.describe s.jobs⟩

end StageTotals

end Captioning
