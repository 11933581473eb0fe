import Captioning.Description
import Captioning.Item
import Captioning.Locate.Media
import Captioning.Sampling.Frame
import Captioning.Time.Span
/-!
# What a job works on

A job carries an item through stages. What a stage leaves for the next is put into the context, and a stage
that uses it takes it out again.
-/

namespace Captioning

/-- Where in a job something happens. `job` stands for the job as a whole. -/
inductive Stage
  | locate
  | sample
  | describe
  | job
  | output
deriving Repr, DecidableEq

/-- The name of a stage. -/
def Stage.name : Stage → String
  | .locate => "locate"
  | .sample => "sample"
  | .describe => "describe"
  | .job => "job"
  | .output => "output"

/-- The time that a job spent in each stage. -/
structure Timings where
  locate : Span
  sample : Span
  describe : Span
deriving Repr, DecidableEq

namespace Timings

/-- No time spent yet. -/
def zero : Timings := ⟨.zero, .zero, .zero⟩

/-- The time of a stage in place of what was there. Only the three stages of the work itself are timed. -/
def record (t : Timings) (stage : Stage) (length : Span) : Timings :=
  match stage with
  | .locate => { t with locate := length }
  | .sample => { t with sample := length }
  | .describe => { t with describe := length }
  | .job | .output => t

end Timings

/-- What has been found out about an item so far. -/
structure JobContext where
  item : Item
  media : Option Media
  frames : Option FrameSet
  description : Option Description
  /-- Where looking for media that was taken down led to. -/
  removedLanding : Option String
  timings : Timings

/-- The context of a job that begins. -/
def JobContext.new (item : Item) : JobContext :=
  ⟨item, none, none, none, none, .zero⟩

end Captioning
