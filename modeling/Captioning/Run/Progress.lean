import Captioning.Decimal.Layout
import Captioning.Run.Counters
/-!
# Reporting progress

Progress is reported after every so many completed jobs, and after the last of those that are scheduled.

Main statement: `isDue_iff` (when progress is reported).
-/

namespace Captioning

/-- How far a run has come. -/
structure Progress where
  counters : Counters
  scheduled : Nat
deriving Repr, DecidableEq

namespace Progress

/-- Jobs per second; none per second while no time has passed. -/
def rate (completed : Nat) (elapsed : Span) : Float :=
  let seconds := elapsed.seconds
  if 0.0 < seconds then Float.ofNat completed / seconds else 0.0

/-- What is counted, in a line. -/
def countsText (p : Progress) : String :=
  "Progress: " ++ toString p.counters.completed ++ "/" ++ toString p.scheduled ++ " | success: "
    ++ toString p.counters.succeeded ++ ", removed: " ++ toString p.counters.removed ++ ", failed: "
    ++ toString p.counters.failed

/-- The line that reports progress. -/
def line (p : Progress) (elapsed : Span) : String :=
  p.countsText ++ " | " ++ Decimal.fixedText 2 (rate p.counters.completed elapsed) ++ " items/s"

/-- Whether progress is reported after a number of completed jobs. An interval of zero counts as one. -/
def isDue (interval scheduled completed : Nat) : Bool :=
  completed % max interval 1 == 0 || completed == scheduled

/-- What is reported once some jobs are completed. -/
def report? (interval scheduled : Nat) (c : Counters) : Option Progress :=
  if isDue interval scheduled c.completed then some ⟨c, scheduled⟩ else none

theorem isDue_iff {interval scheduled completed : Nat} :
    isDue interval scheduled completed = true ↔ max interval 1 ∣ completed ∨ completed = scheduled := by
  simp [isDue, Nat.dvd_iff_mod_eq_zero]

end Progress

end Captioning
