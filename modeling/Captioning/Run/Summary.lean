import Captioning.Run.Progress
/-!
# The account of a run

What is said when a run is over.
-/

namespace Captioning

/-- The account of a run over one catalog. -/
structure Summary where
  catalog : String
  /-- How many items were due. -/
  total : Nat
  /-- How many of them were left out because they had a record, or were there twice. -/
  skipped : Nat
  scheduled : Nat
  counters : Counters
  stages : StageTotals
  /-- The run was stopped before all that was scheduled was done. -/
  interrupted : Bool
deriving Repr, DecidableEq

namespace Summary

/-- The line about the counts of the run `runId`, which took the time `elapsed`. -/
def doneLine (s : Summary) (runId : String) (elapsed : Span) : String :=
  "Done " ++ s.catalog ++ " [" ++ runId ++ "]: success: " ++ toString s.counters.succeeded ++ ", removed: "
    ++ toString s.counters.removed ++ ", failed: " ++ toString s.counters.failed ++ " ("
    ++ toString s.skipped ++ " skipped, " ++ toString s.counters.completed ++ " of " ++ toString s.scheduled
    ++ " scheduled) in " ++ Decimal.fixedText 1 elapsed.seconds ++ "s, "
    ++ Decimal.fixedText 2 (Progress.rate s.counters.completed elapsed) ++ " items/s"

/-- The line about the average times of the stages. -/
def stagesLine (s : StageTotals) : String :=
  let a := s.averages
  "Average stage time: locate " ++ toString a.locate.millis ++ "ms, sample " ++ toString a.sample.millis
    ++ "ms, describe " ++ toString a.describe.millis ++ "ms"

/-- The lines that report a run. -/
def lines (s : Summary) (runId : String) (elapsed : Span) : List String :=
  s.doneLine runId elapsed :: if 0 < s.stages.jobs then [stagesLine s.stages] else []

end Summary

end Captioning
