import Captioning.Catalog.Basic
import Captioning.Job.Report
import Captioning.Run.Progress
/-!
# Settling reports

The reports of a run are settled one by one, in the order in which the jobs end. A record is written before it
counts: the item is marked in the catalog, and counted as a success, only once its record is stored. A record
that cannot be stored makes the job a failure.
-/

namespace Captioning

/-- Why an item failed, and at which stage. -/
structure Failure where
  id : String
  stage : Stage
  fault : ItemFault

/-- What is reported about a failure. -/
def Failure.text (f : Failure) : String :=
  "Item " ++ f.id ++ " failed at " ++ f.stage.name ++ ": " ++ f.fault.message

/-- What has come of a run so far. Lists are in the order of time. -/
structure Account where
  catalog : Catalog
  counters : Counters
  stages : StageTotals
  /-- How often a record was to be written. -/
  attempts : Nat
  /-- The records that have been written. -/
  written : List Record
  failures : List Failure
  progress : List Progress

namespace Account

/-- The account of a run that begins. -/
def start (catalog : Catalog) : Account :=
  ⟨catalog, .zero, .zero, 0, [], [], []⟩

/-- The account with an outcome counted, and progress reported when it is due. -/
def count (interval scheduled : Nat) (a : Account) (o : Outcome) : Account :=
  let counters := a.counters.tally o
  { a with
    counters := counters
    progress := a.progress ++ (Progress.report? interval scheduled counters).toList }

/-- Settles a report. `write` says what would stop a record from being written now. -/
def settle (interval scheduled : Nat) (write : Option FileFault) (a : Account) (r : Report) : Account :=
  match r.outcome with
  | .success record =>
    let a := { a with attempts := a.attempts + 1 }
    match write with
    | none =>
      let a := { a with
        catalog := a.catalog.mark r.id
        stages := a.stages.add r.timings
        written := a.written ++ [record] }
      a.count interval scheduled (.success record)
    | some cause =>
      let a := { a with failures := a.failures ++ [(⟨r.id, .output, .output cause⟩ : Failure)] }
      a.count interval scheduled (.failed .output (.output cause))
  | .removed => a.count interval scheduled .removed
  | .failed stage fault =>
    let a := { a with failures := a.failures ++ [(⟨r.id, stage, fault⟩ : Failure)] }
    a.count interval scheduled (.failed stage fault)

/-! ## Small facts -/

@[simp] theorem counters_count (interval scheduled : Nat) (a : Account) (o : Outcome) :
    (a.count interval scheduled o).counters = a.counters.tally o := rfl

@[simp] theorem written_count (interval scheduled : Nat) (a : Account) (o : Outcome) :
    (a.count interval scheduled o).written = a.written := rfl

@[simp] theorem stages_count (interval scheduled : Nat) (a : Account) (o : Outcome) :
    (a.count interval scheduled o).stages = a.stages := rfl

end Account

end Captioning
