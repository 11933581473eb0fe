import Captioning.Command.Fault
import Captioning.Job.Steps
import Captioning.Run.Queue
import Captioning.Run.Summary
import Captioning.Run.Timeline
import Captioning.Settings.Basic
/-!
# Runs

A run describes the items of a catalog that are due. It is set up with settings, a pipeline, a limit on the
number of items, and whether items that are described already are described again.

Main statement: `check_ok_iff` (which runs can be started).
-/

namespace Captioning

/-- What a run is to do. -/
structure RunPlan where
  settings : Settings
  pipeline : Option Pipeline
  limit : Option Nat
  force : Bool

/-- What has come of a run. -/
structure RunResult where
  summary : Summary
  catalog : Catalog
  written : List Record
  failures : List Failure
  progress : List Progress
  /-- What happened in the jobs, with the identities of their items. -/
  history : List (String × Event)
  stopped : Bool

namespace RunPlan

/-- A plan with a deadline for each job, in whole seconds and at least one, or with none. -/
def withDeadline (p : RunPlan) (limit : Option Span) : RunPlan :=
  { p with settings := { p.settings with
      jobTimeoutSeconds := limit.map fun s => max (s.nanos / 1000000000) 1 } }

/-- The pipeline of a plan that can be started. -/
def check (p : RunPlan) : Except SetupFault Pipeline :=
  match p.pipeline with
  | none => .error (.unsound "Pipeline not set")
  | some pipeline => match p.settings.fault? with
    | some reason => .error (.unsound reason)
    | none => .ok pipeline

/-- The jobs of some items, with their numbers. -/
def jobs (p : RunPlan) (now : Instant) (pipeline : Pipeline) (queue : List Item) : List OpenJob :=
  queue.zipIdx.map fun (i, n) =>
    let (events, report) := Report.ofJob now pipeline p.settings.jobTimeout n i
    ⟨i, events, report⟩

/-- Runs a plan over a catalog. `writes` says which attempts to write a record fail. -/
def run (p : RunPlan) (now : Instant) (pipeline : Pipeline) (catalog : Catalog) (skip : SkipSet)
    (writes : Nat → Option FileFault) (stopped : Bool) : RunResult :=
  let due := catalog.pending p.force
  let (queue, skipped) := Queue.schedule due skip p.limit
  let start := RunState.start p.settings.workers p.settings.progressInterval queue stopped catalog
  let t := Timeline.complete writes start (p.jobs now pipeline queue)
  let a := t.state.account
  {
    summary := {
      catalog := catalog.name
      total := due.length
      skipped := skipped
      scheduled := queue.length
      counters := a.counters
      stages := a.stages
      interrupted := a.counters.completed < queue.length }
    catalog := a.catalog
    written := a.written
    failures := a.failures
    progress := a.progress
    history := t.history
    stopped := t.state.stopped }

theorem check_ok_iff {p : RunPlan} {pipeline : Pipeline} :
    p.check = .ok pipeline ↔ p.pipeline = some pipeline ∧ p.settings.fault? = none := by
  unfold check
  cases p.pipeline with
  | none => simp
  | some q => cases h : p.settings.fault? <;> simp

end RunPlan

end Captioning
