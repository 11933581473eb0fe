import Captioning.Run.Progress
/-!
# Reporting to observers

A reporter hears of every completed job of a run. Each time progress is due it shows the progress, with the time that
has passed, to all of its observers. Every observer makes of it what he will; one of them writes it into a log.

Main statement: `complete_eq` (what is shown is shown to every observer, and to nobody if nothing is due).
-/

namespace Captioning

/-- Progress, and the time that has passed since the run began. -/
structure Snapshot extends Progress where
  elapsed : Span
deriving Repr, DecidableEq

/-- Somebody who is shown the progress of a run: what he remembers, and what a snapshot makes of it. -/
structure Observer where
  Memory : Type
  memory : Memory
  see : Snapshot → Memory → Memory

namespace Observer

/-- An observer who has been shown a snapshot. -/
def shown (o : Observer) (s : Snapshot) : Observer :=
  { o with memory := o.see s o.memory }

/-- Remembers all that he is shown. -/
def recorder : Observer :=
  ⟨List Snapshot, [], fun s seen => seen ++ [s]⟩

/-- Writes a line for everything that he is shown. -/
def log : Observer :=
  ⟨List String, [], fun s lines => lines ++ [s.line s.elapsed]⟩

end Observer

/-- Whoever reports the progress of a run. -/
structure Reporter where
  interval : Nat
  scheduled : Nat
  observers : List Observer

namespace Reporter

/-- What there is to show when a job has been completed and counted. -/
def due? (r : Reporter) (elapsed : Span) (c : Counters) : Option Snapshot :=
  (Progress.report? r.interval r.scheduled c).map (⟨·, elapsed⟩)

/-- Hears that a job has been completed, and counted. -/
def complete (r : Reporter) (elapsed : Span) (c : Counters) : Reporter :=
  match r.due? elapsed c with
  | none => r
  | some s => { r with observers := r.observers.map (·.shown s) }

/-- Counts the outcomes of some jobs one after another, and hears of each when it has been counted. They come with the
times that have passed by then. -/
def completeAll (r : Reporter) (c : Counters) : List (Outcome × Span) → Reporter × Counters
  | [] => (r, c)
  | (outcome, elapsed) :: more =>
    let c := c.tally outcome
    (r.complete elapsed c).completeAll c more

theorem complete_eq (r : Reporter) (elapsed : Span) (c : Counters) : r.complete elapsed c
    = { r with observers := r.observers.map fun o => (r.due? elapsed c).toList.foldl Observer.shown o } := by
  unfold complete
  cases r.due? elapsed c <;> simp

end Reporter

end Captioning
