import Captioning.Run.Account
/-!
# The states of a run

A run admits items from its queue while it has free workers, and settles the report of each job that ends.
One item is always taken from the queue ahead of time and held until a worker is free. When a run is stopped,
no more items are taken; the one that is held is still worked on.

Main statement: `launch?_isSome_iff` (when another job is launched).
-/

namespace Captioning

/-- Where a run stands. -/
structure RunState where
  workers : Nat
  interval : Nat
  scheduled : Nat
  /-- The items that have not been taken from the queue. -/
  waiting : List Item
  /-- The item that begins when there is a free worker. -/
  held : Option Item
  /-- The items that are worked on. -/
  running : List Item
  stopped : Bool
  account : Account

namespace RunState

/-- Takes the next item from the queue, unless one is held already or the run is stopped. -/
def take (s : RunState) : RunState :=
  match s.held, s.stopped, s.waiting with
  | none, false, i :: more => { s with held := some i, waiting := more }
  | _, _, _ => s

/-- A run that begins. -/
def start (workers interval : Nat) (queue : List Item) (stopped : Bool) (catalog : Catalog) : RunState :=
  take {
    workers := workers
    interval := interval
    scheduled := queue.length
    waiting := queue
    held := none
    running := []
    stopped := stopped
    account := .start catalog }

/-- Begins the job of the item that is held, if there is one and a worker is free. -/
def launch? (s : RunState) : Option (Item × RunState) :=
  match s.held with
  | none => none
  | some i =>
    if s.running.length < s.workers then
      some (i, take { s with held := none, running := s.running ++ [i] })
    else none

/-- Settles the report of a job that has ended. -/
def finish (write : Option FileFault) (r : Report) (s : RunState) : RunState :=
  { s with
    running := s.running.eraseP fun i => i.id == r.id
    account := s.account.settle s.interval s.scheduled write r }

/-- Stops a run. -/
def stop (s : RunState) : RunState :=
  { s with stopped := true }

theorem launch?_isSome_iff (s : RunState) :
    s.launch?.isSome = true ↔ s.held.isSome = true ∧ s.running.length < s.workers := by
  unfold launch?
  cases s.held with
  | none => simp
  | some i => simp

end RunState

end Captioning
