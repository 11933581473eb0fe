import Captioning.Run.State
/-!
# A run in time

What happens in a run, moment by moment. Jobs take time only in their pauses; whatever else they do happens at
once. Of jobs that go on at the same moment, the one that began its pause first goes on first. When jobs have
ended, their reports are settled in that order, and then free workers begin other jobs.
-/

namespace Captioning

/-- A job under way: its item, what is still ahead of it, and the report at its end. -/
structure OpenJob where
  item : Item
  ahead : List Event
  report : Report

/-- A run at some moment. -/
structure Timeline where
  state : RunState
  /-- The jobs of the items that have not begun, in the order of the queue. -/
  planned : List OpenJob
  /-- The jobs that wait for the end of a pause, in the order in which the pauses began. -/
  pausing : List OpenJob
  /-- The jobs that go on at this moment. -/
  ready : List OpenJob
  /-- What has happened so far, with the identity that it happened to. -/
  history : List (String × Event)

namespace Timeline

/-- What a job does at one moment, and what is then ahead of it. -/
def now : List Event → List Event × List Event
  | [] => ([], [])
  | .pause s :: more =>
    if s.nanos == 0 then
      let (done, ahead) := now more
      (.pause s :: done, ahead)
    else ([], .pause s :: more)
  | e :: more =>
    let (done, ahead) := now more
    (e :: done, ahead)

/-- Lets one job go on to its next pause or its end. -/
def goOn (t : Timeline × List Report) (j : OpenJob) : Timeline × List Report :=
  let (t, ended) := t
  let (done, ahead) := now j.ahead
  let t := { t with
    history := t.history ++ done.map fun e => (j.item.id, e)
    state := if done.contains .stop then t.state.stop else t.state }
  if ahead.isEmpty then (t, ended ++ [j.report])
  else ({ t with pausing := t.pausing ++ [{ j with ahead := ahead }] }, ended)

/-- Settles a report. -/
def settle (writes : Nat → Option FileFault) (s : RunState) (r : Report) : RunState :=
  s.finish (writes s.account.attempts) r

/-- Begins jobs while there are free workers. Each job needs one of the planned ones. -/
def launch : Nat → Timeline → Timeline
  | 0, t => t
  | fuel + 1, t =>
    match t.state.launch?, t.planned with
    | some (_, s), j :: more => launch fuel { t with state := s, planned := more, ready := t.ready ++ [j] }
    | _, _ => t

/-- Lets all ready jobs go on, settles what has ended, and begins other jobs. -/
def moment (writes : Nat → Option FileFault) (t : Timeline) : Timeline :=
  let (t, ended) := t.ready.foldl goOn ({ t with ready := [] }, [])
  let t := { t with state := ended.foldl (settle writes) t.state }
  launch t.planned.length t

/-- The time that a job still pauses. -/
def OpenJob.rest (j : OpenJob) : Nat :=
  match j.ahead with
  | .pause s :: _ => s.nanos
  | _ => 0

/-- A job some time later. -/
def OpenJob.later (n : Nat) (j : OpenJob) : OpenJob :=
  match j.ahead with
  | .pause s :: more => { j with ahead := .pause ⟨s.nanos - n⟩ :: more }
  | _ => j

/-- The moment at which the next pause ends. -/
def wait (t : Timeline) : Timeline :=
  let n := ((t.pausing.map OpenJob.rest).min?).getD 0
  let jobs := t.pausing.map (OpenJob.later n)
  { t with
    ready := jobs.filter fun j => OpenJob.rest j == 0
    pausing := jobs.filter fun j => OpenJob.rest j != 0 }

/-- Goes on until there is nothing left to do. -/
def run (writes : Nat → Option FileFault) : Nat → Timeline → Timeline
  | 0, t => t
  | fuel + 1, t =>
    if t.ready.isEmpty then
      if t.pausing.isEmpty then t else run writes fuel t.wait
    else run writes fuel (t.moment writes)

/-- Enough steps for a run over some jobs: each step begins a job, or takes an event from one. -/
def stepBound (jobs : List OpenJob) : Nat :=
  jobs.foldr (fun j n => 2 * j.ahead.length + 2 + n) 1

/-- The whole run of some jobs from a state in which none of them has begun. -/
def complete (writes : Nat → Option FileFault) (s : RunState) (jobs : List OpenJob) : Timeline :=
  run writes (stepBound jobs) (launch jobs.length ⟨s, jobs, [], [], []⟩)

end Timeline

end Captioning
