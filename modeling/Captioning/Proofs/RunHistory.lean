import Captioning.Proofs.CatalogMarks
import Captioning.Run.Queue
import Captioning.Run.State
/-!
# The histories of a run

A run goes on by events: a job is launched, the report of one that is running is settled, or the run is
stopped. Jobs end in any order, with any outcome, and any record may fail to be stored; `RunState.History`
holds of every list of events that can happen. What the state accounts for is what has happened
(`History.accounted`), and each event adds to it what it should (`Step.progress`).
-/

namespace Captioning

/-- What happens in a run. -/
inductive RunEvent
  | launched (item : Item)
  /-- A report is settled. `fault` says what kept its record from being stored, if it was to be, and how many
  bytes of its line the log has taken all the same. -/
  | settled (report : Report) (fault : Option (FileFault × Nat))
  | stopped

namespace RunState

/-- What a state becomes by an event that can happen to it. -/
inductive Step (s : RunState) : RunEvent → RunState → Prop
  | launch {i : Item} {s' : RunState} (h : s.launch? = some (i, s')) : Step s (.launched i) s'
  | settle {i : Item} {r : Report} (hi : i ∈ s.running) (hr : r.id = i.id) (fault : Option (FileFault × Nat)) :
    Step s (.settled r fault) (s.finish (fault.map Prod.fst) r)
  | stop : Step s .stopped s.stop

/-- The events that can lead from one state to another, in the order of time. -/
inductive History (s₀ : RunState) : List RunEvent → RunState → Prop
  | start : History s₀ [] s₀
  | step {es : List RunEvent} {e : RunEvent} {s s' : RunState} (h : History s₀ es s) (hs : Step s e s') :
    History s₀ (es ++ [e]) s'

end RunState

namespace RunEvent

/-- The item that was launched. -/
def launched? : RunEvent → Option Item
  | .launched i => some i
  | _ => none

/-- The report that was settled. -/
def report? : RunEvent → Option Report
  | .settled r _ => some r
  | _ => none

/-- The record that was stored, and whose it is: that of a success whose append went well. -/
def stored? : RunEvent → Option (String × Record)
  | .settled r none => match r.outcome with
    | .success record => some (r.id, record)
    | _ => none
  | _ => none

/-- A record that was not stored has left nothing in the log. -/
def Clean : RunEvent → Prop
  | .settled _ (some (_, n)) => n = 0
  | _ => True

/-- The items that were launched, in order. -/
def launchedIn (es : List RunEvent) : List Item :=
  es.filterMap launched?

/-- The reports that were settled, in order. -/
def reportsIn (es : List RunEvent) : List Report :=
  es.filterMap report?

/-- The records that were stored, in order, with the identities of their jobs. -/
def storedIn (es : List RunEvent) : List (String × Record) :=
  es.filterMap stored?

@[simp] theorem launchedIn_append (es fs : List RunEvent) :
    launchedIn (es ++ fs) = launchedIn es ++ launchedIn fs := by simp [launchedIn]

@[simp] theorem reportsIn_append (es fs : List RunEvent) :
    reportsIn (es ++ fs) = reportsIn es ++ reportsIn fs := by simp [reportsIn]

@[simp] theorem storedIn_append (es fs : List RunEvent) :
    storedIn (es ++ fs) = storedIn es ++ storedIn fs := by simp [storedIn]

end RunEvent

open RunEvent (launchedIn reportsIn storedIn)

/-! ## What settling does -/

namespace Account

/-- What is stored when a report is settled: a record, with the identity of its job, or nothing. -/
def storedBy (write : Option FileFault) (r : Report) : List (String × Record) :=
  match write, r.outcome with
  | none, .success record => [(r.id, record)]
  | _, _ => []

/-- What settling a report does to an account. A report of a success whose record can be stored marks its
identity and counts as a success, and so does no other. -/
structure Settled (write : Option FileFault) (r : Report) (a b : Account) : Prop where
  catalog : b.catalog = a.catalog.marks ((storedBy write r).map Prod.fst)
  written : b.written = a.written ++ (storedBy write r).map Prod.snd
  succeeded : b.counters.succeeded = a.counters.succeeded + (storedBy write r).length
  jobs : b.stages.jobs = a.stages.jobs + (storedBy write r).length
  completed : b.counters.completed = a.counters.completed + 1
  /-- Progress is reported with the counts of the account after it. -/
  progress : ∃ new, b.progress = a.progress ++ new ∧ ∀ p ∈ new, p.counters = b.counters

theorem count_progress (interval scheduled : Nat) (a : Account) (o : Outcome) :
    ∃ new, (a.count interval scheduled o).progress = a.progress ++ new
      ∧ ∀ p ∈ new, p.counters = (a.count interval scheduled o).counters := by
  refine ⟨_, rfl, fun p hp => ?_⟩
  rw [Option.mem_toList, Progress.report?] at hp
  split at hp
  · obtain rfl := Option.some.inj hp
    rfl
  · cases hp

theorem settled_settle (interval scheduled : Nat) (write : Option FileFault) (a : Account) (r : Report) :
    Settled write r a (a.settle interval scheduled write r) := by
  unfold settle
  cases ho : r.outcome with
  | success record =>
    cases write with
    | none =>
      refine ⟨?_, ?_, ?_, ?_, ?_, count_progress interval scheduled _ _⟩ <;>
        simp [storedBy, ho, count, Catalog.marks, StageTotals.add, Counters.tally, Counters.completed]
      omega
    | some f =>
      refine ⟨?_, ?_, ?_, ?_, ?_, count_progress interval scheduled _ _⟩ <;>
        simp [storedBy, count, Counters.tally, Counters.completed]
      omega
  | removed =>
    refine ⟨?_, ?_, ?_, ?_, ?_, count_progress interval scheduled _ _⟩ <;>
      cases write <;> simp [storedBy, ho, count, Counters.tally, Counters.completed] <;> omega
  | failed stage fault =>
    refine ⟨?_, ?_, ?_, ?_, ?_, count_progress interval scheduled _ _⟩ <;>
      cases write <;> simp [storedBy, ho, count, Counters.tally, Counters.completed] <;> omega

end Account

namespace RunState

/-! ## One step -/

@[simp] theorem running_take (s : RunState) : s.take.running = s.running := by
  unfold take
  split <;> rfl

@[simp] theorem account_take (s : RunState) : s.take.account = s.account := by
  unfold take
  split <;> rfl

@[simp] theorem scheduled_take (s : RunState) : s.take.scheduled = s.scheduled := by
  unfold take
  split <;> rfl

/-- To take an item ahead of time changes nothing about what is still to come. -/
theorem ahead_take (s : RunState) : s.take.held.toList ++ s.take.waiting = s.held.toList ++ s.waiting := by
  unfold take
  split
  · next hh _ hw => simp [hh, hw]
  · rfl

/-- What launching a job does. -/
structure Launched (s : RunState) (i : Item) (s' : RunState) : Prop where
  held : s.held = some i
  free : s.running.length < s.workers
  running : s'.running = s.running ++ [i]
  account : s'.account = s.account
  scheduled : s'.scheduled = s.scheduled
  ahead : s'.held.toList ++ s'.waiting = s.waiting

theorem launched_of_launch? {s s' : RunState} {i : Item} (h : s.launch? = some (i, s')) : Launched s i s' := by
  unfold launch? at h
  cases hh : s.held with
  | none => simp [hh] at h
  | some j =>
    by_cases hw : s.running.length < s.workers
    · obtain ⟨rfl, rfl⟩ : j = i ∧ take { s with held := none, running := s.running ++ [j] } = s' := by
        simpa [hh, hw] using h
      exact ⟨hh, hw, by simp, by simp, by simp, by simp [ahead_take]⟩
    · simp [hh, hw] at h

/-- The jobs that run once a report is settled: one that reported is gone. -/
theorem perm_finish {s : RunState} {i : Item} {r : Report} (hi : i ∈ s.running) (hr : r.id = i.id)
    (write : Option FileFault) :
    (s.running.map (·.id)).Perm (r.id :: (s.finish write r).running.map (·.id)) := by
  have hp : (fun j : Item => j.id == r.id) i = true := by simp [hr]
  obtain ⟨k, front, behind, -, hk, he, hd⟩ := List.exists_of_eraseP (p := fun j => j.id == r.id) hi hp
  have hk : k.id = r.id := by simpa using hk
  have hf : (s.finish write r).running = front ++ behind := hd
  rw [he, hf, List.map_append, List.map_append, List.map_cons, hk]
  exact List.perm_middle

/-! ## All steps -/

/-- What a state accounts for: of the items of a queue, those that were launched are followed by those that
are still to come, and each of them is running or has been settled, once. -/
structure Accounted (queue : List Item) (c : Catalog) (es : List RunEvent) (s : RunState) : Prop where
  scheduled : s.scheduled = queue.length
  order : launchedIn es ++ (s.held.toList ++ s.waiting) = queue
  jobs : ((launchedIn es).map (·.id)).Perm ((reportsIn es).map (·.id) ++ s.running.map (·.id))
  running : ∀ i ∈ s.running, i ∈ launchedIn es
  stored : ((storedIn es).map Prod.fst).Sublist ((reportsIn es).map (·.id))
  written : s.account.written = (storedIn es).map Prod.snd
  succeeded : s.account.counters.succeeded = (storedIn es).length
  stages : s.account.stages.jobs = (storedIn es).length
  completed : s.account.counters.completed = (reportsIn es).length
  catalog : s.account.catalog = c.marks ((storedIn es).map Prod.fst)

theorem accounted_start (workers interval : Nat) (queue : List Item) (stopped : Bool) (c : Catalog) :
    Accounted queue c [] (start workers interval queue stopped c) where
  scheduled := by simp [start]
  order := by simp [start, ahead_take, launchedIn]
  jobs := by simp [start, launchedIn, reportsIn]
  running := by simp [start]
  stored := by simp [storedIn, reportsIn]
  written := by simp [start, Account.start, storedIn]
  succeeded := by simp [start, Account.start, Counters.zero, storedIn]
  stages := by simp [start, Account.start, StageTotals.zero, storedIn]
  completed := by simp [start, Account.start, Counters.zero, Counters.completed, reportsIn]
  catalog := by simp [start, Account.start, storedIn]

theorem storedIn_settled (r : Report) (fault : Option (FileFault × Nat)) :
    storedIn [.settled r fault] = Account.storedBy (fault.map Prod.fst) r := by
  cases fault with
  | none => cases h : r.outcome <;> simp [storedIn, RunEvent.stored?, Account.storedBy, h]
  | some f => simp [storedIn, RunEvent.stored?, Account.storedBy]

/-- What is stored when a report is settled is stored under its identity, if anything is. -/
theorem storedBy_sublist (write : Option FileFault) (r : Report) :
    ((Account.storedBy write r).map Prod.fst).Sublist [r.id] := by
  unfold Account.storedBy
  split <;> simp

section Steps

variable {queue : List Item} {c : Catalog} {es : List RunEvent} {s s' : RunState} {i : Item} {r : Report}

theorem Accounted.launch (h : Accounted queue c es s) (hl : Launched s i s') :
    Accounted queue c (es ++ [.launched i]) s' := by
  have hlaunched : launchedIn (es ++ [.launched i]) = launchedIn es ++ [i] := RunEvent.launchedIn_append es _
  have hreports : reportsIn (es ++ [.launched i]) = reportsIn es := by simp [reportsIn, RunEvent.report?]
  have hstored : storedIn (es ++ [.launched i]) = storedIn es := by simp [storedIn, RunEvent.stored?]
  constructor
  case scheduled => rw [hl.scheduled, h.scheduled]
  case order =>
    rw [hlaunched, hl.ahead, ← h.order, hl.held, List.append_assoc]
    rfl
  case jobs =>
    rw [hlaunched, hreports, hl.running, List.map_append, List.map_append, ← List.append_assoc]
    exact h.jobs.append_right _
  case running =>
    intro j hj
    rw [hl.running, List.mem_append] at hj
    rw [hlaunched]
    exact List.mem_append.2 (hj.imp_left (h.running j))
  case stored =>
    rw [hstored, hreports]
    exact h.stored
  case written => rw [hl.account, hstored, h.written]
  case succeeded => rw [hl.account, hstored, h.succeeded]
  case stages => rw [hl.account, hstored, h.stages]
  case completed => rw [hl.account, hreports, h.completed]
  case catalog => rw [hl.account, hstored, h.catalog]

theorem Accounted.settle (h : Accounted queue c es s) (hi : i ∈ s.running) (hr : r.id = i.id)
    (fault : Option (FileFault × Nat)) :
    Accounted queue c (es ++ [.settled r fault]) (s.finish (fault.map Prod.fst) r) := by
  have hset := Account.settled_settle s.interval s.scheduled (fault.map Prod.fst) s.account r
  have hlaunched : launchedIn (es ++ [.settled r fault]) = launchedIn es := by
    simp [launchedIn, RunEvent.launched?]
  have hreports : reportsIn (es ++ [.settled r fault]) = reportsIn es ++ [r] := RunEvent.reportsIn_append es _
  have hstored : storedIn (es ++ [.settled r fault])
      = storedIn es ++ Account.storedBy (fault.map Prod.fst) r := by
    rw [RunEvent.storedIn_append, storedIn_settled]
  constructor
  case scheduled => exact h.scheduled
  case order => rw [hlaunched]; exact h.order
  case jobs =>
    rw [hlaunched, hreports, List.map_append, List.append_assoc]
    exact h.jobs.trans ((perm_finish hi hr _).append_left _)
  case running =>
    intro j hj
    rw [hlaunched]
    exact h.running j (List.mem_of_mem_eraseP hj)
  case stored =>
    rw [hstored, hreports, List.map_append, List.map_append]
    exact h.stored.append (storedBy_sublist _ r)
  case written => rw [hstored, List.map_append, ← h.written]; exact hset.written
  case succeeded => rw [hstored, List.length_append, ← h.succeeded]; exact hset.succeeded
  case stages => rw [hstored, List.length_append, ← h.stages]; exact hset.jobs
  case completed => rw [hreports, List.length_append, ← h.completed]; exact hset.completed
  case catalog =>
    rw [hstored, List.map_append, Catalog.marks_append, ← h.catalog]
    exact hset.catalog

theorem Accounted.stop (h : Accounted queue c es s) : Accounted queue c (es ++ [.stopped]) s.stop := by
  have hlaunched : launchedIn (es ++ [.stopped]) = launchedIn es := by simp [launchedIn, RunEvent.launched?]
  have hreports : reportsIn (es ++ [.stopped]) = reportsIn es := by simp [reportsIn, RunEvent.report?]
  have hstored : storedIn (es ++ [.stopped]) = storedIn es := by simp [storedIn, RunEvent.stored?]
  exact {
    scheduled := h.scheduled
    order := by rw [hlaunched]; exact h.order
    jobs := by rw [hlaunched, hreports]; exact h.jobs
    running := by rw [hlaunched]; exact h.running
    stored := by rw [hstored, hreports]; exact h.stored
    written := by rw [hstored]; exact h.written
    succeeded := by rw [hstored]; exact h.succeeded
    stages := by rw [hstored]; exact h.stages
    completed := by rw [hreports]; exact h.completed
    catalog := by rw [hstored]; exact h.catalog }

/-- Every step keeps the account true. -/
theorem Accounted.step {e : RunEvent} (h : Accounted queue c es s) (hs : Step s e s') :
    Accounted queue c (es ++ [e]) s' := by
  cases hs with
  | launch hl => exact h.launch (launched_of_launch? hl)
  | settle hi hr fault => exact h.settle hi hr fault
  | stop => exact h.stop

end Steps

/-- Progress that is reported in a step shows the counts at its end. -/
theorem Step.progress {e : RunEvent} {s s' : RunState} (hs : Step s e s') :
    ∃ new, s'.account.progress = s.account.progress ++ new ∧ ∀ p ∈ new, p.counters = s'.account.counters := by
  cases hs with
  | launch hl =>
    refine ⟨[], ?_, fun p hp => absurd hp List.not_mem_nil⟩
    rw [(launched_of_launch? hl).account, List.append_nil]
  | settle hi hr fault => exact (Account.settled_settle s.interval s.scheduled _ s.account _).progress
  | stop => exact ⟨[], (List.append_nil _).symm, fun p hp => absurd hp List.not_mem_nil⟩

/-- Whatever happens in a run, its state accounts for it. -/
theorem History.accounted {queue : List Item} {c : Catalog} {s₀ s : RunState} {es : List RunEvent}
    (h : History s₀ es s) (h₀ : Accounted queue c [] s₀) : Accounted queue c es s := by
  induction h with
  | start => exact h₀
  | step _ hs ih => exact ih.step hs

end RunState

end Captioning
