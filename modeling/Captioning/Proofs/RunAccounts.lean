import Captioning.Proofs.RunTimeline
import Captioning.Run.Basic
/-!
# The account of a run

What the account of a run says at every point that any history of it can reach (`RunState.Sound`): successes are
the records that were stored, every report counts once, flags and progress come after the records. The run of a
plan is such a history, at its end everything that was launched has been counted, and it is interrupted exactly
when something that was scheduled was never launched (`RunPlan.run_accounts`).
-/

namespace Captioning

open RunState (History Step)
open RunEvent (launchedIn reportsIn storedIn)

/-! ## What is scheduled -/

theorem Queue.schedule_sublist (due : List Item) (skip : SkipSet) (limit : Option Nat) :
    (schedule due skip limit).1.Sublist (distinct skip due) := by
  unfold schedule limited
  dsimp only
  split
  · exact List.take_sublist _ _
  · exact List.Sublist.refl _

theorem Queue.nodup_schedule (due : List Item) (skip : SkipSet) (limit : Option Nat) :
    ((schedule due skip limit).1.map (·.id)).Nodup :=
  (nodup_distinct skip due).sublist ((schedule_sublist due skip limit).map _)

theorem Queue.mem_of_schedule {due : List Item} {skip : SkipSet} {limit : Option Nat} {i : Item}
    (h : i ∈ (schedule due skip limit).1) : i ∈ due :=
  (distinct_sublist skip due).subset ((schedule_sublist due skip limit).subset h)

/-! ## What the account says -/

namespace RunState

/-- What holds of a run over some items of a catalog, at whatever point of whatever history. -/
structure Sound (queue : List Item) (c : Catalog) (es : List RunEvent) (s : RunState) : Prop where
  /-- Successes are the records that were stored, -/
  succeeded : s.account.counters.succeeded = (storedIn es).length
  /-- and so are the jobs whose stages are timed, -/
  timed : s.account.stages.jobs = (storedIn es).length
  written : s.account.written = (storedIn es).map Prod.snd
  /-- All reports are counted, each once, -/
  completed : s.account.counters.completed = (reportsIn es).length
  once : ((reportsIn es).map (·.id)).Nodup
  /-- and they are of jobs that were launched, for items that were scheduled. -/
  reports_le : (reportsIn es).length ≤ (launchedIn es).length
  launched_le : (launchedIn es).length ≤ s.scheduled
  scheduled : s.scheduled = queue.length
  /-- An item that has become described is one whose record was stored, -/
  flagged : ∀ (n : Nat) j, s.account.catalog.items[n]? = some j → j.described = true →
    ∃ i, c.items[n]? = some i ∧ i.id = j.id ∧ (i.described = true ∨ j.id ∈ (storedIn es).map Prod.fst)
  /-- an item whose record was stored has become described, -/
  marked : ∀ id ∈ (storedIn es).map Prod.fst, ∃ j ∈ s.account.catalog.items, j.id = id ∧ j.described = true
  /-- and the item of any job under way can be marked. -/
  markable : ∀ i ∈ s.running, (s.account.catalog.mark? i.id).isSome = true
  /-- Progress that is shown in a step counts no more successes than there are records by then. -/
  shown : ∀ e s', Step s e s' → ∃ new, s'.account.progress = s.account.progress ++ new
    ∧ ∀ p ∈ new, p.counters.succeeded ≤ (storedIn (es ++ [e])).length
  /-- Once nothing runs, all that was launched is counted, and some is missing if some was never launched. -/
  ended : s.running = [] → s.account.counters.completed = (launchedIn es).length
    ∧ (s.account.counters.completed < s.scheduled ↔ ∃ i ∈ queue, i ∉ launchedIn es)

variable {workers interval : Nat} {queue : List Item} {stopped : Bool} {c : Catalog} {es : List RunEvent}
  {s : RunState}

theorem Accounted.length_jobs (h : Accounted queue c es s) :
    (launchedIn es).length = (reportsIn es).length + s.running.length := by
  have hl := h.jobs.length_eq
  rwa [List.length_append, List.length_map, List.length_map, List.length_map] at hl

theorem Accounted.launched_ids (h : Accounted queue c es s) :
    ((launchedIn es).map (·.id)).Sublist (queue.map (·.id)) := by
  rw [← h.order]
  exact (List.sublist_append_left _ _).map _

/-- Something of a queue without repetitions is still to come exactly when some item of it is not launched. -/
theorem Accounted.length_lt_iff (h : Accounted queue c es s) (hq : (queue.map (·.id)).Nodup) :
    (launchedIn es).length < queue.length ↔ ∃ i ∈ queue, i ∉ launchedIn es := by
  have hnodup : (launchedIn es ++ (s.held.toList ++ s.waiting)).Nodup := by
    rw [h.order]
    exact hq.of_map _
  rw [← h.order, List.length_append]
  constructor
  · intro hlt
    obtain ⟨i, hi⟩ := List.exists_mem_of_length_pos (by omega : 0 < (s.held.toList ++ s.waiting).length)
    exact ⟨i, List.mem_append_right _ hi, fun hl => List.disjoint_of_nodup_append hnodup hl hi⟩
  · rintro ⟨i, hi, hn⟩
    have := List.length_pos_of_mem ((List.mem_append.1 hi).resolve_left hn)
    omega

theorem Accounted.sound (h : Accounted queue c es s) (hq : (queue.map (·.id)).Nodup)
    (hc : ∀ i ∈ queue, i ∈ c.items) : Sound queue c es s := by
  have hlen := h.length_jobs
  have hid : ∀ i ∈ launchedIn es, i.id ∈ c.items.map (·.id) := by
    intro i hi
    refine List.mem_map_of_mem (hc i ?_)
    rw [← h.order]
    exact List.mem_append_left _ hi
  exact {
    succeeded := h.succeeded
    timed := h.stages
    written := h.written
    completed := h.completed
    once := by
      refine (h.jobs.nodup_iff.1 (hq.sublist h.launched_ids)).sublist ?_
      exact List.sublist_append_left _ _
    reports_le := by omega
    launched_le := by
      rw [h.scheduled, ← h.order, List.length_append]
      exact Nat.le_add_right _ _
    scheduled := h.scheduled
    flagged := by
      intro n j hj hd
      rw [h.catalog] at hj
      obtain ⟨i, hi, hij, hor⟩ := Catalog.described_of_marks hj hd
      exact ⟨i, hi, hij, hij ▸ hor⟩
    marked := by
      intro id hm
      rw [h.catalog]
      refine Catalog.described_of_mem_marks hm ?_
      have hm' : id ∈ (launchedIn es).map (·.id) :=
        h.jobs.mem_iff.2 (List.mem_append_left _ (h.stored.subset hm))
      obtain ⟨i, hi, rfl⟩ := List.mem_map.1 hm'
      exact hid i hi
    markable := by
      intro i hi
      rw [h.catalog]
      exact Catalog.mark?_marks_isSome (hid i (h.running i hi)) _
    shown := by
      intro e s' hs
      obtain ⟨new, hnew, hp⟩ := hs.progress
      refine ⟨new, hnew, fun p hm => ?_⟩
      have hcount := congrArg Counters.succeeded (hp p hm)
      exact Nat.le_of_eq (hcount.trans (h.step hs).succeeded)
    ended := by
      intro hr
      have hl : (launchedIn es).length = (reportsIn es).length := by
        rw [hlen, hr]
        rfl
      rw [h.completed, h.scheduled, ← hl]
      exact ⟨rfl, h.length_lt_iff hq⟩ }

/-! ## Runs that are not interrupted -/

/-- When as many reports are settled as items are scheduled, they are of all items. -/
theorem Accounted.settled_all {queue : List Item} {c : Catalog} {es : List RunEvent} {s : RunState}
    (h : Accounted queue c es s) (hw : ¬ s.account.counters.completed < s.scheduled) :
    (queue.map (·.id)).Perm ((reportsIn es).map (·.id)) := by
  have hlen := h.length_jobs
  have horder := congrArg List.length h.order
  rw [h.completed, h.scheduled] at hw
  rw [List.length_append] at horder
  have hrun : s.running = [] := List.eq_nil_of_length_eq_zero (by omega)
  have hahead : s.held.toList ++ s.waiting = [] := List.eq_nil_of_length_eq_zero (by omega)
  have hjobs := h.jobs
  rw [hrun, List.map_nil, List.append_nil] at hjobs
  rwa [← h.order, hahead, List.append_nil]

/-- A run that takes items from its queue as long as there are any. -/
structure Eager (workers : Nat) (s : RunState) : Prop where
  workers_eq : s.workers = workers
  stopped : s.stopped = false
  waiting : s.held = none → s.waiting = []

theorem eager_take {workers : Nat} {s : RunState} (hw : s.workers = workers) (hs : s.stopped = false) :
    Eager workers s.take := by
  unfold take
  split
  · exact ⟨hw, hs, fun h => by cases h⟩
  · next hno =>
    refine ⟨hw, hs, fun hh => ?_⟩
    cases hq : s.waiting with
    | nil => rfl
    | cons i more => exact absurd hq (hno i more hh hs)

theorem Eager.launch {workers : Nat} {s s' : RunState} {i : Item} (h : Eager workers s)
    (hl : s.launch? = some (i, s')) : Eager workers s' := by
  unfold launch? at hl
  split at hl
  · cases hl
  · split at hl
    · obtain ⟨-, rfl⟩ := Prod.mk.inj (Option.some.inj hl)
      exact eager_take h.workers_eq h.stopped
    · cases hl

/-- A run that is never stopped takes all of its queue. -/
theorem History.eager {workers interval : Nat} {queue : List Item} {c : Catalog} {es : List RunEvent} {s : RunState}
    (h : History (RunState.start workers interval queue false c) es s) (hes : RunEvent.stopped ∉ es) :
    Eager workers s := by
  induction h with
  | start => exact eager_take rfl rfl
  | step _ hs ih =>
    have ih := ih fun hm => hes (List.mem_append_left _ hm)
    cases hs with
    | launch hl => exact ih.launch hl
    | settle hi hr fault => exact ⟨ih.workers_eq, ih.stopped, ih.waiting⟩
    | stop => exact absurd (List.mem_append_right _ List.mem_cons_self) hes

/-- So when nothing runs and nothing can be launched, it has not been interrupted. -/
theorem History.not_interrupted {workers interval : Nat} {queue : List Item} {c : Catalog} {es : List RunEvent}
    {s : RunState} (h : History (RunState.start workers interval queue false c) es s) (hes : RunEvent.stopped ∉ es)
    (hw : 0 < workers) (hrun : s.running = []) (hl : s.launch? = none) :
    ¬ s.account.counters.completed < s.scheduled := by
  have hacc := h.accounted (accounted_start _ _ _ _ c)
  have heager := h.eager hes
  have hheld : s.held = none := by
    cases hh : s.held with
    | none => rfl
    | some i => simp [launch?, hh, hrun, heager.workers_eq, hw] at hl
  have hlen := hacc.length_jobs
  have horder := congrArg List.length hacc.order
  rw [hheld, heager.waiting hheld, Option.toList_none, List.append_nil, List.append_nil] at horder
  rw [hrun, List.length_nil] at hlen
  rw [hacc.completed, hacc.scheduled]
  omega

end RunState

/-! ## The run of a plan -/

namespace RunPlan

/-- What a plan schedules. -/
def queue (p : RunPlan) (c : Catalog) (skip : SkipSet) : List Item :=
  (Queue.schedule (c.pending p.force) skip p.limit).1

/-- The state in which the run of a plan begins. -/
def start (p : RunPlan) (c : Catalog) (skip : SkipSet) (stopped : Bool) : RunState :=
  .start p.settings.workers p.settings.progressInterval (p.queue c skip) stopped c

theorem item_jobs (p : RunPlan) (now : Instant) (pipeline : Pipeline) (queue : List Item) :
    (p.jobs now pipeline queue).map (·.item) = queue := by
  rw [jobs, List.map_map]
  exact List.zipIdx_map_fst 0 queue

theorem id_jobs {p : RunPlan} {now : Instant} {pipeline : Pipeline} {queue : List Item} {j : OpenJob}
    (h : j ∈ p.jobs now pipeline queue) : j.report.id = j.item.id := by
  obtain ⟨⟨i, n⟩, -, rfl⟩ := List.mem_map.1 h
  exact Report.id_ofJob now pipeline _ n i

theorem nodup_queue (p : RunPlan) (c : Catalog) (skip : SkipSet) : ((p.queue c skip).map (·.id)).Nodup :=
  Queue.nodup_schedule _ _ _

theorem mem_queue {p : RunPlan} {c : Catalog} {skip : SkipSet} {i : Item} (h : i ∈ p.queue c skip) :
    i ∈ c.pending p.force :=
  Queue.mem_of_schedule h

/-- The state in which the run of a plan ends. -/
def final (p : RunPlan) (now : Instant) (pipeline : Pipeline) (c : Catalog) (skip : SkipSet)
    (writes : Nat → Option FileFault) (stopped : Bool) : RunState :=
  (Timeline.complete writes (p.start c skip stopped) (p.jobs now pipeline (p.queue c skip))).state

section Run

variable (p : RunPlan) (now : Instant) (pipeline : Pipeline) (c : Catalog) (skip : SkipSet)
  (writes : Nat → Option FileFault) (stopped : Bool)

theorem written_run : (p.run now pipeline c skip writes stopped).written
    = (p.final now pipeline c skip writes stopped).account.written := rfl

theorem summary_run : (p.run now pipeline c skip writes stopped).summary = {
    catalog := c.name
    total := (c.pending p.force).length
    skipped := (Queue.schedule (c.pending p.force) skip p.limit).2
    scheduled := (p.queue c skip).length
    counters := (p.final now pipeline c skip writes stopped).account.counters
    stages := (p.final now pipeline c skip writes stopped).account.stages
    interrupted := (p.final now pipeline c skip writes stopped).account.counters.completed
      < (p.queue c skip).length } := rfl

/-- A run goes on along a history of its state, to an end at which nothing runs or can be launched. -/
theorem run_ends : ∃ es, History (p.start c skip stopped) es (p.final now pipeline c skip writes stopped)
    ∧ (∀ e ∈ es, e.Clean ∧ ∀ r ∈ e.report?, ∃ j ∈ p.jobs now pipeline (p.queue c skip), j.report = r)
    ∧ (p.final now pipeline c skip writes stopped).running = []
    ∧ (p.final now pipeline c skip writes stopped).launch? = none := by
  have hitems := item_jobs p now pipeline (p.queue c skip)
  have hids : ((p.jobs now pipeline (p.queue c skip)).map (·.item.id)).Nodup := by
    have hn := nodup_queue p c skip
    rwa [← hitems, List.map_map] at hn
  obtain ⟨es, hes, hR, hrun, hl⟩ := Timeline.complete_ends writes p.settings.workers p.settings.progressInterval
    stopped c (p.jobs now pipeline (p.queue c skip)) hids fun j => id_jobs
  rw [hitems] at hes hrun hl
  exact ⟨es, hes, fun e he => ⟨(hR e he).1, fun r hr => List.mem_map.1 ((hR e he).2 r hr)⟩, hrun, hl⟩

/-- At every point of every history of a run its account is sound. The run of the plan is such a history; at its
end all that was launched is counted, and it is interrupted exactly when something was never launched. -/
theorem run_accounts :
    (∀ es s, History (p.start c skip stopped) es s → RunState.Sound (p.queue c skip) c es s)
      ∧ ∃ es s, History (p.start c skip stopped) es s ∧ s.running = [] ∧ s.launch? = none
        ∧ (p.run now pipeline c skip writes stopped).summary.counters = s.account.counters
        ∧ (p.run now pipeline c skip writes stopped).summary.stages = s.account.stages
        ∧ (p.run now pipeline c skip writes stopped).catalog = s.account.catalog
        ∧ (p.run now pipeline c skip writes stopped).progress = s.account.progress
        ∧ (p.run now pipeline c skip writes stopped).summary.counters.completed = (launchedIn es).length
        ∧ ((p.run now pipeline c skip writes stopped).summary.interrupted = true
          ↔ ∃ i ∈ p.queue c skip, i ∉ launchedIn es) := by
  have hsound : ∀ es s, History (p.start c skip stopped) es s → RunState.Sound (p.queue c skip) c es s := by
    intro es s h
    refine (h.accounted (RunState.accounted_start _ _ _ stopped c)).sound (nodup_queue p c skip) fun i hi => ?_
    exact List.mem_of_mem_filter (mem_queue hi)
  obtain ⟨es, hes, -, hrun, hl⟩ := p.run_ends now pipeline c skip writes stopped
  obtain ⟨hcount, hiff⟩ := (hsound es _ hes).ended hrun
  rw [(hsound es _ hes).scheduled] at hiff
  refine ⟨hsound, es, _, hes, hrun, hl, rfl, rfl, rfl, rfl, hcount, ?_⟩
  rw [summary_run]
  exact decide_eq_true_iff.trans hiff

end Run

end RunPlan

end Captioning
