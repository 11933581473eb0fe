import Captioning.Proofs.RunHistory
import Captioning.Run.Reporter
import Mathlib.Data.List.Range
import Mathlib.Data.List.Sort
/-!
# Progress is reported when it is due

While jobs are counted one after another, every observer is shown the same snapshots (`Reporter.completeAll_eq`). These
are taken at the multiples of the interval and at the last job that is scheduled (`completed_snapshots`), each with what
has been counted by then (`exists_of_mem_snapshots`). The reports that a run settles are counted and reported in the same
way (`Account.settleAll_eq`), whatever else happens in it (`RunState.History.account_eq`).
-/

namespace Captioning

/-! ## Counts -/

/-- Whether an item was gone. -/
def Outcome.isRemoved : Outcome → Bool
  | .removed => true
  | _ => false

/-- Whether a job failed. -/
def Outcome.isFailed : Outcome → Bool
  | .failed .. => true
  | _ => false

namespace Counters

/-- How many outcomes there are of each kind. -/
def ofOutcomes (os : List Outcome) : Counters :=
  ⟨os.countP (·.isSuccess), os.countP (·.isRemoved), os.countP (·.isFailed)⟩

theorem ofOutcomes_concat (os : List Outcome) (o : Outcome) : ofOutcomes (os ++ [o]) = (ofOutcomes os).tally o := by
  cases o <;> simp [ofOutcomes, tally, Outcome.isSuccess, Outcome.isRemoved, Outcome.isFailed]

/-- Every outcome is of one kind. -/
theorem completed_ofOutcomes (os : List Outcome) : (ofOutcomes os).completed = os.length := by
  induction os using List.reverseRecOn with
  | nil => rfl
  | append_singleton os o ih => rw [ofOutcomes_concat, completed_tally, ih, List.length_append, List.length_singleton]

end Counters

/-! ## Snapshots -/

section

variable {interval scheduled : Nat}

/-- What is shown while outcomes are counted, in front of which others have been counted. -/
def snapshots (interval scheduled : Nat) (front : List Outcome) : List (Outcome × Span) → List Snapshot
  | [] => []
  | (o, elapsed) :: more =>
    ((Progress.report? interval scheduled (.ofOutcomes (front ++ [o]))).map (⟨·, elapsed⟩)).toList
      ++ snapshots interval scheduled (front ++ [o]) more

/-- Every observer is shown the same. -/
theorem Reporter.completeAll_eq (r : Reporter) (front : List Outcome) (jobs : List (Outcome × Span)) :
    r.completeAll (.ofOutcomes front) jobs
      = ({ r with observers := r.observers.map fun o =>
            (snapshots r.interval r.scheduled front jobs).foldl Observer.shown o },
        .ofOutcomes (front ++ jobs.map Prod.fst)) := by
  induction jobs generalizing r front with
  | nil => simp [completeAll, snapshots]
  | cons job jobs ih =>
    obtain ⟨o, elapsed⟩ := job
    rw [completeAll, ← Counters.ofOutcomes_concat, complete_eq, ih]
    simp [snapshots, due?, List.foldl_append, Function.comp_def]

/-- When snapshots are taken: at the jobs at which progress is due. -/
theorem completed_snapshots (front : List Outcome) (jobs : List (Outcome × Span)) :
    (snapshots interval scheduled front jobs).map (·.counters.completed)
      = (List.range' (front.length + 1) jobs.length).filter (Progress.isDue interval scheduled) := by
  induction jobs generalizing front with
  | nil => rfl
  | cons job jobs ih =>
    obtain ⟨o, elapsed⟩ := job
    have hcompleted : (Counters.ofOutcomes (front ++ [o])).completed = front.length + 1 := by
      rw [Counters.completed_ofOutcomes, List.length_append, List.length_singleton]
    have hmore := ih (front ++ [o])
    rw [List.length_append, List.length_singleton] at hmore
    rw [snapshots, List.map_append, hmore, List.length_cons, List.range'_succ, List.filter_cons, Progress.report?,
      hcompleted]
    split <;> simp [hcompleted]

/-- What a snapshot shows: the counts of the outcomes up to the one behind which it was taken. -/
theorem exists_of_mem_snapshots {front : List Outcome} {jobs : List (Outcome × Span)} {s : Snapshot}
    (h : s ∈ snapshots interval scheduled front jobs) : ∃ before o behind, jobs = before ++ (o, s.elapsed) :: behind
      ∧ s.counters = .ofOutcomes (front ++ before.map Prod.fst ++ [o]) ∧ s.scheduled = scheduled := by
  induction jobs generalizing front with
  | nil => cases h
  | cons job jobs ih =>
    obtain ⟨o, elapsed⟩ := job
    rw [snapshots, List.mem_append] at h
    rcases h with h | h
    · obtain ⟨p, hp, rfl⟩ := Option.map_eq_some_iff.1 (Option.mem_toList.1 h)
      unfold Progress.report? at hp
      split at hp
      · obtain rfl := Option.some.inj hp
        exact ⟨[], o, jobs, rfl, by simp, rfl⟩
      · cases hp
    · obtain ⟨before, o', behind, rfl, hcounters, hscheduled⟩ := ih h
      exact ⟨(o, elapsed) :: before, o', behind, rfl, by simpa using hcounters, hscheduled⟩

/-! ## Reports of a run -/

/-- What a report counts as: a record that cannot be written makes it a failure. -/
def Report.counted (write : Option FileFault) (r : Report) : Outcome :=
  match write, r.outcome with
  | some cause, .success _ => .failed .output (.output cause)
  | _, o => o

namespace Account

/-- Settles reports one after another. With each comes what keeps its record from being written. -/
def settleAll (interval scheduled : Nat) (a : Account) (rs : List (Option FileFault × Report)) : Account :=
  rs.foldl (fun a r => a.settle interval scheduled r.1 r.2) a

theorem progress_settle (write : Option FileFault) (a : Account) (r : Report) :
    (a.settle interval scheduled write r).counters = a.counters.tally (r.counted write)
      ∧ (a.settle interval scheduled write r).progress
        = a.progress ++ (Progress.report? interval scheduled (a.counters.tally (r.counted write))).toList := by
  unfold settle Report.counted
  cases write <;> cases r.outcome <;> exact ⟨rfl, rfl⟩

/-- Reports that are settled are counted, and progress is reported, as it is shown to observers. -/
theorem settleAll_eq {a : Account} {front : List Outcome} (ha : a.counters = .ofOutcomes front)
    {rs : List (Option FileFault × Report)} {jobs : List (Outcome × Span)}
    (hjobs : rs.map (fun r => r.2.counted r.1) = jobs.map Prod.fst) :
    (a.settleAll interval scheduled rs).counters = .ofOutcomes (front ++ jobs.map Prod.fst)
      ∧ (a.settleAll interval scheduled rs).progress
        = a.progress ++ (snapshots interval scheduled front jobs).map (·.toProgress) := by
  induction rs generalizing a front jobs with
  | nil =>
    obtain rfl : jobs = [] := by simpa using hjobs.symm
    simp [settleAll, snapshots, ha]
  | cons r rs ih =>
    obtain ⟨write, r⟩ := r
    obtain ⟨⟨o, elapsed⟩, jobs, rfl⟩ := List.exists_cons_of_ne_nil (l := jobs) (by rintro rfl; cases hjobs)
    obtain ⟨rfl, hmore⟩ := List.cons.inj hjobs
    obtain ⟨hcounters, hprogress⟩ := @progress_settle interval scheduled write a r
    rw [ha, ← Counters.ofOutcomes_concat] at hcounters hprogress
    obtain ⟨ihcounters, ihprogress⟩ := ih hcounters hmore
    refine ⟨ihcounters.trans (by simp), ihprogress.trans ?_⟩
    rw [hprogress, snapshots, List.map_append, List.append_assoc]
    cases Progress.report? interval scheduled (.ofOutcomes (front ++ [r.counted write])) <;> rfl

end Account

/-- What is settled by an event: a report, and what keeps its record from being written. -/
def RunEvent.settled? : RunEvent → Option (Option FileFault × Report)
  | .settled r fault => some (fault.map Prod.fst, r)
  | _ => none

namespace RunState

variable {s₀ s s' : RunState}

theorem interval_take (s : RunState) : s.take.interval = s.interval := by
  unfold take
  split <;> rfl

theorem interval_launch? {i : Item} (h : s.launch? = some (i, s')) : s'.interval = s.interval := by
  unfold launch? at h
  split at h
  · cases h
  · split at h
    · obtain ⟨-, rfl⟩ := Prod.mk.inj (Option.some.inj h)
      exact interval_take _
    · cases h

/-- The account of a run changes by nothing but the reports that are settled. -/
theorem Step.account_eq {e : RunEvent} (h : Step s e s') : s'.interval = s.interval ∧ s'.scheduled = s.scheduled
    ∧ s'.account = s.account.settleAll s.interval s.scheduled e.settled?.toList := by
  cases h with
  | launch hl =>
    have h := launched_of_launch? hl
    exact ⟨interval_launch? hl, h.scheduled, h.account⟩
  | settle => exact ⟨rfl, rfl, rfl⟩
  | stop => exact ⟨rfl, rfl, rfl⟩

theorem History.account_eq {es : List RunEvent} (h : History s₀ es s) : s.interval = s₀.interval
    ∧ s.scheduled = s₀.scheduled
    ∧ s.account = s₀.account.settleAll s₀.interval s₀.scheduled (es.filterMap RunEvent.settled?) := by
  induction h with
  | start => exact ⟨rfl, rfl, rfl⟩
  | @step _ e _ _ _ hs ih =>
    obtain ⟨hinterval, hscheduled, haccount⟩ := ih
    obtain ⟨ninterval, nscheduled, naccount⟩ := hs.account_eq
    have hone : [e].filterMap RunEvent.settled? = e.settled?.toList := by cases h : e.settled? <;> simp [h]
    refine ⟨ninterval.trans hinterval, nscheduled.trans hscheduled, ?_⟩
    rw [naccount, haccount, hinterval, hscheduled, List.filterMap_append, hone]
    exact (List.foldl_append ..).symm

end RunState

/-! ## When progress is due -/

/-- Snapshots that are taken when they are due, while some outcomes are counted: in order, behind every job whose number
is a multiple of the interval, and behind the last one that is scheduled. Each shows how many of the first outcomes,
as many as have been completed by then, are of each kind. -/
structure TakenWhenDue (interval scheduled : Nat) (jobs : List (Outcome × Span)) (taken : List Snapshot) : Prop where
  increasing : (taken.map (·.counters.completed)).Pairwise (· < ·)
  due (k : Nat) : k ∈ taken.map (·.counters.completed)
    ↔ 1 ≤ k ∧ k ≤ jobs.length ∧ max interval 1 ∣ k ∨ k = scheduled ∧ jobs.length = scheduled
  shows (s : Snapshot) : s ∈ taken → ∃ before o behind, jobs = before ++ (o, s.elapsed) :: behind
    ∧ s.counters.completed = before.length + 1
    ∧ s.counters = .ofOutcomes ((jobs.take s.counters.completed).map Prod.fst) ∧ s.scheduled = scheduled

theorem takenWhenDue_snapshots {jobs : List (Outcome × Span)} (hs : 1 ≤ scheduled) (hn : jobs.length ≤ scheduled) :
    TakenWhenDue interval scheduled jobs (snapshots interval scheduled [] jobs) := by
  have hcompleted : (snapshots interval scheduled [] jobs).map (·.counters.completed)
      = (List.range' 1 jobs.length).filter (Progress.isDue interval scheduled) := completed_snapshots [] jobs
  constructor
  case increasing =>
    rw [hcompleted]
    exact (List.pairwise_lt_range').filter _
  case due =>
    intro k
    rw [hcompleted, List.mem_filter, List.mem_range'_1, Progress.isDue_iff]
    constructor
    · rintro ⟨hk, hdvd | rfl⟩
      · exact .inl ⟨by omega, by omega, hdvd⟩
      · exact .inr ⟨rfl, by omega⟩
    · rintro (⟨hlow, hhigh, hdvd⟩ | ⟨rfl, hall⟩)
      · exact ⟨by omega, .inl hdvd⟩
      · exact ⟨by omega, .inr rfl⟩
  case shows =>
    intro s hmem
    obtain ⟨before, o, behind, rfl, hcounters, hscheduled⟩ := exists_of_mem_snapshots hmem
    have hlength : s.counters.completed = before.length + 1 := by
      rw [hcounters, Counters.completed_ofOutcomes]
      simp
    refine ⟨before, o, behind, rfl, hlength, ?_, hscheduled⟩
    rw [hlength, hcounters]
    simp [List.take_append, List.take_of_length_le]

end

/-- Progress is reported when it is due, and to everybody. While no more jobs are completed than are scheduled, snapshots
are taken when they are due, and every observer is shown all of them and nothing else. A run in which reports are settled
that count as these outcomes has the same counts and reports the same progress. -/
theorem progress_shown (interval : Nat) {scheduled : Nat} (observers : List Observer) {jobs : List (Outcome × Span)}
    (hs : 1 ≤ scheduled) (hn : jobs.length ≤ scheduled) : ∃ taken : List Snapshot,
      TakenWhenDue interval scheduled jobs taken
      ∧ (Reporter.mk interval scheduled observers).completeAll .zero jobs
        = (⟨interval, scheduled, observers.map fun o => taken.foldl Observer.shown o⟩, .ofOutcomes (jobs.map Prod.fst))
      ∧ ∀ (workers : Nat) (queue : List Item) (stopped : Bool) (c : Catalog) (es : List RunEvent) (s : RunState),
        queue.length = scheduled → RunState.History (.start workers interval queue stopped c) es s →
        (es.filterMap RunEvent.settled?).map (fun r => r.2.counted r.1) = jobs.map Prod.fst →
        s.account.counters = .ofOutcomes (jobs.map Prod.fst) ∧ s.account.progress = taken.map (·.toProgress) := by
  refine ⟨snapshots interval scheduled [] jobs, takenWhenDue_snapshots hs hn, ?_,
    fun workers queue stopped c es s hq hes hjobs => ?_⟩
  · exact Reporter.completeAll_eq ⟨interval, scheduled, observers⟩ [] jobs
  · obtain ⟨-, -, haccount⟩ := hes.account_eq
    have hstart : (RunState.start workers interval queue stopped c).account = .start c := RunState.account_take _
    have hscheduled : (RunState.start workers interval queue stopped c).scheduled = scheduled :=
      (RunState.scheduled_take _).trans hq
    have hinterval : (RunState.start workers interval queue stopped c).interval = interval := RunState.interval_take _
    rw [haccount, hstart, hscheduled, hinterval]
    have hzero : (Account.start c).counters = .ofOutcomes [] := rfl
    exact Account.settleAll_eq hzero hjobs

namespace ThreeJobs

def record : Record where
  id := "a"
  url := "https://example.com/a.gif"
  attribution := none
  caption := ""
  description := ⟨"A cat falls.", "unknown", .one "", .one "", "", ["cat"]⟩
  describedAt := ⟨⟨2024, 1, 1⟩, 0, 0⟩

/-- A job of each kind. -/
def jobs : List (Outcome × Span) :=
  [(.success record, .ofMillis 5), (.failed .job (.aborted "no more"), .ofMillis 5), (.removed, .ofMillis 9)]

end ThreeJobs

/-- Of three jobs the third is both a multiple of the interval and the last one. It is reported once. -/
theorem progress_shown_once : 1 ≤ 3 ∧ ThreeJobs.jobs.length ≤ 3 ∧ ∃ taken, TakenWhenDue 3 3 ThreeJobs.jobs taken
    ∧ (Reporter.mk 3 3 [.log, .recorder]).completeAll .zero ThreeJobs.jobs
      = (⟨3, 3, [.log, .recorder].map fun o => taken.foldl Observer.shown o⟩, ⟨1, 1, 1⟩)
    ∧ taken.map (·.counters.completed) = [3] := by
  obtain ⟨taken, hdue, hshown, -⟩ :=
    @progress_shown 3 3 [.log, .recorder] ThreeJobs.jobs (by decide) (by decide)
  refine ⟨by decide, by decide, taken, hdue, hshown, ?_⟩
  refine hdue.increasing.eq_of_mem_iff (List.pairwise_singleton _ 3) fun k => (hdue.due k).trans ?_
  have hlength : ThreeJobs.jobs.length = 3 := rfl
  rw [List.mem_singleton, hlength, show max 3 1 = 3 from rfl]
  omega

end Captioning
