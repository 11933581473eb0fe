import Captioning.Proofs.MarkedEntries
import Captioning.Proofs.StoredLines
/-!
# The order in which jobs end

When each job ends as it is told to (`RunEvent.Follows`), what a run comes to depends on the identities that it has
settled, and not on their order: counts, times and records are sums over them (`tallies`, `totals`, `recordsOf`). A run
that is never stopped settles all identities that were scheduled (`Completes.settled`). So two such runs come to the
same, and if the job of one identity ends in another way, only what that job adds is different (`completed_runs`).

The lines of the log are an exception. They are those of the records that were stored as long as each append that fails
leaves nothing, and never if one leaves some bytes (`Completes.rows_iff`): the next record goes behind them.
-/

namespace Captioning

open RunState (History)
open RunEvent (reportsIn storedIn attemptsIn Untorn)
open RecordLog (lineBytes rowsOf accepted endsMidLine)

/-! ## Endings -/

/-- How a job ends: what comes of it, the time it takes, and what keeps its record from being stored, if it brings one,
with the number of bytes that the log has taken all the same. -/
structure Ending where
  outcome : Outcome
  timings : Timings
  fault : Option (FileFault × Nat)

namespace Ending

/-- The record that is stored. -/
def record? (e : Ending) : Option Record :=
  match e.outcome, e.fault with
  | .success record, none => some record
  | _, _ => none

/-- What the job counts as: a record that is not stored makes it a failure. -/
def counted (e : Ending) : Outcome :=
  match e.outcome, e.fault with
  | .success _, some (f, _) => .failed .output (.output f)
  | o, _ => o

/-- What the job adds to the counts. -/
def tally (e : Ending) (t : Counters) : Counters :=
  t.tally e.counted

/-- What the job adds to the times of the stages: its own, if its record is stored. -/
def total (e : Ending) (u : StageTotals) : StageTotals :=
  if e.record?.isSome then u.add e.timings else u

/-- The same comes of two jobs, in whatever time. -/
structure Same (e e' : Ending) : Prop where
  outcome : e.outcome = e'.outcome
  stored : e.fault.isSome = e'.fault.isSome

theorem Same.record?_eq {e e' : Ending} (h : Same e e') : e.record? = e'.record? := by
  obtain ⟨o, t, f⟩ := e
  obtain ⟨o', t', f'⟩ := e'
  obtain ⟨rfl, hf⟩ := h
  cases o <;> cases f <;> cases f' <;> first | rfl | cases hf

theorem Same.tally_eq {e e' : Ending} (h : Same e e') (t : Counters) : e.tally t = e'.tally t := by
  obtain ⟨o, u, f⟩ := e
  obtain ⟨o', u', f'⟩ := e'
  obtain ⟨rfl, hf⟩ := h
  cases o <;> cases f <;> cases f' <;> first | rfl | cases hf

theorem Same.total_eq {e e' : Ending} (h : Same e e') (ht : e.timings = e'.timings) (u : StageTotals) :
    e.total u = e'.total u := by
  rw [total, total, h.record?_eq, ht]

theorem tally_comm (e e' : Ending) (t : Counters) : e.tally (e'.tally t) = e'.tally (e.tally t) := by
  unfold tally
  cases e.counted <;> cases e'.counted <;> rfl

theorem total_comm (e e' : Ending) (u : StageTotals) : e.total (e'.total u) = e'.total (e.total u) := by
  have hadd : ∀ t t' : Timings, (u.add t).add t' = (u.add t').add t := by
    intro t t'
    have hspan : ∀ a b d : Span, a + b + d = a + d + b := fun a b d => congrArg Span.mk (Nat.add_right_comm ..)
    simp only [StageTotals.add, hspan u.times.locate, hspan u.times.sample, hspan u.times.describe]
  unfold total
  split
  · split
    · exact hadd _ _
    · rfl
  · rfl

end Ending

/-! ## Sums over identities -/

section Sums

variable (ends : String → Ending)

/-- The counts of the jobs of some identities. -/
def tallies (ids : List String) : Counters :=
  ids.foldl (fun t id => (ends id).tally t) .zero

/-- The times of their stages. -/
def totals (ids : List String) : StageTotals :=
  ids.foldl (fun u id => (ends id).total u) .zero

/-- Their records, with the identities. -/
def recordsOf (ids : List String) : List (String × Record) :=
  ids.filterMap fun id => (ends id).record?.map (id, ·)

theorem tallies_concat (ids : List String) (id : String) :
    tallies ends (ids ++ [id]) = (ends id).tally (tallies ends ids) := by
  simp [tallies]

theorem totals_concat (ids : List String) (id : String) :
    totals ends (ids ++ [id]) = (ends id).total (totals ends ids) := by
  simp [totals]

theorem mem_recordsOf {ids : List String} {id : String} :
    id ∈ (recordsOf ends ids).map Prod.fst ↔ id ∈ ids ∧ (ends id).record?.isSome = true := by
  simp [recordsOf, Option.isSome_iff_exists]

variable {ends} {ends' : String → Ending} {ids ids' : List String}

theorem tallies_perm (h : ids.Perm ids') : tallies ends ids = tallies ends ids' :=
  h.foldl_eq' (fun _ _ _ _ t => Ending.tally_comm _ _ t) _

theorem totals_perm (h : ids.Perm ids') : totals ends ids = totals ends ids' :=
  h.foldl_eq' (fun _ _ _ _ u => Ending.total_comm _ _ u) _

theorem recordsOf_perm (h : ids.Perm ids') : (recordsOf ends ids).Perm (recordsOf ends ids') :=
  h.filterMap _

theorem tallies_congr (h : ∀ id ∈ ids, (ends id).Same (ends' id)) : tallies ends ids = tallies ends' ids :=
  List.foldl_ext _ _ _ fun t id hid => (h id hid).tally_eq t

theorem totals_congr (h : ∀ id ∈ ids, (ends id).Same (ends' id) ∧ (ends id).timings = (ends' id).timings) :
    totals ends ids = totals ends' ids :=
  List.foldl_ext _ _ _ fun u id hid => (h id hid).1.total_eq (h id hid).2 u

theorem recordsOf_congr (h : ∀ id ∈ ids, (ends id).Same (ends' id)) : recordsOf ends ids = recordsOf ends' ids :=
  List.filterMap_congr fun id hid => by rw [(h id hid).record?_eq]

/-- The records of all but one identity. -/
theorem filter_recordsOf (x : String) : (recordsOf ends ids).filter (fun r => r.1 != x)
    = recordsOf ends (ids.filter fun id => id != x) := by
  induction ids with
  | nil => rfl
  | cons id ids ih =>
    by_cases hx : id = x <;> cases hr : (ends id).record? <;> simp_all [recordsOf]

end Sums

/-! ## Runs in which jobs end as they are told to -/

/-- A job whose report is settled ends as it is told to. -/
def RunEvent.Follows (ends : String → Ending) : RunEvent → Prop
  | .settled r fault => ends r.id = ⟨r.outcome, r.timings, fault⟩
  | _ => True

section Follows

variable {ends : String → Ending}

theorem RunEvent.Follows.stored? {e : RunEvent} (h : e.Follows ends) :
    e.stored?.toList = recordsOf ends (e.report?.toList.map (·.id)) := by
  cases e with
  | launched i => rfl
  | stopped => rfl
  | settled r fault =>
    have h : ends r.id = ⟨r.outcome, r.timings, fault⟩ := h
    cases fault <;> cases ho : r.outcome <;> simp [recordsOf, RunEvent.stored?, RunEvent.report?, Ending.record?, h, ho]

/-- What is stored are the records of the identities that are settled. -/
theorem storedIn_eq_recordsOf {es : List RunEvent} (h : ∀ e ∈ es, e.Follows ends) :
    storedIn es = recordsOf ends ((reportsIn es).map (·.id)) := by
  induction es with
  | nil => rfl
  | cons e es ih =>
    have hmap : recordsOf ends ((reportsIn (e :: es)).map (·.id))
        = recordsOf ends (e.report?.toList.map (·.id)) ++ recordsOf ends ((reportsIn es).map (·.id)) := by
      rw [reportsIn, RunEvent.filterMap_cons_toList, List.map_append, recordsOf, List.filterMap_append]
      rfl
    rw [hmap, ← (h e List.mem_cons_self).stored?, ← ih fun e' he => h e' (List.mem_cons_of_mem e he), storedIn,
      RunEvent.filterMap_cons_toList]
    rfl

/-- To settle a report adds what its job comes to. -/
theorem Account.sums_settle (interval scheduled : Nat) (a : Account) (r : Report)
    (fault : Option (FileFault × Nat)) :
    (a.settle interval scheduled (fault.map Prod.fst) r).counters
        = (Ending.mk r.outcome r.timings fault).tally a.counters
      ∧ (a.settle interval scheduled (fault.map Prod.fst) r).stages
        = (Ending.mk r.outcome r.timings fault).total a.stages := by
  unfold settle
  cases r.outcome <;> cases fault <;> exact ⟨rfl, rfl⟩

namespace RunState

/-- A state counts, and adds up, what the jobs of some identities come to. -/
structure Sums (ends : String → Ending) (ids : List String) (s : RunState) : Prop where
  counters : s.account.counters = tallies ends ids
  stages : s.account.stages = totals ends ids

variable {s s' : RunState} {e : RunEvent} {ids : List String}

/-- A step adds what the job comes to whose report is settled, if one is. -/
theorem Sums.step (h : Sums ends ids s) (hs : Step s e s') (he : e.Follows ends) :
    Sums ends (ids ++ e.report?.toList.map (·.id)) s' := by
  cases hs with
  | launch hl =>
    have ha := (launched_of_launch? hl).account
    simp only [RunEvent.report?, Option.toList_none, List.map_nil, List.append_nil]
    exact ⟨by rw [ha, h.counters], by rw [ha, h.stages]⟩
  | stop =>
    simp only [RunEvent.report?, Option.toList_none, List.map_nil, List.append_nil]
    exact ⟨h.counters, h.stages⟩
  | @settle i r hi hr fault =>
    have he : ends r.id = ⟨r.outcome, r.timings, fault⟩ := he
    obtain ⟨hcounters, hstages⟩ := s.account.sums_settle s.interval s.scheduled r fault
    show Sums ends (ids ++ [r.id]) _
    exact ⟨by rw [tallies_concat, ← h.counters, he, ← hcounters]; rfl,
      by rw [totals_concat, ← h.stages, he, ← hstages]; rfl⟩

theorem History.sums {workers interval : Nat} {queue : List Item} {stopped : Bool} {c : Catalog} {es : List RunEvent}
    (h : History (.start workers interval queue stopped c) es s) (hes : ∀ e ∈ es, e.Follows ends) :
    Sums ends ((reportsIn es).map (·.id)) s := by
  induction h with
  | start => exact ⟨by simp [RunState.start, Account.start, reportsIn, tallies],
      by simp [RunState.start, Account.start, reportsIn, totals]⟩
  | @step es e s s' _ hs ih =>
    have hreports : (reportsIn (es ++ [e])).map (·.id) = (reportsIn es).map (·.id) ++ e.report?.toList.map (·.id) := by
      rw [RunEvent.reportsIn_append, List.map_append, reportsIn, reportsIn, RunEvent.filterMap_cons_toList]
      simp
    rw [hreports]
    exact (ih fun e' he => hes e' (List.mem_append_left _ he)).step hs
      (hes e (List.mem_append_right _ List.mem_cons_self))

end RunState

end Follows

/-! ## Runs that come to their end -/

namespace RunPlan

/-- A run of a plan that is never stopped has come to its end, and jobs have ended as they were told to. -/
structure Completes (p : RunPlan) (c : Catalog) (skip : SkipSet) (ends : String → Ending) (es : List RunEvent)
    (s : RunState) : Prop where
  history : History (p.start c skip false) es s
  workers : 0 < p.settings.workers
  unstopped : RunEvent.stopped ∉ es
  idle : s.running = []
  finished : s.launch? = none
  follows : ∀ e ∈ es, e.Follows ends

section Completes

variable {p p' : RunPlan} {c : Catalog} {skip : SkipSet} {ends ends' : String → Ending} {es es' : List RunEvent}
  {s s' : RunState}

/-- The identities that a plan schedules. -/
def ids (p : RunPlan) (c : Catalog) (skip : SkipSet) : List String :=
  (p.queue c skip).map (·.id)

theorem Completes.accounted (h : p.Completes c skip ends es s) : RunState.Accounted (p.queue c skip) c es s :=
  h.history.accounted (RunState.accounted_start _ _ _ _ c)

/-- All identities that were scheduled are settled. -/
theorem Completes.settled (h : p.Completes c skip ends es s) : (p.ids c skip).Perm ((reportsIn es).map (·.id)) :=
  h.accounted.settled_all (h.history.not_interrupted h.unstopped h.workers h.idle h.finished)

theorem Completes.counters (h : p.Completes c skip ends es s) : s.account.counters = tallies ends (p.ids c skip) := by
  rw [(h.history.sums h.follows).counters, tallies_perm h.settled]

theorem Completes.stages (h : p.Completes c skip ends es s) : s.account.stages = totals ends (p.ids c skip) := by
  rw [(h.history.sums h.follows).stages, totals_perm h.settled]

theorem Completes.stored (h : p.Completes c skip ends es s) :
    (storedIn es).Perm (recordsOf ends (p.ids c skip)) := by
  rw [storedIn_eq_recordsOf h.follows]
  exact recordsOf_perm h.settled.symm

theorem Completes.written (h : p.Completes c skip ends es s) :
    s.account.written.Perm ((recordsOf ends (p.ids c skip)).map Prod.snd) := by
  rw [h.accounted.written]
  exact h.stored.map _

theorem Completes.catalog (h : p.Completes c skip ends es s) :
    s.account.catalog = c.marks ((recordsOf ends (p.ids c skip)).map Prod.fst) := by
  rw [h.accounted.catalog]
  exact Catalog.marks_perm (h.stored.map _) c

/-- The lines of the records of some identities. -/
def linesOf (ends : String → Ending) (ids : List String) : List Bytes :=
  (recordsOf ends ids).map fun x => lineBytes x.2

/-- The rows of the log are those that it had and the lines of the records, exactly when no attempt to append one has
left a part of it. -/
theorem Completes.rows_iff (h : p.Completes c skip ends es s) {log : Bytes} (hlog : endsMidLine log = false) :
    (rowsOf (log ++ accepted (attemptsIn es))).Perm (rowsOf log ++ linesOf ends (p.ids c skip)) ↔ Untorn es := by
  have hlines : ((storedIn es).map fun x => lineBytes x.2).Perm (linesOf ends (p.ids c skip)) := h.stored.map _
  constructor
  · intro hperm
    rw [← length_flatten_rowsOf_iff es hlog, hperm.flatten.length_eq, hlines.flatten.length_eq, List.flatten_append,
      List.length_append]
  · intro hes
    rw [rowsOf_attemptsIn hes hlog]
    exact hlines.append_left _

/-- Two runs have come to the same: equal counts and flags, and the same records. If one of them has left no part of a
record in a log, the rows of the log are the same exactly when the other one has not either. -/
structure Agree (es es' : List RunEvent) (s s' : RunState) : Prop where
  counters : s.account.counters = s'.account.counters
  catalog : s.account.catalog = s'.account.catalog
  stored : (storedIn es).Perm (storedIn es')
  written : s.account.written.Perm s'.account.written
  rows_iff : Untorn es → ∀ log, endsMidLine log = false →
    ((rowsOf (log ++ accepted (attemptsIn es))).Perm (rowsOf (log ++ accepted (attemptsIn es'))) ↔ Untorn es')

/-- Two runs over a catalog differ by what the job of one identity comes to, `e` in one and `e'` in the other. -/
structure DifferBy (c : Catalog) (x : String) (e e' : Ending) (es es' : List RunEvent) (s s' : RunState) : Prop where
  /-- The records of other identities are the same, -/
  stored : ((storedIn es).filter fun r => r.1 != x).Perm ((storedIn es').filter fun r => r.1 != x)
  /-- and so are their items, with their flags. -/
  items : ∀ (n : Nat) i, c.items[n]? = some i → i.id ≠ x →
    s.account.catalog.items[n]? = s'.account.catalog.items[n]?
  /-- The counts are some that the others have, with what the one job counts as, -/
  counters : ∃ t, s.account.counters = e.tally t ∧ s'.account.counters = e'.tally t
  /-- and so for the times, -/
  stages : ∃ u, s.account.stages = e.total u ∧ s'.account.stages = e'.total u
  /-- and for the rows of a log, if one run has left no part of a record, exactly when the other one has not either. -/
  rows_iff : Untorn es → ∀ log, endsMidLine log = false →
    ((∃ rows, (rowsOf (log ++ accepted (attemptsIn es))).Perm (rows ++ e.record?.toList.map lineBytes)
      ∧ (rowsOf (log ++ accepted (attemptsIn es'))).Perm (rows ++ e'.record?.toList.map lineBytes)) ↔ Untorn es')

theorem ids_congr (hforce : p'.force = p.force) (hlimit : p'.limit = p.limit) (c : Catalog) (skip : SkipSet) :
    p'.ids c skip = p.ids c skip := by
  rw [ids, ids, queue, queue, hforce, hlimit]

theorem Completes.agree (h : p.Completes c skip ends es s) (h' : p'.Completes c skip ends' es' s')
    (hids : p'.ids c skip = p.ids c skip) (hsame : ∀ id ∈ p.ids c skip, (ends id).Same (ends' id)) :
    Agree es es' s s' := by
  have hrecords : recordsOf ends' (p'.ids c skip) = recordsOf ends (p.ids c skip) := by
    rw [hids, recordsOf_congr hsame]
  exact {
    counters := by rw [h.counters, h'.counters, hids, tallies_congr hsame]
    catalog := by rw [h.catalog, h'.catalog, hrecords]
    stored := h.stored.trans (hrecords ▸ h'.stored.symm)
    written := h.written.trans (hrecords ▸ h'.written.symm)
    rows_iff := fun hes log hlog => by
      have hrows := (h.rows_iff hlog).2 hes
      rw [linesOf, ← hrecords, ← linesOf] at hrows
      rw [← h'.rows_iff hlog]
      exact ⟨fun hperm => hperm.symm.trans hrows, fun hrows' => hrows.trans hrows'.symm⟩ }

/-- What is scheduled is any identity of it behind all others. -/
theorem perm_erase_concat {x : String} (hx : x ∈ p.ids c skip) :
    (p.ids c skip).Perm ((p.ids c skip).erase x ++ [x]) :=
  (List.perm_cons_erase hx).trans (List.perm_append_singleton x _).symm

theorem Completes.sums_of_mem (h : p.Completes c skip ends es s) {x : String} (hx : x ∈ p.ids c skip) :
    s.account.counters = (ends x).tally (tallies ends ((p.ids c skip).erase x))
      ∧ s.account.stages = (ends x).total (totals ends ((p.ids c skip).erase x)) := by
  have hperm := perm_erase_concat hx
  exact ⟨by rw [h.counters, tallies_perm hperm, tallies_concat], by rw [h.stages, totals_perm hperm, totals_concat]⟩

/-- The rows of the log are some that are there anyway and the line of the record that one job brings, exactly when no
attempt has left a part of a record. -/
theorem Completes.rows_iff_of_mem (h : p.Completes c skip ends es s) {x : String} (hx : x ∈ p.ids c skip) {log : Bytes}
    (hlog : endsMidLine log = false) : (rowsOf (log ++ accepted (attemptsIn es))).Perm
      (rowsOf log ++ linesOf ends ((p.ids c skip).erase x) ++ (ends x).record?.toList.map lineBytes) ↔ Untorn es := by
  have hlines : (linesOf ends (p.ids c skip)).Perm
      (linesOf ends ((p.ids c skip).erase x) ++ (ends x).record?.toList.map lineBytes) := by
    have hlast : (ends x).record?.toList.map lineBytes = linesOf ends [x] := by
      cases hr : (ends x).record? <;> simp [linesOf, recordsOf, hr]
    rw [hlast, linesOf, linesOf, linesOf, ← List.map_append, recordsOf, recordsOf, recordsOf, ← List.filterMap_append]
    exact (recordsOf_perm (perm_erase_concat hx)).map _
  rw [← h.rows_iff hlog, List.append_assoc]
  exact ⟨fun hperm => hperm.trans (hlines.symm.append_left _), fun hperm => hperm.trans (hlines.append_left _)⟩

theorem Completes.differBy (h : p.Completes c skip ends es s) (h' : p'.Completes c skip ends' es' s')
    (hids : p'.ids c skip = p.ids c skip) {x : String} (hx : x ∈ p.ids c skip)
    (hothers : ∀ id ∈ p.ids c skip, id ≠ x → (ends id).Same (ends' id) ∧ (ends id).timings = (ends' id).timings) :
    DifferBy c x (ends x) (ends' x) es es' s s' := by
  have hrest : ∀ id ∈ (p.ids c skip).erase x,
      (ends id).Same (ends' id) ∧ (ends id).timings = (ends' id).timings := by
    intro id hid
    obtain ⟨hne, hid⟩ := (p.nodup_queue c skip).mem_erase_iff.1 hid
    exact hothers id hid hne
  obtain ⟨hcounters, hstages⟩ := h.sums_of_mem hx
  obtain ⟨hcounters', hstages'⟩ := h'.sums_of_mem (hids ▸ hx)
  rw [hids, ← tallies_congr fun id hid => (hrest id hid).1] at hcounters'
  rw [hids, ← totals_congr hrest] at hstages'
  have hlines : linesOf ends' ((p'.ids c skip).erase x) = linesOf ends ((p.ids c skip).erase x) := by
    rw [linesOf, linesOf, hids, recordsOf_congr fun id hid => (hrest id hid).1]
  refine ⟨?_, fun n i hi hne => ?_, ⟨_, hcounters, hcounters'⟩, ⟨_, hstages, hstages'⟩, fun hes log hlog => ?_⟩
  · refine (h.stored.filter _).trans ((h'.stored.filter _).trans ?_).symm
    rw [hids, filter_recordsOf, filter_recordsOf]
    refine .of_eq (recordsOf_congr fun id hid => ?_).symm
    obtain ⟨hid, hne⟩ := List.mem_filter.1 hid
    exact (hothers id hid (by simpa using hne)).1
  · have hmem : i.id ∈ (recordsOf ends (p.ids c skip)).map Prod.fst
        ↔ i.id ∈ (recordsOf ends' (p.ids c skip)).map Prod.fst := by
      rw [mem_recordsOf, mem_recordsOf]
      refine and_congr_right fun hid => ?_
      rw [(hothers i.id hid hne).1.record?_eq]
    rw [h.catalog, h'.catalog, hids, Catalog.getElem?_marks, Catalog.getElem?_marks, hi]
    simp only [Option.map_some, hmem]
  · have hrows := (h.rows_iff_of_mem hx hlog).2 hes
    rw [← h'.rows_iff_of_mem (hids ▸ hx) hlog, hlines]
    constructor
    · rintro ⟨rows, hperm, hperm'⟩
      have hcommon := (List.perm_append_right_iff _).1 (hperm.symm.trans hrows)
      exact hperm'.trans (hcommon.append_right _)
    · exact fun hrows' => ⟨_, hrows, hrows'⟩

/-- Two completed runs over the same identities, with any numbers of workers and in any orders. Where the jobs come to
the same so do the runs, with equal times if the jobs take those. Where the jobs come to the same but for one identity,
the runs differ by that. Only the rows of the log depend on more: on what the appends that fail have left. -/
theorem completed_runs (h : p.Completes c skip ends es s) (h' : p'.Completes c skip ends' es' s')
    (hforce : p'.force = p.force) (hlimit : p'.limit = p.limit) :
    ((∀ id ∈ p.ids c skip, (ends id).Same (ends' id)) → Agree es es' s s'
      ∧ ((∀ id ∈ p.ids c skip, (ends id).timings = (ends' id).timings) → s.account.stages = s'.account.stages))
    ∧ ∀ x ∈ p.ids c skip,
      (∀ id ∈ p.ids c skip, id ≠ x → (ends id).Same (ends' id) ∧ (ends id).timings = (ends' id).timings) →
      DifferBy c x (ends x) (ends' x) es es' s s' := by
  have hids := ids_congr hforce hlimit c skip
  refine ⟨fun hsame => ⟨h.agree h' hids hsame, fun htimes => ?_⟩, fun x hx hothers => h.differBy h' hids hx hothers⟩
  rw [h.stages, h'.stages, hids, totals_congr fun id hid => ⟨hsame id hid, htimes id hid⟩]

end Completes

/-! ## Two jobs in two orders -/

namespace TwoJobs

/-- A source of two items. -/
def source : Catalog :=
  .source ⟨"clips", ⟨"clips", [⟨"a", "https://example.com/a.gif", none, none, some "a.gif", none, true, false, []⟩,
    ⟨"b", "https://example.com/b.gif", none, none, some "b.gif", none, true, false, []⟩], []⟩⟩

def plan : RunPlan := ⟨.default "", none, none, false⟩

/-- The run when both are worked on. -/
def running : RunState :=
  { plan.start source .empty false with held := none, waiting := [], running := source.items }

def record (id : String) : Record :=
  .ofItem (.new id (.remote "https://example.com/a.gif") .imageSequence)
    ⟨"A cat falls.", "unknown", .one "funny", .one "falling", "fail", ["cat"]⟩ ⟨⟨2024, 1, 1⟩, 0, 0⟩

/-- The first one is described, and `e` comes of the second one. -/
def ends (e : Ending) (id : String) : Ending :=
  if id = "a" then ⟨.success (record "a"), .zero, none⟩ else e

def removed : Ending := ⟨.removed, .zero, none⟩

def aborted : Ending := ⟨.failed .job (.aborted ""), .zero, none⟩

/-- The disk is full behind some bytes of its record. -/
def full (n : Nat) : Ending := ⟨.success (record "b"), .zero, some (.system 28, n)⟩

def success : Report := ⟨"a", .success (record "a"), .zero⟩

def other (e : Ending) : Report := ⟨"b", e.outcome, e.timings⟩

def launches : List RunEvent := source.items.map .launched

/-- What happens after the launches, as the jobs were launched and the other way round. -/
def forth (e : Ending) : List RunEvent := [.settled success none, .settled (other e) e.fault]

def back (e : Ending) : List RunEvent := [.settled (other e) e.fault, .settled success none]

/-- The states that this leads to. -/
def forthState (e : Ending) : RunState := (running.finish none success).finish (e.fault.map Prod.fst) (other e)

def backState (e : Ending) : RunState := (running.finish (e.fault.map Prod.fst) (other e)).finish none success

theorem history : History (plan.start source .empty false) launches running :=
  (History.start.step (.launch rfl)).step (.launch rfl)

theorem follows_ends (e : Ending) {es : List RunEvent}
    (h : ∀ v ∈ es, v = .settled success none ∨ v = .settled (other e) e.fault) :
    ∀ v ∈ launches ++ es, v.Follows (ends e) := by
  refine List.forall_mem_append.2 ⟨fun v hv => ?_, fun v hv => ?_⟩
  · obtain ⟨i, -, rfl⟩ := List.mem_map.1 hv
    trivial
  · rcases h v hv with rfl | rfl <;> rfl

theorem completes_forth (e : Ending) :
    plan.Completes source .empty (ends e) (launches ++ forth e) (forthState e) where
  history := (history.step (.settle List.mem_cons_self rfl none)).step (.settle List.mem_cons_self rfl e.fault)
  workers := by decide
  unstopped := by simp [launches, forth]
  idle := rfl
  finished := rfl
  follows := follows_ends e (by simp [forth])

theorem completes_back (e : Ending) :
    plan.Completes source .empty (ends e) (launches ++ back e) (backState e) where
  history := (history.step (.settle (List.mem_cons_of_mem _ List.mem_cons_self) rfl e.fault)).step
    (.settle List.mem_cons_self rfl none)
  workers := by decide
  unstopped := by simp [launches, back]
  idle := rfl
  finished := rfl
  follows := follows_ends e (by simp [back])

theorem untorn_forth : Untorn (launches ++ forth (full 0)) := by
  have hattempts : attemptsIn (launches ++ forth (full 0)) = [⟨record "a", none⟩, ⟨record "b", some 0⟩] := rfl
  rw [Untorn, hattempts]
  simp

theorem not_untorn_back : ¬ Untorn (launches ++ back (full 1)) := by
  have hattempts : attemptsIn (launches ++ back (full 1)) = [⟨record "b", some 1⟩, ⟨record "a", none⟩] := rfl
  rw [Untorn, hattempts]
  simp

end TwoJobs

open TwoJobs in
/-- The order of two jobs makes no difference if the record of the second one cannot be stored, except to the rows of the
log, if a byte of it was stored in one run and none in the other. If what comes of the second job is another failure, the
record of the first one stays. -/
theorem completed_runs_orders :
    Agree (launches ++ forth (full 0)) (launches ++ back (full 1)) (forthState (full 0)) (backState (full 1))
    ∧ ¬ (rowsOf ([] ++ accepted (attemptsIn (launches ++ forth (full 0))))).Perm
      (rowsOf ([] ++ accepted (attemptsIn (launches ++ back (full 1)))))
    ∧ DifferBy source "b" removed aborted (launches ++ forth removed) (launches ++ back aborted) (forthState removed)
      (backState aborted) := by
  have hids : plan.ids source .empty = ["a", "b"] := by decide
  have hsame : ∀ id ∈ plan.ids source .empty, (ends (full 0) id).Same (ends (full 1) id) := by
    intro id _
    unfold ends
    split <;> exact ⟨rfl, rfl⟩
  obtain ⟨hagree, -⟩ := (completed_runs (completes_forth (full 0)) (completes_back (full 1)) rfl rfl).1 hsame
  refine ⟨hagree, fun hrows => not_untorn_back ((hagree.rows_iff untorn_forth [] rfl).1 hrows), ?_⟩
  refine (completed_runs (completes_forth removed) (completes_back aborted) rfl rfl).2 "b" (by simp [hids])
    fun id hid hne => ?_
  obtain rfl : id = "a" := by simpa [hids, hne] using hid
  exact ⟨⟨rfl, rfl⟩, rfl⟩

end RunPlan

end Captioning
