import Captioning.Proofs.CommandSessions
/-!
# Runs with a limit

Runs that resume the log of a table, each with the same limit, take the distinct identities of the table in the
order of their first occurrence: the queue of a run is what is left of them, up to the limit
(`LimitedRun.ids_queue`), and a run in which every job succeeds adds its queue to the log
(`LimitedRun.identities_after`). So after any number of runs the log holds the first identities of the table, each
once, and the next run says how many are left (`sweep_firsts`). Commands of the program are such runs
(`Sweep.describeCatalog`).
-/

namespace Captioning

open RunState (History)
open RunEvent (reportsIn storedIn)
open RecordLog (heldAt identities)

/-! ## The distinct identities of a table -/

theorem filter_eraseDups {α : Type} [BEq α] [LawfulBEq α] (p : α → Bool) (xs : List α) :
    (xs.filter p).eraseDups = xs.eraseDups.filter p := by
  induction hn : xs.length using Nat.strongRecOn generalizing xs with
  | ind n ih =>
    subst hn
    cases xs with
    | nil => rfl
    | cons a xs =>
      have hshort : (xs.filter fun b => !b == a).length < (a :: xs).length :=
        Nat.lt_succ_of_le (List.length_filter_le _ _)
      have ih := ih _ hshort _ rfl
      rw [List.eraseDups_cons, List.filter_cons, List.filter_cons]
      by_cases ha : p a = true
      · rw [if_pos ha, if_pos ha, List.eraseDups_cons, ← ih, List.filter_filter, List.filter_filter]
        simp only [Bool.and_comm]
      · rw [if_neg ha, if_neg ha, ← ih, List.filter_filter]
        refine congrArg _ (List.filter_congr fun b _ => ?_)
        -- what passes is not `a`, which does not
        by_cases hb : p b = true
        · have hne : (b == a) = false := by
            refine beq_eq_false_iff_ne.2 ?_
            rintro rfl
            exact ha hb
          rw [hb, hne]
          rfl
        · rw [Bool.not_eq_true] at hb
          rw [hb, Bool.false_and]

/-- What a queue without repetitions takes from some items: the first occurrences of what is not left out. -/
theorem Queue.ids_distinct (seen : SkipSet) (items : List Item) :
    (distinct seen items).map (·.id) = (items.map (·.id)).eraseDups.filter fun id => !seen.contains id := by
  rw [← filter_eraseDups]
  induction items generalizing seen with
  | nil => rfl
  | cons i items ih =>
    rw [distinct, List.map_cons, List.filter_cons]
    by_cases h : seen.contains i.id = true
    · rw [if_pos h, h, ih]
      rfl
    · rw [Bool.not_eq_true] at h
      rw [h, if_neg Bool.false_ne_true, List.map_cons, ih, Bool.not_false, if_pos rfl, List.eraseDups_cons,
        List.filter_filter]
      simp only [SkipSet.contains_insert, Bool.not_or]

namespace Table

/-- The distinct identities of a table, in the order of their first occurrence. -/
def firstIds (t : Table) : List String :=
  (t.items.map (·.id)).eraseDups

theorem nodup_firstIds (t : Table) : t.firstIds.Nodup := by
  have h := Queue.nodup_distinct .empty t.items
  rw [Queue.ids_distinct] at h
  simpa [firstIds] using h

theorem length_firstIds_le (t : Table) : t.firstIds.length ≤ t.items.length := by
  have h := ((Queue.distinct_sublist .empty t.items).map (·.id)).length_le
  rw [Queue.ids_distinct] at h
  simpa [firstIds] using h

/-- All items of a table that was read are due. -/
theorem pending_parse (name : String) (text : List Char) (relocations : List Relocation) :
    (Catalog.table (parse name text relocations).1).pending false = (parse name text relocations).1.items := by
  refine List.filter_eq_self.2 fun i hi => ?_
  obtain ⟨line, -, hl⟩ := List.mem_filterMap.1 (show i ∈ List.filterMap (parseLine? relocations) _ from hi)
  unfold parseLine? at hl
  dsimp only at hl
  split at hl
  · split at hl
    · cases hl
    · obtain rfl := Option.some.inj hl
      rfl
  · cases hl

end Table

/-! ## Runs in which everything succeeds -/

namespace RunEvent

/-- A report that is settled brings a record, and the record is stored. -/
def Succeeds (e : RunEvent) : Prop :=
  ∀ r fault, e = .settled r fault → fault = none ∧ ∃ record, r.outcome = .success record

theorem Succeeds.clean {e : RunEvent} (h : e.Succeeds) : e.Clean := by
  cases e with
  | settled r fault =>
    obtain ⟨rfl, -⟩ := h r fault rfl
    trivial
  | launched i => trivial
  | stopped => trivial

theorem Succeeds.ids {e : RunEvent} (h : e.Succeeds) :
    e.stored?.toList.map Prod.fst = e.report?.toList.map (·.id) := by
  cases e with
  | settled r fault =>
    obtain ⟨rfl, record, ho⟩ := h r fault rfl
    simp [stored?, report?, ho]
  | launched i => rfl
  | stopped => rfl

/-- Where everything succeeds, all that reports is stored. -/
theorem ids_storedIn {es : List RunEvent} (h : ∀ e ∈ es, e.Succeeds) :
    (storedIn es).map Prod.fst = (reportsIn es).map (·.id) := by
  induction es with
  | nil => rfl
  | cons e es ih =>
    rw [storedIn, reportsIn, filterMap_cons_toList, filterMap_cons_toList, List.map_append, List.map_append,
      (h e List.mem_cons_self).ids]
    exact congrArg _ (ih fun e' he => h e' (List.mem_cons_of_mem e he))

theorem succeeds_or (e : RunEvent) : e.Succeeds ∨ e.stored? = none ∧ ∃ r, e.report? = some r := by
  cases e with
  | settled r fault =>
    cases fault with
    | some f => exact .inr ⟨rfl, r, rfl⟩
    | none =>
      cases ho : r.outcome with
      | success record =>
        refine .inl fun r' fault' he => ?_
        obtain ⟨rfl, rfl⟩ := RunEvent.settled.inj he
        exact ⟨rfl, record, ho⟩
      | removed => exact .inr ⟨by simp [stored?, ho], r, rfl⟩
      | failed stage f => exact .inr ⟨by simp [stored?, ho], r, rfl⟩
  | launched i => exact .inl fun _ _ he => by cases he
  | stopped => exact .inl fun _ _ he => by cases he

theorem length_storedIn_le (es : List RunEvent) : (storedIn es).length ≤ (reportsIn es).length := by
  induction es with
  | nil => exact Nat.le_refl _
  | cons e es ih =>
    rw [storedIn, reportsIn, filterMap_cons_toList, filterMap_cons_toList, List.length_append, List.length_append]
    refine Nat.add_le_add ?_ ih
    rcases succeeds_or e with he | ⟨he, r, hr⟩
    · have hlen := congrArg List.length he.ids
      rw [List.length_map, List.length_map] at hlen
      exact Nat.le_of_eq hlen
    · rw [he]
      exact Nat.zero_le _

/-- Where as much is stored as reports, everything succeeds. -/
theorem succeeds_of_length {es : List RunEvent} (h : (reportsIn es).length ≤ (storedIn es).length) :
    ∀ e ∈ es, e.Succeeds := by
  induction es with
  | nil => exact fun e he => absurd he List.not_mem_nil
  | cons e es ih =>
    have hle := length_storedIn_le es
    rw [storedIn, reportsIn, filterMap_cons_toList, filterMap_cons_toList, List.length_append, List.length_append] at h
    rcases succeeds_or e with he | ⟨he, r, hr⟩
    · have hlen := congrArg List.length he.ids
      rw [List.length_map, List.length_map] at hlen
      refine List.forall_mem_cons.2 ⟨he, ih ?_⟩
      show (List.filterMap report? es).length ≤ (List.filterMap stored? es).length
      omega
    · rw [he, hr] at h
      have hle : (List.filterMap stored? es).length ≤ (List.filterMap report? es).length := hle
      simp only [Option.toList_none, Option.toList_some, List.length_nil, List.length_singleton] at h
      omega

end RunEvent

namespace RunState

@[simp] theorem stopped_take (s : RunState) : s.take.stopped = s.stopped := by
  unfold take
  split <;> rfl

/-- A run that is not stopped at some point has not been stopped before. -/
theorem History.unstopped {s₀ s : RunState} {es : List RunEvent} (h : History s₀ es s) (hs : s.stopped = false) :
    RunEvent.stopped ∉ es := by
  induction h with
  | start => exact List.not_mem_nil
  | @step es e s s' _ hstep ih =>
    have hkept : e ≠ .stopped ∧ s.stopped = false := by
      cases hstep with
      | launch hl =>
        unfold launch? at hl
        split at hl
        · cases hl
        · split at hl
          · obtain ⟨-, rfl⟩ := Prod.mk.inj (Option.some.inj hl)
            rw [stopped_take] at hs
            exact ⟨nofun, hs⟩
          · cases hl
      | settle hi hr fault => exact ⟨nofun, hs⟩
      | stop => cases hs
    intro hm
    rcases List.mem_append.1 hm with hm | hm
    · exact ih hkept.2 hm
    · exact hkept.1 (List.mem_singleton.1 hm).symm

end RunState

/-- A run that resumes the log of a table with a limit. It is not stopped, it comes to its end, and every job and every
append succeeds. -/
structure LimitedRun (t : Table) (limit : Nat) (log : Bytes) (p : RunPlan) (skip : SkipSet) (es : List RunEvent)
    (s : RunState) : Prop where
  limit : p.limit = some limit
  force : p.force = false
  workers : 0 < p.settings.workers
  goes : (Session.ofPlan p .extend es s).Goes (.table t) log skip
  unstopped : RunEvent.stopped ∉ es
  idle : s.running = []
  finished : s.launch? = none
  succeeds : ∀ e ∈ es, e.Succeeds

/-- Some number of such runs, one after another, beginning without a log, and the log that they leave. -/
inductive Sweep (t : Table) (limit : Nat) : Nat → Bytes → Prop
  | start : Sweep t limit 0 []
  | step {k : Nat} {log : Bytes} {p : RunPlan} {skip : SkipSet} {es : List RunEvent} {s : RunState}
    (h : Sweep t limit k log) (hr : LimitedRun t limit log p skip es s) :
    Sweep t limit (k + 1) ((Session.ofPlan p .extend es s).after log)

section
variable {t : Table} {limit : Nat} {log : Bytes} {p : RunPlan} {skip : SkipSet} {es : List RunEvent} {s : RunState}

theorem LimitedRun.contains_skip (h : LimitedRun t limit log p skip es s) (id : String) :
    skip.contains id = true ↔ id ∈ identities log := by
  have hc := h.goes.contains_skip id
  rwa [show Session.opened (Session.ofPlan p .extend es s).mode log = RecordLog.continued log from rfl,
    RecordLog.identities_continued] at hc

/-- What is due and has no record is what is left of the first identities, when the log holds `j` of them. -/
theorem LimitedRun.ids_distinct (h : LimitedRun t limit log p skip es s) {j : Nat}
    (hlog : (identities log).Perm (t.firstIds.take j)) :
    (Queue.distinct skip t.items).map (·.id) = t.firstIds.drop j := by
  have hleft : ∀ id, skip.contains id = true ↔ id ∈ t.firstIds.take j := fun id =>
    (h.contains_skip id).trans hlog.mem_iff
  have hdisjoint := List.disjoint_take_drop t.nodup_firstIds (Nat.le_refl j)
  have htaken : (t.firstIds.take j).filter (fun id => !skip.contains id) = [] := by
    refine List.filter_eq_nil_iff.2 fun id hid => ?_
    simp [(hleft id).2 hid]
  have hrest : (t.firstIds.drop j).filter (fun id => !skip.contains id) = t.firstIds.drop j := by
    refine List.filter_eq_self.2 fun id hid => ?_
    have hnot : ¬ skip.contains id = true := fun hc => hdisjoint ((hleft id).1 hc) hid
    simpa using hnot
  calc (Queue.distinct skip t.items).map (·.id)
      = t.firstIds.filter (fun id => !skip.contains id) := Queue.ids_distinct skip t.items
    _ = (t.firstIds.take j ++ t.firstIds.drop j).filter (fun id => !skip.contains id) := by
      rw [List.take_append_drop]
    _ = t.firstIds.drop j := by rw [List.filter_append, htaken, hrest, List.nil_append]

theorem LimitedRun.schedule_eq (h : LimitedRun t limit log p skip es s) (hlimit : 0 < limit)
    (hdue : (Catalog.table t).pending false = t.items) :
    Queue.schedule ((Catalog.table t).pending p.force) skip p.limit
      = ((Queue.distinct skip t.items).take limit, t.items.length - (Queue.distinct skip t.items).length) := by
  obtain ⟨n, rfl⟩ := Nat.exists_eq_succ_of_ne_zero (Nat.ne_of_gt hlimit)
  rw [h.force, h.limit, hdue]
  rfl

/-- The queue of a run is the next of the first identities, up to the limit. -/
theorem LimitedRun.ids_queue (h : LimitedRun t limit log p skip es s) (hlimit : 0 < limit)
    (hdue : (Catalog.table t).pending false = t.items) {j : Nat} (hlog : (identities log).Perm (t.firstIds.take j)) :
    (p.queue (.table t) skip).map (·.id) = (t.firstIds.drop j).take limit := by
  rw [RunPlan.queue, h.schedule_eq hlimit hdue, List.map_take, h.ids_distinct hlog]

/-- A run adds its queue to the log. -/
theorem LimitedRun.identities_after (h : LimitedRun t limit log p skip es s) (hlimit : 0 < limit)
    (hdue : (Catalog.table t).pending false = t.items) {j : Nat} (hlog : (identities log).Perm (t.firstIds.take j)) :
    (identities ((Session.ofPlan p .extend es s).after log)).Perm (t.firstIds.take (j + limit)) := by
  have hclean : (Session.ofPlan p .extend es s).Clean := ⟨rfl, fun e he => (h.succeeds e he).clean⟩
  have hopened : identities (Session.opened .extend log) = identities log := RecordLog.identities_continued log
  have hwhole := h.goes.history.not_interrupted h.unstopped h.workers h.idle h.finished
  have hstored : ((storedIn es).map Prod.fst).Perm ((t.firstIds.drop j).take limit) := by
    rw [RunEvent.ids_storedIn h.succeeds, ← h.ids_queue hlimit hdue hlog]
    exact (h.goes.accounted.settled_all hwhole).symm
  rw [h.goes.identities_clean hclean, List.take_add]
  refine List.Perm.append ?_ hstored
  rw [show (Session.ofPlan p .extend es s).mode = .extend from rfl, hopened]
  exact hlog

/-- A run reports as scheduled what it may take of what is left, and as skipped all other items. -/
theorem LimitedRun.summary (h : LimitedRun t limit log p skip es s) (hlimit : 0 < limit)
    (hdue : (Catalog.table t).pending false = t.items) {j : Nat} (hlog : (identities log).Perm (t.firstIds.take j))
    (now : Instant) (pipeline : Pipeline) (writes : Nat → Option FileFault) (stopped : Bool) :
    (p.run now pipeline (.table t) skip writes stopped).summary.scheduled
        = min limit (t.firstIds.length - min t.firstIds.length j)
      ∧ (p.run now pipeline (.table t) skip writes stopped).summary.skipped
        = t.items.length - t.firstIds.length + min t.firstIds.length j := by
  have hleft : (Queue.distinct skip t.items).length = t.firstIds.length - j := by
    rw [← List.length_map (·.id), h.ids_distinct hlog, List.length_drop]
  have hle := t.length_firstIds_le
  rw [RunPlan.summary_run]
  refine ⟨?_, ?_⟩
  · show (p.queue (.table t) skip).length = _
    rw [RunPlan.queue, h.schedule_eq hlimit hdue, List.length_take, hleft]
    omega
  · show (Queue.schedule ((Catalog.table t).pending p.force) skip p.limit).2 = _
    rw [h.schedule_eq hlimit hdue, hleft]
    omega

theorem Sweep.identities {k : Nat} (h : Sweep t limit k log) (hlimit : 0 < limit)
    (hdue : (Catalog.table t).pending false = t.items) :
    (RecordLog.identities log).Perm (t.firstIds.take (k * limit)) := by
  induction h with
  | start =>
    rw [Nat.zero_mul, List.take_zero]
    simp [RecordLog.identities, RecordLog.rowsOf]
  | step _ hr ih =>
    rw [Nat.succ_mul]
    exact hr.identities_after hlimit hdue ih

end

/-- After any number of runs that resume the log of a table with a limit, where nothing fails, the log holds the first
identities of the table, as many as the runs may take, each in one row; and the next run reports how many it takes of
those that are left, and all other items as skipped. -/
theorem sweep_firsts {name : String} {text : List Char} {relocations : List Relocation} {t : Table} {limit k : Nat}
    {log : Bytes} (ht : t = (Table.parse name text relocations).1) (hlimit : 0 < limit) (h : Sweep t limit k log) :
    (identities log).Nodup ∧ (identities log).Perm (t.firstIds.take (min t.firstIds.length (k * limit)))
      ∧ ∀ p skip es s, LimitedRun t limit log p skip es s → ∀ now pipeline writes stopped,
        (p.run now pipeline (.table t) skip writes stopped).summary.scheduled
            = min limit (t.firstIds.length - min t.firstIds.length (k * limit))
          ∧ (p.run now pipeline (.table t) skip writes stopped).summary.skipped
            = t.items.length - t.firstIds.length + min t.firstIds.length (k * limit) := by
  have hdue : (Catalog.table t).pending false = t.items := by
    subst ht
    exact Table.pending_parse name text relocations
  have hlog := h.identities hlimit hdue
  refine ⟨?_, ?_, fun p skip es s hr => hr.summary hlimit hdue hlog⟩
  · exact hlog.nodup_iff.2 (t.nodup_firstIds.sublist (List.take_sublist _ _))
  · rwa [Nat.min_comm, ← List.take_eq_take_min]

/-! ## Two runs over a table of three lines -/

namespace TwoRuns

/-- Two addresses, the first of them on two lines. -/
def text : List Char := "a\tfirst\nb\tsecond\na\tagain\n".toList

def table : Table := (Table.parse "clips" text []).1

/-- Each run takes one item. -/
def plan : RunPlan := ⟨.default "", none, some 1, false⟩

def item (id caption : String) : Item := { Item.new id (.local_ id) .imageSequence with caption := caption }

theorem items_table : table.items = [item "a" "first", item "b" "second", item "a" "again"] := by decide +kernel

def record (i : Item) : Record :=
  .ofItem i ⟨"A cat falls.", "unknown", .one "funny", .one "falling", "fail", ["cat"]⟩ ⟨⟨2024, 1, 1⟩, 0, 0⟩

def report (i : Item) : Report := ⟨i.id, .success (record i), .zero⟩

def events (i : Item) : List RunEvent := [.launched i, .settled (report i) none]

/-- The run while one item is worked on. -/
def running (i : Item) : RunState :=
  { RunState.start plan.settings.workers plan.settings.progressInterval [i] false (.table table) with
    held := none, running := [i] }

/-- A run whose queue is one item is one of a sweep. -/
theorem limitedRun {i : Item} {log : Bytes} {skip : SkipSet} (hread : Session.skipFor .extend log = .ok skip)
    (hqueue : (Queue.schedule ((Catalog.table table).pending false) skip (some 1)).1 = [i]) :
    LimitedRun table 1 log plan skip (events i) ((running i).finish none (report i)) where
  limit := rfl
  force := rfl
  workers := by decide
  goes := by
    have hq : (Session.ofPlan plan .extend (events i) ((running i).finish none (report i))).queue (.table table) skip
        = [i] := hqueue
    refine ⟨hread, ?_, ?_, fun x hx => nomatch hx⟩
    · rw [hq]
      have hi : i ∈ (running i).running := List.mem_singleton_self i
      exact (RunState.History.start.step (.launch rfl)).step (.settle hi rfl none)
    · simp [Session.ofPlan, events, RunEvent.Honest, RunEvent.report?, report, record, Record.ofItem]
  unstopped := by simp [events]
  idle := by simp [RunState.finish, running, report]
  finished := rfl
  succeeds := by
    intro e he r fault hs
    rcases List.mem_cons.1 he with rfl | he
    · cases hs
    · obtain rfl := List.mem_singleton.1 he
      obtain ⟨rfl, rfl⟩ := RunEvent.settled.inj hs
      exact ⟨rfl, record i, rfl⟩

theorem pending_table : (Catalog.table table).pending false = table.items := Table.pending_parse "clips" text []

theorem first : LimitedRun table 1 [] plan .empty (events (item "a" "first"))
    ((running (item "a" "first")).finish none (report (item "a" "first"))) := by
  refine limitedRun rfl ?_
  rw [pending_table, items_table]
  decide

/-- The log that the first run leaves. -/
def firstLog : Bytes :=
  (Session.ofPlan plan .extend (events (item "a" "first"))
    ((running (item "a" "first")).finish none (report (item "a" "first")))).after []

theorem exists_second : ∃ skip, LimitedRun table 1 firstLog plan skip (events (item "b" "second"))
    ((running (item "b" "second")).finish none (report (item "b" "second"))) := by
  have hclean : (Session.ofPlan plan .extend (events (item "a" "first"))
      ((running (item "a" "first")).finish none (report (item "a" "first")))).Clean :=
    ⟨rfl, fun e he => (first.succeeds e he).clean⟩
  have hids : identities firstLog = ["a"] := by
    rw [firstLog, first.goes.identities_clean hclean]
    rfl
  obtain ⟨ls, hls⟩ := (RecordLog.exists_scan_iff _).2 (first.goes.isText_clean hclean)
  have hls' : RecordLog.idsOf ls = ["a"] := (RecordLog.idsOf_scan hls).trans hids
  have hskip : ∀ id, (RecordLog.skipSetOf ls).contains id = true ↔ id = "a" := by
    intro id
    simp [RecordLog.skipSetOf, hls']
  have ha : (RecordLog.skipSetOf ls).contains "a" = true := (hskip "a").2 rfl
  have hb : (RecordLog.skipSetOf ls).contains "b" = false := by simpa using (hskip "b").not.2 (by decide)
  refine ⟨RecordLog.skipSetOf ls, limitedRun ?_ ?_⟩
  · rw [Session.skipFor, firstLog, hls]
    rfl
  · rw [pending_table, items_table]
    simp [Queue.schedule, Queue.limited, Queue.distinct, item, Item.new, ha, hb]

end TwoRuns

open TwoRuns in
/-- Two runs take the two identities, and a third one has nothing left: the other line of the first identity is skipped
like those that are described. -/
theorem two_runs_sweep : ∃ log, Sweep table 1 2 log ∧ (identities log).Perm ["a", "b"]
    ∧ ∀ p skip es s, LimitedRun table 1 log p skip es s → ∀ now pipeline writes stopped,
      (p.run now pipeline (.table table) skip writes stopped).summary.scheduled = 0
        ∧ (p.run now pipeline (.table table) skip writes stopped).summary.skipped = 3 := by
  obtain ⟨skip, hsecond⟩ := exists_second
  have hsweep := (Sweep.start.step first).step hsecond
  have hfirst : table.firstIds = ["a", "b"] := by
    rw [Table.firstIds, items_table]
    decide
  obtain ⟨-, hids, hnext⟩ := sweep_firsts (t := table) (k := 2) rfl Nat.one_pos hsweep
  rw [hfirst] at hids hnext
  rw [items_table] at hnext
  exact ⟨_, hsweep, hids, hnext⟩

/-! ## Commands -/

open Command (describeCatalog)

/-- A command that resumes the log of a table with a limit is one more run of a sweep, if it is not stopped and counts
as many successes as it has scheduled. -/
theorem Sweep.describeCatalog {z : Surroundings} {plan : FileTree → RunPlan} {t : Table} {output : String}
    {limit k : Nat} {p q : Progression} {r : RunResult} {log : Bytes} (h : Sweep t limit k log)
    (hl : heldAt p.files output = some log) (hd : describeCatalog z plan (.table t) output .extend p = (q, .ok r))
    (hkeeps : ∀ u, ∀ s ∈ (plan u).pipeline.getD [], s.KeepsItem)
    (hplan : ∀ u, (plan u).limit = some limit ∧ (plan u).force = false ∧ 0 < (plan u).settings.workers)
    (hstopped : r.stopped = false) (hsucceeds : r.summary.counters.succeeded = r.summary.scheduled) :
    ∃ u skip es s log', LimitedRun t limit log (plan u) skip es s
      ∧ r = (plan u).run z.now ((plan u).pipeline.getD []) (.table t) skip (fun _ => none) false
      ∧ Sweep t limit (k + 1) log' ∧ heldAt q.files output = some log' := by
  obtain ⟨u, v, skip, es, hrun, hgoes, hclean, hidle, hfinished, hafter, hsave⟩ :=
    Command.describeCatalog_ofPlan hd hl hkeeps
  obtain ⟨hlimit, hforce, hworkers⟩ := hplan u
  have hacc := hgoes.accounted
  have hreports := hacc.length_jobs
  have hlaunched := hacc.launched_ids.length_le
  rw [List.length_map, List.length_map] at hlaunched
  have hcount : (storedIn es).length = ((plan u).queue (.table t) skip).length := by
    rw [hrun] at hsucceeds
    exact hacc.succeeded.symm.trans hsucceeds
  have hlim : LimitedRun t limit log (plan u) skip es _ := {
    limit := hlimit
    force := hforce
    workers := hworkers
    goes := hgoes
    unstopped := hgoes.history.unstopped (by rw [hrun] at hstopped; exact hstopped)
    idle := hidle
    finished := hfinished
    succeeds := RunEvent.succeeds_of_length (by
      rw [hcount]
      exact Nat.le_trans (hreports ▸ Nat.le_add_right _ _) hlaunched) }
  refine ⟨u, skip, es, _, _, hlim, hrun, h.step hlim, ?_⟩
  -- the marks of a table are stored nowhere
  obtain ⟨t', ht⟩ := Catalog.exists_table_marks ((storedIn es).map Prod.fst) t
  have hcat : r.catalog = .table t' := by
    rw [hrun]
    exact hacc.catalog.trans ht
  rw [hcat] at hsave
  rw [← (Prod.mk.inj hsave).1]
  exact hafter

end Captioning
