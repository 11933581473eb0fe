import Captioning.Proofs.Sessions
/-!
# Logs that are resumed

A table is described in sessions that resume one log, each with its own limit and workers, stopped at any point or
ended by a crash. However they go, the log holds no identity twice (`ResumedAll.nodup`). Let the outcome depend on the
identity alone, and let what fails to be appended fall short of a line. Then no session brings more than the identities
that are due and come out well (`ResumedAll.bounds`), and a whole session at the end brings all of them exactly when the
line of each record that it stores starts a row (`Resumed.whole_iff`). An append that fails half way takes that from the
next record, so whether sessions come to the same as a single one depends on the order of their jobs (`resumed_log`,
`resumed_log_orders`).
-/

namespace Captioning

open RunState (History)
open RunEvent (launchedIn reportsIn storedIn)
open RecordLog (identities scan)

/-! ## Outcomes that depend on the identity -/

/-- Whether a report that is settled leads to a stored record depends on its identity alone. -/
def RunEvent.Obeys (ok : String → Bool) (e : RunEvent) : Prop :=
  ∀ r ∈ e.report?, e.stored?.isSome = ok r.id

theorem RunEvent.mem_storedIn_iff {ok : String → Bool} {es : List RunEvent} (h : ∀ e ∈ es, e.Obeys ok)
    (id : String) : id ∈ (storedIn es).map Prod.fst ↔ id ∈ (reportsIn es).map (·.id) ∧ ok id = true := by
  constructor
  · intro hid
    obtain ⟨x, hx, rfl⟩ := List.mem_map.1 hid
    obtain ⟨e, he, hs⟩ := List.mem_filterMap.1 hx
    obtain ⟨r, hr, hid, -⟩ := report_of_stored? hs
    have hok := h e he r hr
    rw [hs, hid] at hok
    exact ⟨hid ▸ List.mem_map_of_mem (List.mem_filterMap.2 ⟨e, he, hr⟩), hok.symm⟩
  · rintro ⟨hid, hok⟩
    obtain ⟨r, hr, rfl⟩ := List.mem_map.1 hid
    obtain ⟨e, he, hr⟩ := List.mem_filterMap.1 hr
    obtain ⟨x, hx⟩ := Option.isSome_iff_exists.1 ((h e he r hr).trans hok)
    obtain ⟨r', hr', hid, -⟩ := report_of_stored? hx
    obtain rfl : r = r' := Option.some.inj (hr.symm.trans hr')
    rw [hid]
    exact List.mem_map_of_mem (List.mem_filterMap.2 ⟨e, he, hx⟩)

/-! ## Sessions that resume -/

/-- What a session of a table makes of the log that it resumes: one that cannot be read is left as it is. -/
inductive Resumed (t : Table) (log : Bytes) (v : Session) : Bytes → Prop
  | refused {f : Utf8.Fault} (hv : v.mode = .extend) (h : scan log = .error f) : Resumed t log v log
  | went {skip : SkipSet} (hv : v.mode = .extend) (hf : v.force = false) (h : v.Goes (.table t) log skip) :
    Resumed t log v (v.after log)

/-- What sessions of a table, one after another, make of a log. -/
inductive ResumedAll (t : Table) (log₀ : Bytes) : List Session → Bytes → Prop
  | start : ResumedAll t log₀ [] log₀
  | step {vs : List Session} {log log' : Bytes} {v : Session} (h : ResumedAll t log₀ vs log)
    (hv : Resumed t log v log') : ResumedAll t log₀ (vs ++ [v]) log'

/-- The outcomes in a session depend on the identity alone. -/
def Session.Obeys (v : Session) (ok : String → Bool) : Prop :=
  ∀ e ∈ v.events, e.Obeys ok

/-- A session without a limit that is not interrupted. -/
structure Session.Whole (v : Session) : Prop where
  limit : v.limit = none ∨ v.limit = some 0
  finished : ¬ v.state.account.counters.completed < v.state.scheduled

/-- A session without a limit that is never stopped, and comes to its end, is whole. -/
theorem Session.Goes.whole {v : Session} {c : Catalog} {log : Bytes} {skip : SkipSet} (h : v.Goes c log skip)
    (hlimit : v.limit = none ∨ v.limit = some 0) (hstopped : v.stopped = false)
    (hes : RunEvent.stopped ∉ v.events) (hw : 0 < v.workers) (hrun : v.state.running = [])
    (hl : v.state.launch? = none) : v.Whole := by
  have hh := h.history
  rw [hstopped] at hh
  exact ⟨hlimit, hh.not_interrupted hes hw hrun hl⟩

section Sessions

variable {t : Table} {log₀ log log' : Bytes} {v : Session} {vs : List Session} {skip : SkipSet} {ok : String → Bool}

/-- The identities of the items that a table has to be described. -/
def Table.due (t : Table) (id : String) : Prop :=
  id ∈ ((Catalog.table t).pending false).map (·.id)

theorem identities_opened (hv : v.mode = .extend) (log : Bytes) :
    identities (Session.opened v.mode log) = identities log := by
  rw [hv]
  exact RecordLog.identities_continued log

theorem Resumed.nodup (h : Resumed t log v log') (hn : (identities log).Nodup) : (identities log').Nodup := by
  cases h with
  | refused hv h => exact hn
  | went hv hf h =>
    refine h.nodup_after ?_
    rwa [identities_opened hv]

/-- However a log is resumed, it holds no identity twice. -/
theorem ResumedAll.nodup (h : ResumedAll t log₀ vs log) (hn : (identities log₀).Nodup) :
    (identities log).Nodup := by
  induction h with
  | start => exact hn
  | step _ hv ih => exact hv.nodup ih

/-- A session adds identities that are due and whose outcome is good. -/
theorem Resumed.bounds (h : Resumed t log v log') (hf : v.FailsShort) (ho : v.Obeys ok) (id : String) :
    (id ∈ identities log → id ∈ identities log')
      ∧ (id ∈ identities log' → id ∈ identities log ∨ t.due id ∧ ok id = true) := by
  cases h with
  | refused hv h => exact ⟨fun h => h, .inl⟩
  | @went skip hv hforce h =>
    constructor
    · intro hid
      rw [Session.identities_after, identities_opened hv]
      exact List.mem_append_left _ hid
    · intro hid
      have hin := h.mem_after hf hid
      rw [identities_opened hv, RunEvent.mem_storedIn_iff ho] at hin
      refine hin.imp_right fun ⟨hid, hok⟩ => ⟨?_, hok⟩
      have hq := (h.mem_queue (h.jobs.2 id (List.mem_append_left _ hid))).1
      rwa [hforce] at hq

/-- A whole session stores all of them that the log does not hold. -/
theorem Session.Goes.stored_whole (h : v.Goes (.table t) log skip) (hforce : v.force = false) (ho : v.Obeys ok)
    (hw : v.Whole) (id : String) : id ∈ (storedIn v.events).map Prod.fst
      ↔ (t.due id ∧ ok id = true) ∧ id ∉ identities (Session.opened v.mode log) := by
  have hq : v.queue (.table t) skip = Queue.distinct skip ((Catalog.table t).pending false) := by
    unfold Session.queue Queue.schedule Queue.limited
    rw [hforce]
    rcases hw.limit with h | h <;> rw [h]
  rw [RunEvent.mem_storedIn_iff ho, ← (h.accounted.settled_all hw.finished).mem_iff, hq, Queue.mem_distinct,
    ← h.contains_skip, Bool.not_eq_true, and_right_comm]
  exact Iff.rfl

/-- A whole session leaves all of them exactly when the line of each record that it stores starts a row. -/
theorem Resumed.whole_iff (h : Resumed t log v log') (ht : ∃ ls, scan log = .ok ls) (hf : v.FailsShort)
    (ho : v.Obeys ok) (hw : v.Whole) :
    v.StartsRows ↔ ∀ id, id ∈ identities log' ↔ id ∈ identities log ∨ t.due id ∧ ok id = true := by
  have hbounds := h.bounds hf ho
  cases h with
  | refused hv h =>
    obtain ⟨ls, hs⟩ := ht
    cases h.symm.trans hs
  | @went skip hv hforce h =>
    have hstored := h.stored_whole hforce ho hw
    simp only [identities_opened hv] at hstored
    rw [h.startsRows_iff]
    constructor
    · intro hkept id
      refine ⟨(hbounds id).2, ?_⟩
      rintro (hid | hdue)
      · exact (hbounds id).1 hid
      · by_cases hin : id ∈ identities log
        · exact (hbounds id).1 hin
        · exact hkept id ((hstored id).2 ⟨hdue, hin⟩)
    · intro hall id hid
      exact (hall id).2 (.inr ((hstored id).1 hid).1)

theorem Resumed.readable (h : Resumed t log v log') (ht : ∃ ls, scan log = .ok ls) (hf : v.FailsShort) :
    ∃ ls, scan log' = .ok ls := by
  cases h with
  | refused hv h => exact ht
  | went hv hforce h => exact (RecordLog.exists_scan_iff _).2 (h.isText_after fun a ha => (hf a ha).isText)

/-- Sessions bring identities that are due and whose outcome is good, and leave a log that can be read. -/
theorem ResumedAll.bounds (h : ResumedAll t log₀ vs log) (ht : ∃ ls, scan log₀ = .ok ls)
    (hvs : ∀ v ∈ vs, v.FailsShort ∧ v.Obeys ok) : (∃ ls, scan log = .ok ls)
      ∧ ∀ id, (id ∈ identities log₀ → id ∈ identities log)
        ∧ (id ∈ identities log → id ∈ identities log₀ ∨ t.due id ∧ ok id = true) := by
  induction h with
  | start => exact ⟨ht, fun id => ⟨fun h => h, .inl⟩⟩
  | step _ hv ih =>
    obtain ⟨hread, hb⟩ := ih fun v h => hvs v (List.mem_append_left _ h)
    obtain ⟨hf, ho⟩ := hvs _ (List.mem_append_right _ List.mem_cons_self)
    refine ⟨hv.readable hread hf, fun id => ⟨fun h => (hv.bounds hf ho id).1 ((hb id).1 h), fun h => ?_⟩⟩
    exact ((hv.bounds hf ho id).2 h).elim (hb id).2 .inr

/-- Sessions that end in a whole one leave all identities that are due and come out well exactly when the line of each
record that the last one stores starts a row. -/
theorem ResumedAll.whole_iff (h : ResumedAll t log₀ vs log) (ht : ∃ ls, scan log₀ = .ok ls)
    (hvs : ∀ v ∈ vs, v.FailsShort ∧ v.Obeys ok) (hv : v ∈ vs.getLast?) (hw : v.Whole) :
    v.StartsRows ↔ ∀ id, id ∈ identities log ↔ id ∈ identities log₀ ∨ t.due id ∧ ok id = true := by
  cases h with
  | start => cases hv
  | @step vs mid _ last h hlast =>
    rw [List.getLast?_concat] at hv
    obtain rfl : last = v := Option.some.inj hv
    obtain ⟨hread, hb⟩ := h.bounds ht fun v h => hvs v (List.mem_append_left _ h)
    obtain ⟨hf, ho⟩ := hvs last (List.mem_append_right _ List.mem_cons_self)
    rw [hlast.whole_iff hread hf ho hw]
    refine forall_congr' fun id => iff_congr Iff.rfl ?_
    constructor
    · rintro (h | h)
      · exact (hb id).2 h
      · exact .inr h
    · rintro (h | h)
      · exact .inl ((hb id).1 h)
      · exact .inr h

end Sessions

/-- However a log is resumed, it holds no identity twice. When outcomes depend on the identity alone, and each append
that fails leaves less than a line and no part of a character, compare sessions that end in a whole one with a single
whole session. If one of these two whole sessions stores each record on a line of its own, the same identities are left
exactly when the other one does so, too. -/
theorem resumed_log {t : Table} {log₀ log : Bytes} {vs : List Session} (h : ResumedAll t log₀ vs log)
    (ht : ∃ ls, scan log₀ = .ok ls) (hn : (identities log₀).Nodup) :
    (identities log).Nodup
      ∧ ∀ ok : String → Bool, (∀ v ∈ vs, v.FailsShort ∧ v.Obeys ok) → ∀ last ∈ vs.getLast?, last.Whole →
        ∀ single log', Resumed t log₀ single log' → single.FailsShort → single.Obeys ok → single.Whole →
          (single.StartsRows → ((∀ id, id ∈ identities log ↔ id ∈ identities log') ↔ last.StartsRows))
            ∧ (last.StartsRows → ((∀ id, id ∈ identities log ↔ id ∈ identities log') ↔ single.StartsRows)) := by
  refine ⟨h.nodup hn, fun ok hvs last hlast hw single log' hs hf ho hw' => ?_⟩
  have hall := h.whole_iff ht hvs hlast hw
  have hone := hs.whole_iff ht hf ho hw'
  constructor
  · intro hrows
    rw [hall]
    exact forall_congr' fun id => by rw [hone.1 hrows id]
  · intro hrows
    rw [hone]
    refine forall_congr' fun id => ?_
    rw [hall.1 hrows id]
    exact iff_comm

/-! ## Two orders of jobs, after a crash -/

namespace CrashedLog

/-- The items of a table of two. -/
def first : Item := .new "https://example.com/a.gif" (.remote "https://example.com/a.gif") .imageSequence

def second : Item := .new "https://example.com/b.gif" (.remote "https://example.com/b.gif") .imageSequence

def table : Table := ⟨"tgif", [first, second]⟩

/-- A record of an item. -/
def record (i : Item) : Record :=
  .ofItem i ⟨"A cat falls.", "unknown", .one "funny", .one "falling", "fail", ["cat"]⟩ ⟨⟨2024, 1, 1⟩, 0, 0⟩

def report (i : Item) : Report := ⟨i.id, .success (record i), .zero⟩

/-- The state in which both items are worked on. -/
def running : RunState :=
  { RunState.start 2 1 [first, second] false (.table table) with held := none, waiting := [], running := [first, second] }

def launches : List RunEvent := [.launched first, .launched second]

/-- A crash when the first byte of a record is written. -/
def crashed : Session := ⟨.extend, 2, 1, none, false, false, launches, running, some (record first, 1)⟩

/-- The disk is full. -/
def noSpace : FileFault := .system 28

/-- It is full when the first byte of the record of the first item is written. -/
def full : RunEvent := .settled (report first) (some (noSpace, 1))

/-- The record of the second item is stored. -/
def stored : RunEvent := .settled (report second) none

/-- The session in which the jobs end as they were launched. -/
def forth : Session :=
  ⟨.extend, 2, 1, none, false, false, launches ++ [full, stored],
    (running.finish (some noSpace) (report first)).finish none (report second), none⟩

/-- The session in which they end the other way round. -/
def back : Session :=
  ⟨.extend, 2, 1, none, false, false, launches ++ [stored, full],
    (running.finish none (report second)).finish (some noSpace) (report first), none⟩

/-- Only the second item comes out well. -/
def ok (id : String) : Bool := id == second.id

theorem history_launched : History (.start 2 1 [first, second] false (.table table)) launches running :=
  (History.start.step (.launch rfl)).step (.launch rfl)

/-- What one byte of a record is. -/
theorem bytes_brace (r : Record) : (⟨r, some 1⟩ : RecordLog.Attempt).bytes = [0x7B] := by
  obtain ⟨b, hb⟩ := RecordLog.lineBytes_start r
  rw [RecordLog.Attempt.bytes, RecordLog.bytesOf_eq, hb]
  rfl

theorem failsShort_brace (r : Record) : (⟨r, some 1⟩ : RecordLog.Attempt).FailsShort := by
  obtain ⟨t, ht⟩ := r.text_start
  have hline : RecordLog.lineBytes r = [0x7B] ++ ([0x22] ++ Utf8.encode ('i' :: t)) := by
    rw [RecordLog.lineBytes, ht, Utf8.encode_cons, Utf8.encode_cons]
    rfl
  refine ⟨fun _ => ?_, ?_⟩
  · rw [bytes_brace, hline]
    simp
  · rw [bytes_brace]
    exact Utf8.isText_encode ['{']

theorem failsShort_whole (r : Record) : (⟨r, none⟩ : RecordLog.Attempt).FailsShort :=
  ⟨fun h => absurd rfl h, RecordLog.isText_of_cut (.inl rfl)⟩

/-- The crash has left an opening brace. -/
theorem after_crashed : crashed.after [] = [0x7B] := by
  have hattempts : crashed.attempts = [⟨record first, some 1⟩] := rfl
  have hopened : Session.opened crashed.mode [] = [] := rfl
  rw [Session.after, hattempts, hopened, RecordLog.accepted_cons, bytes_brace]
  rfl

theorem read_crashed : Session.skipFor .extend [0x7B] = .ok .empty := by
  obtain ⟨ls, hs⟩ := (RecordLog.exists_scan_iff [0x7B]).2 (Utf8.isText_encode ['{'])
  have hid : RecordLog.rowId? [0x7B] = none := by
    have hline := RecordLog.rowLine?_of_ok (Utf8.decodeFrom_encode ['{'] 0)
    have hbroken : (RecordLog.Line.ofText ['{']).id? = none := by decide +kernel
    rw [RecordLog.rowId?]
    exact (congrArg (Option.bind · RecordLog.Line.id?) hline).trans hbroken
  have hids : RecordLog.idsOf ls = [] := by
    rw [RecordLog.idsOf_scan hs]
    show [([0x7B] : Bytes)].filterMap RecordLog.rowId? = []
    simp [hid]
  rw [Session.skipFor, hs]
  show Except.ok (SkipSet.ofList (RecordLog.idsOf ls)) = Except.ok SkipSet.empty
  rw [hids]
  rfl

theorem obeys : ∀ e ∈ launches ++ [full, stored], e.Obeys ok := by
  intro e he r hr
  have hcases : e ∈ launches ∨ e = full ∨ e = stored := by simpa using he
  rcases hcases with hl | rfl | rfl
  · obtain rfl | rfl : e = .launched first ∨ e = .launched second := by simpa [launches] using hl
    · cases hr
    · cases hr
  · obtain rfl : report first = r := Option.some.inj hr
    decide
  · obtain rfl : report second = r := Option.some.inj hr
    decide

theorem honest : ∀ e ∈ launches ++ [full, stored], e.Honest := by
  simp [launches, full, stored, RunEvent.Honest, RunEvent.report?, report, record, Record.ofItem]

theorem attempts_forth : forth.attempts = [⟨record first, some 1⟩, ⟨record second, none⟩] := rfl

theorem attempts_back : back.attempts = [⟨record second, none⟩, ⟨record first, some 1⟩] := rfl

theorem forth_goes : forth.Goes (.table table) [] .empty where
  read := rfl
  history := (history_launched.step (.settle List.mem_cons_self rfl _)).step (.settle List.mem_cons_self rfl none)
  honest := honest
  crash := by rintro x ⟨⟩

theorem back_goes : back.Goes (.table table) (crashed.after []) .empty where
  read := by
    rw [after_crashed]
    exact read_crashed
  history := (history_launched.step (.settle (List.mem_cons_of_mem _ List.mem_cons_self) rfl none)).step
    (.settle List.mem_cons_self rfl _)
  honest e he := honest e (by simpa [back, or_comm] using he)
  crash := by rintro x ⟨⟩

theorem crashed_goes : crashed.Goes (.table table) [] .empty where
  read := rfl
  history := history_launched
  honest e he := honest e (List.mem_append_left _ he)
  crash := by
    rintro x ⟨⟩
    exact ⟨first, List.mem_cons_self, rfl⟩

theorem resumedAll : ResumedAll table [] [crashed, back] (back.after (crashed.after [])) :=
  (ResumedAll.start.step (.went rfl rfl crashed_goes)).step (.went rfl rfl back_goes)

theorem failsShort_crashed : crashed.FailsShort := by
  have h : crashed.attempts = [⟨record first, some 1⟩] := rfl
  rw [Session.FailsShort, h, List.forall_mem_singleton]
  exact failsShort_brace _

theorem failsShort_back : back.FailsShort := by
  rw [Session.FailsShort, attempts_back, List.forall_mem_cons, List.forall_mem_singleton]
  exact ⟨failsShort_whole _, failsShort_brace _⟩

theorem failsShort_forth : forth.FailsShort := by
  rw [Session.FailsShort, attempts_forth, List.forall_mem_cons, List.forall_mem_singleton]
  exact ⟨failsShort_brace _, failsShort_whole _⟩

/-- The record that is stored first starts a row, -/
theorem startsRows_back : back.StartsRows := by
  rintro (_ | ⟨a, _ | ⟨a', front⟩⟩) b behind he hb
  · rfl
  · rw [attempts_back] at he
    obtain ⟨-, he⟩ := List.cons.inj he
    obtain ⟨rfl, -⟩ := List.cons.inj he
    cases hb
  · rw [attempts_back] at he
    simp at he

/-- and the one behind the brace does not. -/
theorem not_startsRows_forth : ¬ forth.StartsRows := by
  intro h
  have hm := h [⟨record first, some 1⟩] ⟨record second, none⟩ [] attempts_forth rfl
  rw [RecordLog.accepted_cons, bytes_brace] at hm
  cases hm

end CrashedLog

open CrashedLog in
/-- The first record cannot be appended. The second one is found again if it was stored before that, and it is not if it
was stored behind it. -/
theorem resumed_log_orders : (identities (back.after (crashed.after []))).Nodup
    ∧ ¬ ∀ id, id ∈ identities (back.after (crashed.after [])) ↔ id ∈ identities (forth.after []) := by
  obtain ⟨hnodup, hwhole⟩ := resumed_log resumedAll ⟨[], rfl⟩ List.nodup_nil
  have hvs : ∀ v ∈ [crashed, back], v.FailsShort ∧ v.Obeys ok := by
    rw [List.forall_mem_cons, List.forall_mem_singleton]
    exact ⟨⟨failsShort_crashed, fun e he => obeys e (List.mem_append_left _ he)⟩,
      failsShort_back, fun e he => obeys e (by simpa [back, or_comm] using he)⟩
  obtain ⟨-, hiff⟩ := hwhole ok hvs back rfl ⟨.inl rfl, by decide⟩ forth _ (.went rfl rfl forth_goes) failsShort_forth
    obeys ⟨.inl rfl, by decide⟩
  exact ⟨hnodup, fun he => not_startsRows_forth ((hiff startsRows_back).1 he)⟩

end Captioning
