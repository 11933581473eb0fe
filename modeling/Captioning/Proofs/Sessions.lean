import Captioning.Proofs.AppendHistory
import Captioning.Proofs.RunAccounts
/-!
# Sessions

A session opens a log, runs over a catalog, and may crash while it writes a record. It adds to the log what
the settled reports make it add (`Session.identities_after`), and these are records of different items, none of
which had one in the log that it continues (`Goes.nodup_attempts`, `Goes.notMem_opened`). When no attempt leaves as much
as a line without storing its record, the identities it adds are among those of the stored records
(`Goes.mem_after`), and they are all of them if each line starts a row (`Goes.startsRows_iff`), as it does when no
record was stored in part (`Goes.identities_clean`).
-/

namespace Captioning

open RunState (History)
open RunEvent (launchedIn reportsIn storedIn)
open RecordLog (Attempt accepted acknowledged identities leftBy continued scan skipSetOf)

/-! ## Appending in a run -/

namespace RunEvent

/-- The attempt to append a record that belongs to an event. -/
def attempt? : RunEvent → Option Attempt
  | .settled r fault => match r.outcome with
    | .success record => some ⟨record, fault.map Prod.snd⟩
    | _ => none
  | _ => none

/-- The attempts to append a record, in order. -/
def attemptsIn (es : List RunEvent) : List Attempt :=
  es.filterMap attempt?

/-- A report that brings a record brings one of its own identity. -/
def Honest (e : RunEvent) : Prop :=
  ∀ r ∈ e.report?, ∀ record, r.outcome = .success record → record.id = r.id

theorem filterMap_cons_toList {α β : Type} (f : α → Option β) (x : α) (xs : List α) :
    (x :: xs).filterMap f = (f x).toList ++ xs.filterMap f := by
  rw [List.filterMap_cons]
  cases f x <;> rfl

theorem attempt?_sublist {e : RunEvent} (h : e.Honest) :
    (e.attempt?.toList.map fun a => a.record.id).Sublist (e.report?.toList.map (·.id)) := by
  cases e with
  | launched i => exact List.Sublist.refl _
  | stopped => exact List.Sublist.refl _
  | settled r fault =>
    cases ho : r.outcome with
    | success record =>
      have hid : record.id = r.id := h r rfl record ho
      simp [attempt?, report?, ho, hid]
    | removed => simp [attempt?, ho]
    | failed stage f => simp [attempt?, ho]

/-- Records are appended for reports, in their order. -/
theorem attemptsIn_sublist {es : List RunEvent} (h : ∀ e ∈ es, e.Honest) :
    ((attemptsIn es).map fun a => a.record.id).Sublist ((reportsIn es).map (·.id)) := by
  induction es with
  | nil => exact List.Sublist.refl _
  | cons e es ih =>
    rw [attemptsIn, reportsIn, filterMap_cons_toList, filterMap_cons_toList, List.map_append, List.map_append]
    exact (attempt?_sublist (h e List.mem_cons_self)).append (ih fun e' he => h e' (List.mem_cons_of_mem e he))

theorem acknowledged_attempt? (e : RunEvent) : acknowledged e.attempt?.toList = e.stored?.toList.map Prod.snd := by
  cases e with
  | launched i => rfl
  | stopped => rfl
  | settled r fault =>
    cases fault <;> cases ho : r.outcome <;> simp [attempt?, stored?, acknowledged, ho]

/-- The records that were stored are those of the attempts that succeeded. -/
theorem acknowledged_attemptsIn (es : List RunEvent) :
    acknowledged (attemptsIn es) = (storedIn es).map Prod.snd := by
  induction es with
  | nil => rfl
  | cons e es ih =>
    have happ : ∀ as bs : List Attempt, acknowledged (as ++ bs) = acknowledged as ++ acknowledged bs := by
      intro as bs
      simp [acknowledged]
    rw [attemptsIn, storedIn, filterMap_cons_toList, filterMap_cons_toList, happ, acknowledged_attempt?,
      List.map_append]
    exact congrArg _ ih

/-- What is stored is the record that a report brings, under the identity of the report. -/
theorem report_of_stored? {e : RunEvent} {x : String × Record} (h : e.stored? = some x) :
    ∃ r, e.report? = some r ∧ r.id = x.1 ∧ r.outcome = .success x.2 := by
  cases e with
  | launched i => cases h
  | stopped => cases h
  | settled r fault =>
    cases fault with
    | some f => cases h
    | none =>
      cases ho : r.outcome with
      | success record =>
        obtain rfl : (r.id, record) = x := by simpa [stored?, ho] using h
        exact ⟨r, rfl, rfl, ho⟩
      | removed => simp [stored?, ho] at h
      | failed stage f => simp [stored?, ho] at h

/-- Where reports are honest, what is stored under an identity is a record of it. -/
theorem id_of_storedIn {es : List RunEvent} (h : ∀ e ∈ es, e.Honest) {x : String × Record} (hx : x ∈ storedIn es) :
    x.2.id = x.1 := by
  obtain ⟨e, he, hs⟩ := List.mem_filterMap.1 hx
  obtain ⟨r, hr, hid, ho⟩ := report_of_stored? hs
  rw [← hid]
  exact h e he r hr x.2 ho

/-- Where nothing was stored in part, every attempt gives the log its whole line or nothing. -/
theorem cut_attemptsIn {es : List RunEvent} (h : ∀ e ∈ es, e.Clean) :
    ∀ a ∈ attemptsIn es, a.cut = none ∨ a.cut = some 0 := by
  intro a ha
  obtain ⟨e, he, ha⟩ := List.mem_filterMap.1 ha
  cases e with
  | launched i => cases ha
  | stopped => cases ha
  | settled r fault =>
    cases ho : r.outcome with
    | success record =>
      obtain rfl : (⟨record, fault.map Prod.snd⟩ : Attempt) = a := by simpa [attempt?, ho] using ha
      rcases fault with _ | ⟨f, n⟩
      · exact .inl rfl
      · exact .inr (congrArg some (h _ he))
    | removed => simp [attempt?, ho] at ha
    | failed stage f => simp [attempt?, ho] at ha

end RunEvent

open RunEvent (attemptsIn)

/-! ## Attempts without scraps -/

namespace RecordLog

theorem Attempt.bytes_of_cut {a : Attempt} (h : a.cut = none ∨ a.cut = some 0) :
    a.cut = none ∧ a.bytes = bytesOf a.record ∨ a.cut = some 0 ∧ a.bytes = [] := by
  rcases h with h | h
  · exact .inl ⟨h, by rw [bytes, h]⟩
  · exact .inr ⟨h, by rw [bytes, h]; rfl⟩

theorem bytesOf_ne_nil (r : Record) : bytesOf r ≠ [] := by
  rw [bytesOf_eq]
  simp

/-- Attempts that give their whole line or nothing leave the identities of those that succeed. -/
theorem leftBy_of_cut {as : List Attempt} (h : ∀ a ∈ as, a.cut = none ∨ a.cut = some 0) :
    leftBy [] as = (acknowledged as).map (·.id) := by
  induction as with
  | nil => simp [leftBy, rowId?_nil, acknowledged]
  | cons a as ih =>
    have ih := ih fun b hb => h b (List.mem_cons_of_mem a hb)
    rw [leftBy]
    rcases Attempt.bytes_of_cut (h a List.mem_cons_self) with ⟨hc, hb⟩ | ⟨hc, hb⟩
    · rw [if_pos hb, if_pos rfl, ih]
      simp [acknowledged, hc]
    · rw [if_neg fun e => bytesOf_ne_nil a.record (e.symm.trans hb), hb, List.append_nil, ih]
      simp [acknowledged, hc]

/-- They give the lines of the records of those. -/
theorem accepted_of_cut {as : List Attempt} (h : ∀ a ∈ as, a.cut = none ∨ a.cut = some 0) :
    accepted as = (acknowledged as).flatMap bytesOf := by
  induction as with
  | nil => rfl
  | cons a as ih =>
    rw [accepted_cons, ih fun b hb => h b (List.mem_cons_of_mem a hb)]
    rcases Attempt.bytes_of_cut (h a List.mem_cons_self) with ⟨hc, hb⟩ | ⟨hc, hb⟩
    · rw [hb]
      simp [acknowledged, hc]
    · rw [hb]
      simp [acknowledged, hc]

theorem isText_bytesOf (r : Record) : Utf8.IsText (bytesOf r) := by
  have hf : ([10] : Bytes) = Utf8.encode ['\n'] := rfl
  rw [bytesOf_eq, lineBytes, hf, ← Utf8.encode_append]
  exact Utf8.isText_encode _

theorem isText_of_cut {a : Attempt} (h : a.cut = none ∨ a.cut = some 0) : Utf8.IsText a.bytes := by
  rcases Attempt.bytes_of_cut h with ⟨-, hb⟩ | ⟨-, hb⟩
  · rw [hb]
    exact isText_bytesOf a.record
  · rw [hb]
    exact Utf8.isText_nil

end RecordLog

/-! ## Sessions -/

/-- A session of the program for one catalog: how it opens its log, what it is told, and what happens. -/
structure Session where
  mode : OpenMode
  workers : Nat
  interval : Nat
  limit : Option Nat
  /-- Whether items that are described already are described again. -/
  force : Bool
  stopped : Bool
  /-- What happens in its run, -/
  events : List RunEvent
  /-- and the state that the run has come to. -/
  state : RunState
  /-- The record whose line was being written when it crashed, if it did so, and how many bytes were. -/
  crash : Option (Record × Nat)

namespace Session

/-- The identities that are left out. -/
def skipFor (mode : OpenMode) (log : Bytes) : Except Utf8.Fault SkipSet :=
  match mode with
  | .extend => (scan log).map skipSetOf
  | .truncate => .ok .empty

/-- The log once it is open. -/
def opened (mode : OpenMode) (log : Bytes) : Bytes :=
  match mode with
  | .extend => continued log
  | .truncate => []

/-- What the run works on. -/
def queue (v : Session) (c : Catalog) (skip : SkipSet) : List Item :=
  (Queue.schedule (c.pending v.force) skip v.limit).1

/-- The attempts to append a record, with the one that a crash has cut off. -/
def attempts (v : Session) : List Attempt :=
  attemptsIn v.events ++ v.crash.toList.map fun x => ⟨x.1, some x.2⟩

/-- The log that a session leaves. -/
def after (v : Session) (log : Bytes) : Bytes :=
  opened v.mode log ++ accepted v.attempts

/-- A session can go like this: it reads the log, what happens is a history of a run over the items that
have no record, reports are honest, and a crash cuts off the line of an item that runs. -/
structure Goes (v : Session) (c : Catalog) (log : Bytes) (skip : SkipSet) : Prop where
  read : skipFor v.mode log = .ok skip
  history : History (.start v.workers v.interval (v.queue c skip) v.stopped c) v.events v.state
  honest : ∀ e ∈ v.events, e.Honest
  crash : ∀ x ∈ v.crash, ∃ i ∈ v.state.running, x.1.id = i.id

section Log

variable {v : Session} {c : Catalog} {log : Bytes} {skip : SkipSet}

theorem endsMidLine_opened (mode : OpenMode) (log : Bytes) : RecordLog.endsMidLine (opened mode log) = false := by
  cases mode with
  | extend => exact RecordLog.endsMidLine_continued log
  | truncate => rfl

/-- A session leaves what the log held when it was open, and what the attempts leave. -/
theorem identities_after (v : Session) (log : Bytes) :
    identities (v.after log) = identities (opened v.mode log) ++ leftBy [] v.attempts :=
  RecordLog.identities_attempts (endsMidLine_opened v.mode log) v.attempts

/-- What is left out is what the open log holds. -/
theorem Goes.contains_skip (h : v.Goes c log skip) (id : String) :
    skip.contains id = true ↔ id ∈ identities (opened v.mode log) := by
  have hr := h.read
  unfold skipFor at hr
  unfold opened
  cases hm : v.mode with
  | extend =>
    rw [hm] at hr
    cases hs : scan log with
    | error f => simp [hs, Except.map] at hr
    | ok ls =>
      obtain rfl : skipSetOf ls = skip := by simpa [hs, Except.map] using hr
      dsimp only
      rw [RecordLog.identities_continued, ← RecordLog.idsOf_scan hs]
      simp [skipSetOf]
  | truncate =>
    rw [hm] at hr
    obtain rfl : SkipSet.empty = skip := by simpa using hr
    simp [identities, RecordLog.rowsOf]

theorem Goes.accounted (h : v.Goes c log skip) : RunState.Accounted (v.queue c skip) c v.events v.state :=
  h.history.accounted (RunState.accounted_start _ _ _ _ c)

theorem nodup_queue (v : Session) (c : Catalog) (skip : SkipSet) : ((v.queue c skip).map (·.id)).Nodup :=
  Queue.nodup_schedule _ _ _

/-- The jobs that have reported and those that run are different, and of the queue. -/
theorem Goes.jobs (h : v.Goes c log skip) :
    ((reportsIn v.events).map (·.id) ++ v.state.running.map (·.id)).Nodup
      ∧ ∀ id ∈ (reportsIn v.events).map (·.id) ++ v.state.running.map (·.id), id ∈ (v.queue c skip).map (·.id) := by
  have hsub := h.accounted.launched_ids
  have hjobs := h.accounted.jobs
  exact ⟨hjobs.nodup_iff.1 ((v.nodup_queue c skip).sublist hsub), fun id hid => hsub.subset (hjobs.mem_iff.2 hid)⟩

/-- Each attempt is made for a report that was settled, or for a job that ran when the crash came. -/
theorem Goes.attempts_sublist (h : v.Goes c log skip) : (v.attempts.map fun a => a.record.id).Sublist
    ((reportsIn v.events).map (·.id) ++ v.state.running.map (·.id)) := by
  rw [attempts, List.map_append]
  refine (RunEvent.attemptsIn_sublist h.honest).append ?_
  cases hx : v.crash with
  | none => exact List.nil_sublist _
  | some x =>
    obtain ⟨i, hi, hid⟩ := h.crash x hx
    show [x.1.id].Sublist (v.state.running.map (·.id))
    rw [List.singleton_sublist, hid]
    exact List.mem_map_of_mem hi

/-- The attempts are made for different items. -/
theorem Goes.nodup_attempts (h : v.Goes c log skip) : (v.attempts.map fun a => a.record.id).Nodup :=
  h.jobs.1.sublist h.attempts_sublist

/-- The items of the queue are due, and have no record in the log. -/
theorem Goes.mem_queue (h : v.Goes c log skip) {id : String} (hid : id ∈ (v.queue c skip).map (·.id)) :
    id ∈ (c.pending v.force).map (·.id) ∧ id ∉ identities (opened v.mode log) := by
  have hm := ((Queue.schedule_sublist _ _ _).map (·.id)).subset hid
  obtain ⟨hp, hs⟩ := Queue.mem_distinct.1 hm
  refine ⟨hp, fun hin => ?_⟩
  rw [(h.contains_skip id).2 hin] at hs
  cases hs

/-- No attempt is made for an identity that the log holds. -/
theorem Goes.notMem_opened (h : v.Goes c log skip) {id : String} (hid : id ∈ v.attempts.map fun a => a.record.id) :
    id ∉ identities (opened v.mode log) :=
  (h.mem_queue (h.jobs.2 id (h.attempts_sublist.subset hid))).2

/-- A log that holds no identity twice is left so. -/
theorem Goes.nodup_after (h : v.Goes c log skip) (hn : (identities (opened v.mode log)).Nodup) :
    (identities (v.after log)).Nodup := by
  have hsub : (leftBy [] v.attempts).Sublist (v.attempts.map fun a => a.record.id) := by
    have := RecordLog.leftBy_sublist v.attempts .nil
    rwa [RecordLog.rowId?_nil] at this
  rw [identities_after]
  refine List.nodup_append.2 ⟨hn, h.nodup_attempts.sublist hsub, fun a ha b hb => ?_⟩
  rintro rfl
  exact h.notMem_opened (hsub.subset hb) ha

/-- The records whose append succeeded are those that were stored. -/
theorem Goes.acknowledged_attempts (h : v.Goes c log skip) :
    (acknowledged v.attempts).map (·.id) = (storedIn v.events).map Prod.fst := by
  have hcrash : acknowledged v.attempts = acknowledged (attemptsIn v.events) := by
    rw [attempts]
    cases v.crash <;> simp [acknowledged]
  rw [hcrash, RunEvent.acknowledged_attemptsIn, List.map_map]
  exact List.map_congr_left fun x hx => RunEvent.id_of_storedIn h.honest hx

/-- Its log is a text, if no attempt was cut off inside of a character. -/
theorem Goes.isText_after (h : v.Goes c log skip) (ht : ∀ a ∈ v.attempts, Utf8.IsText a.bytes) :
    Utf8.IsText (v.after log) := by
  refine (RecordLog.isText_attempts _ _).2 ⟨?_, ht⟩
  have hr := h.read
  unfold skipFor at hr
  unfold opened
  cases hm : v.mode with
  | extend =>
    rw [hm] at hr
    cases hs : scan log with
    | error f => simp [hs, Except.map] at hr
    | ok ls => exact (RecordLog.exists_scan_iff _).1 ⟨ls, RecordLog.scan_continued.2 hs⟩
  | truncate => exact Utf8.isText_nil

/-! ## Sessions whose failed attempts fall short of a line -/

/-- Every attempt of the session that fails leaves less than a line, and no part of a character. -/
def FailsShort (v : Session) : Prop :=
  ∀ a ∈ v.attempts, a.FailsShort

/-- The line of every record that it stores starts a row. -/
def StartsRows (v : Session) : Prop :=
  RecordLog.StartsRows v.attempts

/-- It leaves no identity but those that the log held and those that it stored. -/
theorem Goes.mem_after (h : v.Goes c log skip) (hf : v.FailsShort) {id : String}
    (hid : id ∈ identities (v.after log)) :
    id ∈ identities (opened v.mode log) ∨ id ∈ (storedIn v.events).map Prod.fst := by
  rw [identities_after, List.mem_append] at hid
  refine hid.imp_right fun hid => ?_
  rw [← h.acknowledged_attempts]
  exact RecordLog.mem_acknowledged_of_leftBy hf hid

/-- It leaves all that it stored exactly when each of their lines starts a row. -/
theorem Goes.startsRows_iff (h : v.Goes c log skip) :
    v.StartsRows ↔ ∀ id ∈ (storedIn v.events).map Prod.fst, id ∈ identities (v.after log) := by
  rw [StartsRows, RecordLog.startsRows_iff h.nodup_attempts, h.acknowledged_attempts]
  refine forall_congr' fun id => forall_congr' fun hid => ?_
  rw [identities_after, List.mem_append]
  refine ⟨.inr, fun hin => hin.resolve_left (h.notMem_opened ?_)⟩
  rw [← h.acknowledged_attempts] at hid
  obtain ⟨r, hr, rfl⟩ := List.mem_map.1 hid
  obtain ⟨a, ha, rfl⟩ := List.mem_map.1 hr
  exact List.mem_map_of_mem (List.mem_filter.1 ha).1

/-! ## Sessions without scraps -/

/-- A session that has left no part of a record in its log. -/
structure Clean (v : Session) : Prop where
  crash : v.crash = none
  events : ∀ e ∈ v.events, e.Clean

theorem Clean.attempts_eq (hc : v.Clean) : v.attempts = attemptsIn v.events := by
  rw [attempts, hc.crash]
  exact List.append_nil _

theorem Clean.cut_attempts (hc : v.Clean) : ∀ a ∈ v.attempts, a.cut = none ∨ a.cut = some 0 := by
  rw [hc.attempts_eq]
  exact RunEvent.cut_attemptsIn hc.events

/-- It adds to the log the identities whose records were stored. -/
theorem Goes.identities_clean (h : v.Goes c log skip) (hc : v.Clean) :
    identities (v.after log) = identities (opened v.mode log) ++ (storedIn v.events).map Prod.fst := by
  rw [identities_after, RecordLog.leftBy_of_cut hc.cut_attempts, h.acknowledged_attempts]

/-- Its log is a text. -/
theorem Goes.isText_clean (h : v.Goes c log skip) (hc : v.Clean) : Utf8.IsText (v.after log) :=
  h.isText_after fun a ha => RecordLog.isText_of_cut (hc.cut_attempts a ha)

end Log

end Session

end Captioning
