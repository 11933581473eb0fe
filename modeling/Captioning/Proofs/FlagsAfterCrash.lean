import Captioning.Proofs.CommandSessions
import Captioning.Proofs.KeptFlags
import Captioning.Proofs.MarkedEntries
/-!
# Flags after a crash

Records are stored one by one, flags when a session has come to its end. A session that is killed leaves records
without flags. The next session does not work on what has a record, and flags only what it has stored itself: so the
flags of the session that was killed stay behind, and no others do (`Killed.flagged`).
-/

namespace Captioning

open RunEvent (launchedIn storedIn)
open RecordLog (identities leftBy Recovers heldAt)

namespace Session

variable {v : Session} {c : Catalog} {log : Bytes} {skip : SkipSet}

/-- What was readable when a session began is readable after it, and so may be what its attempts leave. -/
theorem identities_after_extend (hm : v.mode = .extend) (log : Bytes) :
    identities (v.after log) = identities log ++ leftBy [] v.attempts := by
  rw [identities_after, identities_opened hm]

theorem Goes.isText_of_extend (h : v.Goes c log skip) (hm : v.mode = .extend) : Utf8.IsText log := by
  have hr := h.read
  rw [hm] at hr
  cases hs : RecordLog.scan log with
  | error f => simp [skipFor, hs, Except.map] at hr
  | ok ls => exact (RecordLog.exists_scan_iff log).1 ⟨ls, hs⟩

/-- What has a record in the log gets no job, -/
theorem Goes.notMem_launched (h : v.Goes c log skip) (hm : v.mode = .extend) {id : String} (hid : id ∈ identities log) :
    id ∉ (launchedIn v.events).map (·.id) := by
  intro hin
  refine (h.mem_queue (h.accounted.launched_ids.subset hin)).2 ?_
  rwa [identities_opened hm]

/-- so that no record of it is stored. -/
theorem Goes.notMem_stored (h : v.Goes c log skip) (hm : v.mode = .extend) {id : String} (hid : id ∈ identities log) :
    id ∉ (storedIn v.events).map Prod.fst := fun hs =>
  h.notMem_launched hm hid (h.accounted.jobs.symm.subset (List.mem_append_left _ (h.accounted.stored.subset hs)))

/-- An attempt that has given the log its whole line is that of a stored record. -/
theorem Goes.stored_of_attempt (h : v.Goes c log skip) {a : RecordLog.Attempt} (ha : a ∈ v.attempts)
    (hcut : a.cut = none) : a.record.id ∈ (storedIn v.events).map Prod.fst := by
  have hin : a ∈ RunEvent.attemptsIn v.events := by
    refine (List.mem_append.1 ha).resolve_right fun hx => ?_
    obtain ⟨x, -, rfl⟩ := List.mem_map.1 hx
    cases hcut
  have hack : a.record ∈ RecordLog.acknowledged (RunEvent.attemptsIn v.events) :=
    List.mem_map_of_mem (List.mem_filter.2 ⟨hin, by rw [hcut]; rfl⟩)
  rw [RunEvent.acknowledged_attemptsIn] at hack
  obtain ⟨x, hx, hr⟩ := List.mem_map.1 hack
  rw [← hr, RunEvent.id_of_storedIn h.honest hx]
  exact List.mem_map_of_mem hx

end Session

/-! ## The session after a crash -/

/-- A session that was killed before it could store its flags, and the next one, which so begins with the same
catalog. Both continue the log. Before the first one the items with a flag were those with a record. -/
structure Killed (c : Catalog) (log : Bytes) (v w : Session) : Prop where
  distinct : (c.items.map (·.id)).Nodup
  agree : ∀ i ∈ c.items, i.described = true ↔ Recovers log i.id
  killed : v.mode = .extend ∧ ∃ skip, v.Goes c log skip
  next : w.mode = .extend ∧ ∃ skip, w.Goes c (v.after log) skip

namespace Killed

variable {c : Catalog} {log : Bytes} {v w : Session} {n : Nat} {i : Item}

/-- The killed session leaves a record of an identity that had none. -/
def Leaves (v : Session) (log : Bytes) (id : String) : Prop :=
  Recovers (v.after log) id ∧ ¬ Recovers log id

/-- After the next session an item is flagged if it was before, or its record was stored in that session. -/
theorem described_iff (h : Killed c log v w) (hi : c.items[n]? = some i) :
    ∃ j, w.state.account.catalog.items[n]? = some j ∧ j.id = i.id
      ∧ (j.described = true ↔ Recovers log i.id ∨ i.id ∈ (storedIn w.events).map Prod.fst) := by
  obtain ⟨-, skip, hw⟩ := h.next
  rw [hw.accounted.catalog, ← h.agree i (List.mem_of_getElem? hi)]
  exact c.exists_marks_of_nodup h.distinct _ hi

/-- What the killed session has left a record of is not worked on again. -/
theorem notMem_stored (h : Killed c log v w) {id : String} (hv : Recovers (v.after log) id) :
    id ∉ (storedIn w.events).map Prod.fst := by
  obtain ⟨hm, skip, hw⟩ := h.next
  exact hw.notMem_stored hm ((RecordLog.recovers_iff _ _).1 hv).2

/-- A record that is found after the next session was found before it, or is of an attempt that this one made. -/
theorem recovers_next (h : Killed c log v w) {id : String} (hr : Recovers (w.after (v.after log)) id) :
    Recovers (v.after log) id ∨ id ∈ leftBy [] w.attempts := by
  obtain ⟨hm, skip, hw⟩ := h.next
  have hid := ((RecordLog.recovers_iff _ _).1 hr).2
  rw [Session.identities_after_extend hm, List.mem_append] at hid
  exact hid.imp_left fun hin => (RecordLog.recovers_iff _ _).2 ⟨hw.isText_of_extend hm, hin⟩

/-- After the next session the items are flagged that were flagged at first, and those whose record this session
stored. An item of which the killed session had left a record gets no job and no flag; every other item that has a record
is flagged, unless the session itself could not write all of it. -/
theorem flagged (h : Killed c log v w) (hi : c.items[n]? = some i) :
    ∃ j, w.state.account.catalog.items[n]? = some j ∧ j.id = i.id
      ∧ (j.described = true ↔ Recovers log i.id ∨ i.id ∈ (storedIn w.events).map Prod.fst)
      ∧ (Leaves v log i.id → i.id ∉ (launchedIn w.events).map (·.id) ∧ j.described = false)
      ∧ (Recovers (w.after (v.after log)) i.id → ¬ Leaves v log i.id →
        (∀ a ∈ w.attempts, a.record.id = i.id → a.cut = none) → j.described = true) := by
  obtain ⟨j, hj, hid, hd⟩ := h.described_iff hi
  obtain ⟨hm, skip, hw⟩ := h.next
  refine ⟨j, hj, hid, hd, fun ⟨hv, hno⟩ => ⟨?_, ?_⟩, fun hr hleft hcut => hd.2 ?_⟩
  · exact hw.notMem_launched hm ((RecordLog.recovers_iff _ _).1 hv).2
  · rw [← Bool.not_eq_true, hd]
    exact not_or.2 ⟨hno, h.notMem_stored hv⟩
  · rcases h.recovers_next hr with hv | hin
    · exact .inl (Classical.byContradiction fun hno => hleft ⟨hv, hno⟩)
    · have hsub := RecordLog.leftBy_sublist w.attempts .nil
      rw [RecordLog.rowId?_nil] at hsub
      obtain ⟨a, ha, hai⟩ := List.mem_map.1 (hsub.subset hin)
      exact .inr (hai ▸ hw.stored_of_attempt ha (hcut a ha hai))

/-- Where the next session left no part of a record, the items with a record are flagged, but for those of which the
killed session had left it. -/
theorem described_iff_of_clean (h : Killed c log v w) (hc : w.Clean) (hi : c.items[n]? = some i) :
    ∃ j, w.state.account.catalog.items[n]? = some j ∧ j.id = i.id
      ∧ (Recovers (w.after (v.after log)) i.id → (j.described = true ↔ ¬ Leaves v log i.id)) := by
  obtain ⟨hm, skip, hw⟩ := h.next
  obtain ⟨j, hj, hid, hd⟩ := h.described_iff hi
  refine ⟨j, hj, hid, fun hr => hd.trans ⟨?_, fun hleft => ?_⟩⟩
  · rintro (hlog | hs) ⟨hv, hno⟩
    · exact hno hlog
    · exact h.notMem_stored hv hs
  · rw [hw.recovers_iff hc, identities_opened hm] at hr
    refine hr.imp_left fun hin => Classical.byContradiction fun hno => hleft ⟨?_, hno⟩
    exact (RecordLog.recovers_iff _ _).2 ⟨hw.isText_of_extend hm, hin⟩

/-- A command that continues the log of a session that was killed is the next session. What it stores as the marks of
the catalog lacks those of the killed session, and no others. -/
theorem describeCatalog_flags {z : Surroundings} {plan : FileTree → RunPlan} {output : String}
    {p q : Progression} {r : RunResult} {skip : SkipSet} (hc : (c.items.map (·.id)).Nodup)
    (hagree : ∀ i ∈ c.items, i.described = true ↔ Recovers log i.id) (hm : v.mode = .extend) (hv : v.Goes c log skip)
    (hl : heldAt p.files output = some (v.after log)) (hkeeps : ∀ t, ∀ s ∈ (plan t).pipeline.getD [], s.KeepsItem)
    (hd : Command.describeCatalog z plan c output .extend p = (q, .ok r)) :
    ∃ t log', heldAt t output = some log' ∧ r.catalog.save t = (q.files, .ok ())
      ∧ ∀ (n : Nat) i, c.items[n]? = some i → ∃ j, r.catalog.items[n]? = some j ∧ j.id = i.id
        ∧ (Recovers log' i.id → (j.described = true ↔ ¬ Leaves v log i.id)) := by
  obtain ⟨t, w, skip', hw, -, hgoes, hclean, -, -, hcat, -, hafter, hsave⟩ :=
    Command.describeCatalog_session hd hl hkeeps
  refine ⟨t, _, hafter, hsave, fun n i hi => ?_⟩
  rw [hcat]
  exact described_iff_of_clean ⟨hc, hagree, ⟨hm, skip, hv⟩, hw, skip', hgoes⟩ hclean hi

end Killed

/-! ## A flag that stays behind -/

namespace LateFlag

open LostRecord (source item first)

/-- The session after one that was killed once it had stored the only record. It has nothing to do. -/
def second : Session := ⟨.extend, 1, 1, none, false, false, [], .start 1 1 [] false source, none⟩

theorem recovers_first : Recovers (first.after []) "a" := by
  have hstored : (storedIn first.events).map Prod.fst = ["a"] := rfl
  rw [LostRecord.first_goes.recovers_iff LostRecord.clean_first, hstored]
  exact .inr List.mem_cons_self

theorem not_recovers_nil (id : String) : ¬ Recovers [] id := by
  rw [RecordLog.recovers_iff]
  rintro ⟨-, hid⟩
  cases hid

theorem second_goes : ∃ skip, second.Goes source (first.after []) skip := by
  obtain ⟨ls, hs, hcontains⟩ := recovers_first
  have hread : Session.skipFor .extend (first.after []) = .ok (RecordLog.skipSetOf ls) := by
    show (RecordLog.scan (first.after [])).map RecordLog.skipSetOf = _
    rw [hs]
    rfl
  -- all that is due has its record
  have hqueue : second.queue source (RecordLog.skipSetOf ls) = [] := by
    refine List.eq_nil_iff_forall_not_mem.2 fun i hi => ?_
    have hmem : i.id ∈ (Queue.distinct (RecordLog.skipSetOf ls) (source.pending false)).map (·.id) :=
      List.mem_map_of_mem ((Queue.schedule_sublist _ _ _).subset hi)
    obtain ⟨hdue, hno⟩ := Queue.mem_distinct.1 hmem
    have hid : i.id = "a" := List.mem_singleton.1 hdue
    rw [hid, hcontains] at hno
    cases hno
  refine ⟨_, hread, ?_, ?_, ?_⟩
  · rw [hqueue]
    exact .start
  · simp [second]
  · rintro x ⟨⟩

theorem second_killed : Killed source [] first second where
  distinct := by decide
  agree := by
    rintro i hi
    obtain rfl := List.mem_singleton.1 hi
    exact iff_of_false (by decide) (not_recovers_nil _)
  killed := ⟨rfl, _, LostRecord.first_goes⟩
  next := ⟨rfl, second_goes⟩

end LateFlag

open LateFlag in
/-- The record is in the log, and the session that comes next does not flag its item. -/
theorem Killed.flagged_second : ∃ j, second.state.account.catalog.items[0]? = some j ∧ j.id = "a"
    ∧ Recovers (LostRecord.first.after []) "a" ∧ j.described = false := by
  obtain ⟨j, hj, hid, -, hlate, -⟩ := Killed.flagged second_killed (n := 0) (i := LostRecord.item LostRecord.source) rfl
  exact ⟨j, hj, hid, recovers_first, (hlate ⟨recovers_first, not_recovers_nil _⟩).2⟩

open LateFlag in
/-- Not every session that comes to its end after a crash flags all that has a record. -/
theorem late_flag : ¬ ∀ c log v w, Killed c log v w → w.Clean → w.Whole → w.state.running = [] →
    ∀ j ∈ w.state.account.catalog.items, j.located = true → Recovers (w.after (v.after log)) j.id →
      j.described = true := by
  intro hall
  have hclean : second.Clean := ⟨rfl, fun e he => absurd he List.not_mem_nil⟩
  obtain ⟨skip, hgoes⟩ := second_goes
  have hrecovers : Recovers (second.after (LostRecord.first.after [])) "a" := by
    rw [hgoes.recovers_iff hclean, identities_opened rfl]
    exact .inl ((RecordLog.recovers_iff _ _).1 recovers_first).2
  have hflag := hall _ _ _ _ second_killed hclean ⟨.inl rfl, by decide⟩ rfl _ List.mem_cons_self rfl hrecovers
  exact absurd hflag (by decide)

end Captioning
