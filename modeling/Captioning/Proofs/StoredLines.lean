import Captioning.Proofs.CutLogs
import Captioning.Proofs.Sessions
/-!
# The lines of the records that are stored

Where each attempt to append leaves a whole record or nothing, the rows of a log are those that it had and those of the
records that were stored (`rowsOf_attemptsIn`). Rows hold all bytes of a log but the line feeds (`flatten_rowsOf`), so
once an attempt that fails has left some bytes, the rows hold more than that, in whatever order
(`length_flatten_rowsOf_iff`).
-/

namespace Captioning

open RunEvent (storedIn attemptsIn)

namespace RecordLog

theorem rowsOf_records (rs : List Record) : rowsOf (rs.flatMap bytesOf) = rs.map lineBytes := by
  induction rs with
  | nil => simp [rowsOf]
  | cons r rs ih =>
    have hrow : rowsOf (bytesOf r) = [lineBytes r] := by
      rw [bytesOf_eq, rowsOf_row_feed (feed_notMem_lineBytes r)]
    rw [List.flatMap_cons, rowsOf_append (endsMidLine_bytesOf r), hrow, ih]
    rfl

/-- Rows hold all bytes of a log but the line feeds. -/
theorem flatten_rowsOf (log : Bytes) : (rowsOf log).flatten = log.filter (· != 10) := by
  induction log with
  | nil => rfl
  | cons b log ih =>
    unfold rowsOf at ih ⊢
    by_cases hb : (b == 10) = true
    · simpa [Text.rows, hb, bne] using ih
    · have hb : (b == 10) = false := by simpa using hb
      rw [List.filter_cons_of_pos (by simp [bne, hb]), ← ih, Text.rows, hb]
      cases Text.rows 10 log <;> rfl

theorem filter_bytesOf (r : Record) : (bytesOf r).filter (· != 10) = lineBytes r := by
  rw [← flatten_rowsOf, bytesOf_eq, rowsOf_row_feed (feed_notMem_lineBytes r), List.flatten_singleton]

/-! ## What failed attempts have left -/

/-- What the attempts that fail have left. -/
def leavings (as : List Attempt) : Bytes :=
  (as.filter fun a => a.cut.isSome).flatMap Attempt.bytes

theorem leavings_eq_nil_iff (as : List Attempt) : leavings as = [] ↔ ∀ a ∈ as, a.cut = none ∨ a.cut = some 0 := by
  simp only [leavings, List.flatMap_eq_nil_iff, List.mem_filter, and_imp]
  refine forall_congr' fun a => forall_congr' fun _ => ?_
  obtain ⟨r, _ | n⟩ := a
  · simp
  · simp [Attempt.bytes, bytesOf_ne_nil]

/-- A part of a record is no line feed alone. -/
theorem filter_leavings_eq_nil_iff (as : List Attempt) : (leavings as).filter (· != 10) = [] ↔ leavings as = [] := by
  refine ⟨fun h => ?_, fun h => by rw [h]; rfl⟩
  rw [leavings, List.flatMap_eq_nil_iff]
  intro a ha
  have hall : ∀ b ∈ a.bytes, b = 10 := by
    intro b hb
    have hin : b ∈ leavings as := List.mem_flatMap.2 ⟨a, ha, hb⟩
    simpa using List.filter_eq_nil_iff.1 h b hin
  rcases hc : a.bytes with _ | ⟨c, rest⟩
  · rfl
  · obtain ⟨q, hq⟩ : a.bytes <+: lineBytes a.record ++ [10] := by
      rcases a.bytes_cases with h | h
      · exact ⟨[], by rw [List.append_nil, h, bytesOf_eq]⟩
      · exact h.trans (List.prefix_append _ _)
    obtain ⟨b, hb⟩ := lineBytes_start a.record
    rw [hc, hb] at hq
    obtain ⟨rfl, -⟩ := List.cons.inj hq
    exact absurd (hall 0x7B (by simp [hc])) (by decide)

theorem length_filter_accepted (as : List Attempt) : ((accepted as).filter (· != 10)).length
    = ((acknowledged as).map lineBytes).flatten.length + ((leavings as).filter (· != 10)).length := by
  induction as with
  | nil => rfl
  | cons a as ih =>
    rw [accepted_cons, List.filter_append, List.length_append, ih]
    cases hc : a.cut with
    | none =>
      have hack : acknowledged (a :: as) = a.record :: acknowledged as := by simp [acknowledged, hc]
      have hleft : leavings (a :: as) = leavings as := by simp [leavings, hc]
      rw [a.bytes_of_succeeds hc, filter_bytesOf, hack, hleft, List.map_cons, List.flatten_cons, List.length_append]
      omega
    | some n =>
      have hack : acknowledged (a :: as) = acknowledged as := by simp [acknowledged, hc]
      have hleft : leavings (a :: as) = a.bytes ++ leavings as := by simp [leavings, hc]
      rw [hack, hleft, List.filter_append, List.length_append]
      omega

end RecordLog

/-! ## In a run -/

open RecordLog (lineBytes rowsOf accepted acknowledged endsMidLine)

/-- No attempt to append a record has left a part of one. -/
def RunEvent.Untorn (es : List RunEvent) : Prop :=
  ∀ a ∈ attemptsIn es, a.cut = none ∨ a.cut = some 0

/-- Where each attempt leaves a whole record or nothing, the rows of a log are those that it had and those records. -/
theorem rowsOf_attemptsIn {es : List RunEvent} (h : RunEvent.Untorn es) {log : Bytes}
    (hlog : endsMidLine log = false) :
    rowsOf (log ++ accepted (attemptsIn es)) = rowsOf log ++ (storedIn es).map fun x => lineBytes x.2 := by
  rw [RecordLog.rowsOf_append hlog, RecordLog.accepted_of_cut h, RunEvent.acknowledged_attemptsIn,
    RecordLog.rowsOf_records, List.map_map]
  rfl

/-- The rows that a run leaves hold as much as those that a log had and the records that were stored, exactly when no
attempt left a part of a record. -/
theorem length_flatten_rowsOf_iff (es : List RunEvent) {log : Bytes} (hlog : endsMidLine log = false) :
    (rowsOf (log ++ accepted (attemptsIn es))).flatten.length
        = (rowsOf log).flatten.length + ((storedIn es).map fun x => lineBytes x.2).flatten.length
      ↔ RunEvent.Untorn es := by
  have hstored : ((storedIn es).map fun x => lineBytes x.2) = (acknowledged (attemptsIn es)).map lineBytes := by
    rw [RunEvent.acknowledged_attemptsIn, List.map_map]
    rfl
  rw [RunEvent.Untorn, ← RecordLog.leavings_eq_nil_iff, ← RecordLog.filter_leavings_eq_nil_iff,
    ← List.length_eq_zero_iff, RecordLog.rowsOf_append hlog, List.flatten_append, List.length_append,
    RecordLog.flatten_rowsOf (accepted _), RecordLog.length_filter_accepted, hstored]
  omega

end Captioning
