import Captioning.Proofs.CutLogs
import Captioning.Proofs.SourceFiles
/-!
# Logs that are gone on with

A log that can be read is opened to go on and records are appended to it, whatever it holds: whole rows, blank or
malformed ones, or a row that breaks off. What it held stays in front, with a line feed behind it if its last row was
open (`exists_gap`), and loading it finds the identities that were found before and those of the records
(`appended_log`).
-/

namespace Captioning

open FileTree (appendAll)
open Captioning.Path (IsName join)

namespace RecordLog

/-! ## Behind a log -/

theorem endsMidLine_eq_false_iff (log : Bytes) : endsMidLine log = false ↔ log = [] ∨ log.getLast? = some 10 := by
  unfold endsMidLine
  cases h : log.getLast? with
  | none => simpa using List.getLast?_eq_none_iff.1 h
  | some b =>
    have hne : log ≠ [] := by
      rintro rfl
      cases h
    simp [hne]

/-- A log is continued with a line feed or with nothing, and with nothing exactly when no row is open. -/
theorem exists_gap (log : Bytes) : ∃ gap, continued log = log ++ gap ∧ (gap = [] ∨ gap = [10])
    ∧ (gap = [] ↔ log = [] ∨ log.getLast? = some 10) := by
  rw [← endsMidLine_eq_false_iff, continued]
  cases h : endsMidLine log with
  | false => exact ⟨[], by simp, .inl rfl, by simp⟩
  | true => exact ⟨[10], by simp, .inr rfl, by simp⟩

/-- What a log holds that was continued and appended to: the old identities and the new ones. -/
theorem mem_identities_extended (log : Bytes) (rs : List Record) (id : String) :
    id ∈ identities (continued log ++ rs.flatMap bytesOf) ↔ id ∈ identities log ∨ id ∈ rs.map (·.id) := by
  rw [identities_records (endsMidLine_continued log), identities_continued, List.mem_append]

/-! ## In a file -/

section Files
variable {t u : FileTree} {dir n path : String} {log : Bytes}

/-- What stands at a name in a directory can be read only if the directory is there. -/
theorem exists_folder_of_read (hn : IsName n) (h : t.read (join dir n) = .ok log) : ∃ p, t.Folder dir p := by
  obtain ⟨node, hl, -⟩ := bind_eq_ok.1 h
  obtain ⟨q, hq, -⟩ := bind_eq_ok.1 hl
  obtain ⟨p, hf, -⟩ := (FileTree.place_join hn).1 hq
  exact ⟨p, hf⟩

/-- Records are written when their lines can be appended. -/
theorem writeRecords_of_appendAll (records : List Record) (k : Nat)
    (h : t.appendAll path (records.map bytesOf) = .ok u) :
    Command.writeRecords t ⟨path, k⟩ records = .ok (u, ⟨path, k + records.length⟩) := by
  unfold Command.writeRecords
  induction records generalizing t k with
  | nil =>
    obtain rfl : t = u := Except.ok.inj h
    rfl
  | cons r records ih =>
    rw [List.map_cons, appendAll, List.foldlM_cons] at h
    obtain ⟨v, hv, h⟩ := bind_eq_ok.1 h
    have hr : append t ⟨path, k⟩ r = .ok (v, ⟨path, k + 1⟩) := by
      rw [append, hv]
      rfl
    rw [List.foldlM_cons, List.length_cons, Nat.add_comm records.length, ← Nat.add_assoc]
    dsimp only
    rw [hr]
    exact ih (k + 1) h

/-- A log that is there is opened to go on, and any records are appended to it. -/
theorem exists_extended (hn : IsName n) (h : t.read (join dir n) = .ok log) (rs : List Record) :
    ∃ u r notices v r', openAt t (join dir n) .extend = .ok (u, r, notices)
      ∧ Command.writeRecords u r rs = .ok (v, r')
      ∧ v.read (join dir n) = .ok (continued log ++ rs.flatMap bytesOf) := by
  obtain ⟨p, hf⟩ := exists_folder_of_read hn h
  have hl := heldAt_of_read h
  have hd := hf.not_directory hn hl
  obtain ⟨u, r, notices, ho, hu⟩ := hf.openAt_eq hn hl .extend
  have hfu := hf.grown (hu.grown hd)
  obtain ⟨v, hv, hr⟩ := hfu.appendAll_eq hn hu.file (rs.map bytesOf)
  have hdu : u.get? (p ++ [n]) ≠ some .directory := by simp [hu.file]
  obtain ⟨k, hk⟩ : ∃ k, r = ⟨join dir n, k⟩ := ⟨r.written, by rw [← (look_of_openAt ho).1]⟩
  rw [List.flatMap_def]
  exact ⟨u, r, notices, v, _, ho, hk ▸ writeRecords_of_appendAll rs k hv,
    (hfu.grown (hr.grown hdu)).read_file hn hr.file⟩

/-- A log that is a text is opened to go on and records are appended. Its bytes stay in front; a line feed is put behind
them unless it was empty or ended with one, and then the lines of the records follow. Loaded, it has the identities that
it had before and those of the records, and no others. -/
theorem appended_log (hn : IsName n) (h : t.read (join dir n) = .ok log) (ht : Utf8.IsText log) (rs : List Record) :
    ∃ u r notices v r' gap, openAt t (join dir n) .extend = .ok (u, r, notices)
      ∧ Command.writeRecords u r rs = .ok (v, r')
      ∧ v.read (join dir n) = .ok (log ++ gap ++ rs.flatMap bytesOf)
      ∧ (gap = [] ∨ gap = [10]) ∧ (gap = [] ↔ log = [] ∨ log.getLast? = some 10)
      ∧ ∃ old oldNotices new newNotices, loadSkipSet t (join dir n) = .ok (old, oldNotices)
        ∧ loadSkipSet v (join dir n) = .ok (new, newNotices)
        ∧ ∀ id, new.contains id = true ↔ old.contains id = true ∨ id ∈ rs.map (·.id) := by
  obtain ⟨u, r, notices, v, r', ho, hw, hv⟩ := exists_extended hn h rs
  obtain ⟨gap, hgap, hone, hnone⟩ := exists_gap log
  obtain ⟨old, oldNotices, hold, hids⟩ := loadSkipSet_of_isText (heldAt_of_read h) ht
  obtain ⟨new, newNotices, hnew, hids'⟩ := loadSkipSet_of_isText (heldAt_of_read hv) ((isText_records log rs).2 ht)
  refine ⟨u, r, notices, v, r', gap, ho, hw, hgap ▸ hv, hone, hnone, old, oldNotices, new, newNotices, hold, hnew,
    fun id => ?_⟩
  rw [hids', hids, mem_identities_extended]

end Files

/-! ## A log that breaks off -/

namespace OpenLog

/-- A log with a record, a blank row and a row that is none, and a last row that breaks off behind a return. -/
def text : String :=
  "\x7b\"id\":\"a\"\x7d\r\n \r\nnone\n\x7b\"id\":\"é\"\r"

def tree : FileTree :=
  ⟨[], [(["out"], .directory), (["out", "log"], .file (Utf8.ofString text))]⟩

/-- A record with an identity that the log has. -/
def record : Record :=
  ⟨"a", "u", some "é", "", ⟨"A cat.", "unknown", .one "", .one "", "", ["cat"]⟩, ⟨⟨2024, 1, 1⟩, 0, 0⟩⟩

end OpenLog

open OpenLog in
/-- The row that breaks off is ended by a line feed of its own. -/
theorem appended_open_log : IsName "log" ∧ tree.read (join "out" "log") = .ok (Utf8.ofString text)
    ∧ Utf8.IsText (Utf8.ofString text)
    ∧ ∃ u r notices v r', openAt tree (join "out" "log") .extend = .ok (u, r, notices)
      ∧ Command.writeRecords u r [record, SplitLog.record] = .ok (v, r')
      ∧ v.read (join "out" "log") = .ok (Utf8.ofString text ++ [10] ++ [record, SplitLog.record].flatMap bytesOf)
      ∧ ∃ old oldNotices new newNotices, loadSkipSet tree (join "out" "log") = .ok (old, oldNotices)
        ∧ loadSkipSet v (join "out" "log") = .ok (new, newNotices)
        ∧ ∀ id, new.contains id = true ↔ old.contains id = true ∨ id ∈ ["a", "é"] := by
  have hn : IsName "log" := by decide
  have hread : tree.read (join "out" "log") = .ok (Utf8.ofString text) := by decide +kernel
  have hlast : (Utf8.ofString text).getLast? = some 13 := by decide +kernel
  have ht : Utf8.IsText (Utf8.ofString text) := Utf8.isText_encode text.toList
  obtain ⟨u, r, notices, v, r', gap, ho, hw, hv, hone, hnone, hload⟩ :=
    appended_log hn hread ht [record, SplitLog.record]
  have hgap : gap = [10] := by
    refine hone.resolve_left fun he => ?_
    rcases hnone.1 he with he | he
    · rw [he] at hlast
      cases hlast
    · rw [hlast] at he
      cases he
  exact ⟨hn, hread, ht, u, r, notices, v, r', ho, hw, hgap ▸ hv, hload⟩

end RecordLog

end Captioning
