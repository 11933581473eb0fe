import Captioning.Proofs.LogFiles
/-!
# Logs that were cut

A crash may cut a log off behind any byte. A log of records that was cut holds the identities of the records whose
line lies wholly in front of the cut (`mem_identities_cut`), and it can be read exactly when the cut falls between
two characters (`isText_cut_iff`). To continue the log and append to it adds the new identities, but does not make
a log readable that is not (`cut_log_resumed`).
-/

namespace Captioning

namespace Utf8

/-- The first `n` bytes of a text end where one of its characters does. -/
def BetweenChars (s : List Char) (n : Nat) : Prop :=
  ∃ k, (encode s).take n = encode (s.take k)

theorem isText_take_iff (s : List Char) (n : Nat) : IsText ((encode s).take n) ↔ BetweenChars s n := by
  constructor
  · intro h
    exact (take_encode s n).resolve_right fun ht => ht.not_isText h
  · rintro ⟨k, hk⟩
    rw [hk]
    exact isText_encode _

end Utf8

namespace RecordLog

/-! ## The records in front of a cut -/

/-- A record of a log whose line, but for the line feed, lies wholly in the first `n` bytes. -/
def LiesBefore (rs : List Record) (n : Nat) (r : Record) : Prop :=
  ∃ front behind, rs = front ++ r :: behind ∧ (front.flatMap bytesOf).length + (lineBytes r).length ≤ n

theorem not_liesBefore_nil (n : Nat) (r : Record) : ¬ LiesBefore [] n r := by
  rintro ⟨front, behind, he, -⟩
  cases front <;> cases he

/-- The first record lies before a cut, or the cut is behind all of its line and another one lies before it. -/
theorem liesBefore_cons (r' : Record) (rs : List Record) (n : Nat) (r : Record) : LiesBefore (r' :: rs) n r
    ↔ r = r' ∧ (lineBytes r').length ≤ n
      ∨ (bytesOf r').length ≤ n ∧ LiesBefore rs (n - (bytesOf r').length) r := by
  constructor
  · rintro ⟨front, behind, he, hn⟩
    cases front with
    | nil =>
      obtain ⟨rfl, rfl⟩ := List.cons.inj he
      exact .inl ⟨rfl, by simpa using hn⟩
    | cons r'' front =>
      obtain ⟨rfl, rfl⟩ := List.cons.inj he
      rw [List.flatMap_cons, List.length_append] at hn
      exact .inr ⟨by omega, front, behind, rfl, by omega⟩
  · rintro (⟨rfl, hn⟩ | ⟨hle, front, behind, rfl, hn⟩)
    · exact ⟨[], rs, rfl, by simpa using hn⟩
    · refine ⟨r' :: front, behind, rfl, ?_⟩
      rw [List.flatMap_cons, List.length_append]
      omega

theorem length_bytesOf (r : Record) : (bytesOf r).length = (lineBytes r).length + 1 := by
  rw [bytesOf_eq, List.length_append, List.length_singleton]

theorem identities_bytesOf (r : Record) : identities (bytesOf r) = [r.id] := by
  rw [bytesOf_eq, identities, rowsOf_row_feed (feed_notMem_lineBytes r)]
  simp [rowId?_lineBytes]

theorem endsMidLine_bytesOf (r : Record) : endsMidLine (bytesOf r) = false := by
  rw [bytesOf_eq]
  exact endsMidLine_append_newline _

/-- What a front of one record's line leaves: its identity, once all but the line feed is there. -/
theorem identities_front (r : Record) {n : Nat} (hn : n ≤ (lineBytes r).length) :
    identities ((bytesOf r).take n) = if n = (lineBytes r).length then [r.id] else [] := by
  rw [bytesOf_eq, List.take_append_of_le_length hn]
  have hp : (lineBytes r).take n <+: lineBytes r := List.take_prefix n _
  by_cases hnil : (lineBytes r).take n = []
  · have : n ≠ (lineBytes r).length := by
      rintro rfl
      rw [List.take_length] at hnil
      exact lineBytes_ne_nil r hnil
    rw [hnil, if_neg this]
    rfl
  · have hfeed : 10 ∉ (lineBytes r).take n := fun hm => feed_notMem_lineBytes r (hp.subset hm)
    rw [identities, rowsOf_row hfeed hnil]
    by_cases h : n = (lineBytes r).length
    · rw [if_pos h, h, List.take_length]
      simp [rowId?_lineBytes]
    · have hne : (lineBytes r).take n ≠ lineBytes r := by
        intro he
        have := congrArg List.length he
        rw [List.length_take] at this
        omega
      rw [if_neg h]
      simp [rowId?_front hp hne]

/-- A log that was cut holds the identities of the records that lie before the cut. -/
theorem mem_identities_cut (rs : List Record) (n : Nat) (id : String) :
    id ∈ identities ((rs.flatMap bytesOf).take n) ↔ ∃ r, LiesBefore rs n r ∧ r.id = id := by
  induction rs generalizing n with
  | nil => simp [identities, rowsOf, not_liesBefore_nil]
  | cons r rs ih =>
    have hlen := length_bytesOf r
    simp only [liesBefore_cons, or_and_right, exists_or]
    rw [List.flatMap_cons, List.take_append]
    rcases Nat.lt_or_ge n (bytesOf r).length with hn | hn
    · -- the cut falls into the line of this record
      rw [Nat.sub_eq_zero_of_le (Nat.le_of_lt hn), List.take_zero, List.append_nil, identities_front r (by omega)]
      have hno : ¬ (bytesOf r).length ≤ n := by omega
      by_cases h : n = (lineBytes r).length
      · have : (lineBytes r).length ≤ n := Nat.le_of_eq h.symm
        rw [if_pos h]
        simp [hno, this, @eq_comm _ id]
      · have : ¬ (lineBytes r).length ≤ n := by omega
        rw [if_neg h]
        simp [hno, this]
    · rw [List.take_of_length_le hn, identities_append (endsMidLine_bytesOf r), identities_bytesOf, List.mem_append,
        ih]
      have : (lineBytes r).length ≤ n := by omega
      simp [hn, this, @eq_comm _ id]

/-! ## Cuts between characters -/

/-- The characters of a log of records. -/
def logText (rs : List Record) : List Char :=
  rs.flatMap fun r => r.text ++ ['\n']

theorem encode_logText (rs : List Record) : Utf8.encode (logText rs) = rs.flatMap bytesOf := by
  induction rs with
  | nil => rfl
  | cons r rs ih =>
    rw [List.flatMap_cons, ← ih, logText, List.flatMap_cons, Utf8.encode_append, Utf8.encode_append, bytesOf_eq]
    rfl

/-- A log that was cut is a text exactly when the cut falls between two characters. -/
theorem isText_cut_iff (rs : List Record) (n : Nat) :
    Utf8.IsText ((rs.flatMap bytesOf).take n) ↔ Utf8.BetweenChars (logText rs) n := by
  rw [← encode_logText, Utf8.isText_take_iff]

/-! ## Going on with a log -/

theorem accepted_whole (rs : List Record) : accepted (rs.map fun r => ⟨r, none⟩) = rs.flatMap bytesOf := by
  rw [accepted, List.flatMap_map]
  rfl

theorem identities_records {log : Bytes} (h : endsMidLine log = false) (rs : List Record) :
    identities (log ++ rs.flatMap bytesOf) = identities log ++ rs.map (·.id) := by
  rw [← accepted_whole, identities_attempts h, leftBy_of_cut (by simp)]
  simp [acknowledged, List.filter_map, Function.comp_def]

/-- Whole records do not change whether a log can be read. -/
theorem isText_records (log : Bytes) (rs : List Record) :
    Utf8.IsText (continued log ++ rs.flatMap bytesOf) ↔ Utf8.IsText log := by
  have hc : Utf8.IsText (continued log) ↔ Utf8.IsText log := by
    rw [← exists_scan_iff, ← exists_scan_iff]
    exact exists_congr fun ls => scan_continued
  rw [← accepted_whole, isText_attempts, hc]
  refine and_iff_left fun a ha => ?_
  obtain ⟨r, -, rfl⟩ := List.mem_map.1 ha
  exact isText_bytesOf r

/-! ## Reading a log -/

section Files

variable {t u v : FileTree} {path : String} {log : Bytes}

theorem heldAt_of_read (h : t.read path = .ok log) : heldAt t path = some log := by
  obtain ⟨node, hl, hn⟩ := bind_eq_ok.1 h
  obtain ⟨p, hp, hg⟩ := bind_eq_ok.1 hl
  refine heldAt_eq_some.2 ⟨p, hp, .inl ?_⟩
  cases node with
  | directory => cases hn
  | file content =>
    obtain rfl := Except.ok.inj hn
    split at hg
    · next n hn => rw [hn, Except.ok.inj hg]
    · cases hg

/-- A log that is a text is loaded, and the identities that are found are those of its rows. -/
theorem loadSkipSet_of_isText (hl : heldAt t path = some log) (ht : Utf8.IsText log) :
    ∃ skip notices, loadSkipSet t path = .ok (skip, notices)
      ∧ ∀ id, skip.contains id = true ↔ id ∈ identities log := by
  unfold loadSkipSet
  rcases read_of_heldAt hl with hr | ⟨hr, rfl⟩
  · obtain ⟨ls, hs⟩ := (exists_scan_iff log).2 ht
    refine ⟨skipSetOf ls, loadNotices path ls, by rw [hr]; simp [hs], fun id => ?_⟩
    rw [← idsOf_scan hs]
    simp [skipSetOf]
  · refine ⟨.empty, _, by rw [hr]; rfl, fun id => ?_⟩
    simp [identities, rowsOf]

/-- Any other log is refused. -/
theorem loadSkipSet_of_not_isText (hl : heldAt t path = some log) (ht : ¬ Utf8.IsText log) :
    ∃ f, loadSkipSet t path = .error f := by
  unfold loadSkipSet
  rcases read_of_heldAt hl with hr | ⟨-, rfl⟩
  · rw [hr]
    cases hs : scan log with
    | error f => exact ⟨.output path (.notTextAt f), by simp [hs]⟩
    | ok ls => exact absurd ((exists_scan_iff log).1 ⟨ls, hs⟩) ht
  · exact absurd Utf8.isText_nil ht

/-- What is in the file of a log that was opened to go on, and to which records were appended. -/
theorem heldAt_resumed {r r' : RecordLog} {notices : List String} {more : List Record} (hl : heldAt t path = some log)
    (ho : openAt t path .extend = .ok (u, r, notices)) (hw : Command.writeRecords u r more = .ok (v, r')) :
    heldAt v path = some (continued log ++ more.flatMap bytesOf) := by
  obtain ⟨hu, hr⟩ := heldAt_openAt hl ho
  have hv := heldAt_writeRecords (hr.symm ▸ hu) hw
  rwa [hr] at hv

/-- A log of records that was cut between two characters is loaded with the identities of the records before the
cut, and once it has been opened to go on and appended to, with those and the new ones. A log that was cut inside of
a character is refused, and is still refused when it has been gone on with. -/
theorem cut_log_resumed (rs : List Record) (n : Nat) (h : t.read path = .ok ((rs.flatMap bytesOf).take n)) :
    (Utf8.BetweenChars (logText rs) n →
      (∃ skip notices, loadSkipSet t path = .ok (skip, notices)
        ∧ ∀ id, skip.contains id = true ↔ ∃ r, LiesBefore rs n r ∧ r.id = id)
      ∧ ∀ more u r ns v r', openAt t path .extend = .ok (u, r, ns) → Command.writeRecords u r more = .ok (v, r') →
        ∃ skip notices, loadSkipSet v path = .ok (skip, notices)
          ∧ ∀ id, skip.contains id = true ↔ (∃ r, LiesBefore rs n r ∧ r.id = id) ∨ id ∈ more.map (·.id))
    ∧ (¬ Utf8.BetweenChars (logText rs) n →
      (∃ f, loadSkipSet t path = .error f)
      ∧ ∀ more u r ns v r', openAt t path .extend = .ok (u, r, ns) → Command.writeRecords u r more = .ok (v, r') →
        ∃ f, loadSkipSet v path = .error f) := by
  have hl := heldAt_of_read h
  rw [← isText_cut_iff]
  refine ⟨fun ht => ⟨?_, fun more u r ns v r' ho hw => ?_⟩, fun ht => ⟨?_, fun more u r ns v r' ho hw => ?_⟩⟩
  · obtain ⟨skip, notices, hs, hc⟩ := loadSkipSet_of_isText hl ht
    exact ⟨skip, notices, hs, fun id => (hc id).trans (mem_identities_cut rs n id)⟩
  · obtain ⟨skip, notices, hs, hc⟩ :=
      loadSkipSet_of_isText (heldAt_resumed hl ho hw) ((isText_records _ more).2 ht)
    refine ⟨skip, notices, hs, fun id => ?_⟩
    rw [hc, identities_records (endsMidLine_continued _), identities_continued, List.mem_append, mem_identities_cut]
  · exact loadSkipSet_of_not_isText hl ht
  · exact loadSkipSet_of_not_isText (heldAt_resumed hl ho hw) fun hm => ht ((isText_records _ more).1 hm)

end Files

/-! ## A log that was cut inside of a character -/

namespace SplitLog

/-- A record whose identity is a character of two bytes. -/
def record : Record :=
  ⟨"é", "u", none, "", ⟨"A cat.", "unknown", .one "", .one "", "", ["cat"]⟩, ⟨⟨2024, 1, 1⟩, 0, 0⟩⟩

/-- The first bytes of the log of the record, up to the middle of the character. -/
def front : Bytes :=
  [0x7B, 0x22, 0x69, 0x64, 0x22, 0x3A, 0x22, 0xC3]

theorem front_eq : ([record].flatMap bytesOf).take 8 = front := by decide +kernel

theorem take_front {n : Nat} (hn : n ≤ 8) : ([record].flatMap bytesOf).take n = front.take n := by
  rw [← front_eq, List.take_take, Nat.min_eq_left hn]

/-- The first `n` of these bytes, in a file. -/
def files (n : Nat) : FileTree :=
  ⟨[], [(["log"], .file (front.take n))]⟩

/-- The files when that log has been opened to go on, and the record has been appended. -/
def resumed (n : Nat) : Option FileTree := do
  let (u, r, _) ← (openAt (files n) "log" .extend).toOption
  let (v, _) ← (Command.writeRecords u r [record]).toOption
  return v

theorem exists_resumed {n : Nat} (h : (resumed n).isSome = true) : ∃ u r ns v r',
    openAt (files n) "log" .extend = .ok (u, r, ns) ∧ Command.writeRecords u r [record] = .ok (v, r') := by
  unfold resumed at h
  cases ho : openAt (files n) "log" .extend with
  | error f => simp [ho, Except.toOption] at h
  | ok x =>
    obtain ⟨u, r, ns⟩ := x
    cases hw : Command.writeRecords u r [record] with
    | error f => simp [ho, hw, Except.toOption] at h
    | ok y => exact ⟨u, r, ns, y.1, y.2, rfl, hw⟩

theorem betweenChars : Utf8.BetweenChars (logText [record]) 7 := by
  rw [← isText_cut_iff, take_front (by decide)]
  exact Utf8.isText_encode ['{', '"', 'i', 'd', '"', ':', '"']

/-- The cut behind the eighth byte splits the identity. -/
theorem not_betweenChars : ¬ Utf8.BetweenChars (logText [record]) 8 := by
  have htorn : Utf8.Torn [0xC3] :=
    Utf8.torn_of_cut (show String.utf8EncodeChar 'é' = [0xC3] ++ [0xA9] by decide) (by simp) (by simp)
  rw [← isText_cut_iff, front_eq]
  exact (htorn.encode_append ['{', '"', 'i', 'd', '"', ':', '"']).not_isText

end SplitLog

open SplitLog in
/-- In front of the character the log can be gone on with. Inside of it the log is refused, before and after. -/
theorem split_log_refused :
    (∃ u r ns v r' skip notices, openAt (files 7) "log" .extend = .ok (u, r, ns)
      ∧ Command.writeRecords u r [record] = .ok (v, r') ∧ loadSkipSet v "log" = .ok (skip, notices)
      ∧ skip.contains "é" = true)
    ∧ (∃ f, loadSkipSet (files 8) "log" = .error f)
    ∧ ∃ u r ns v r' f, openAt (files 8) "log" .extend = .ok (u, r, ns)
      ∧ Command.writeRecords u r [record] = .ok (v, r') ∧ loadSkipSet v "log" = .error f := by
  have hread7 : (files 7).read "log" = .ok (([record].flatMap bytesOf).take 7) := by
    rw [take_front (by decide)]
    decide +kernel
  have hread8 : (files 8).read "log" = .ok (([record].flatMap bytesOf).take 8) := by
    rw [take_front (by decide)]
    decide +kernel
  obtain ⟨-, hwhole⟩ := (cut_log_resumed [record] 7 hread7).1 betweenChars
  obtain ⟨hload, hsplit⟩ := (cut_log_resumed [record] 8 hread8).2 not_betweenChars
  obtain ⟨u, r, ns, v, r', ho, hw⟩ := exists_resumed (n := 7) (by decide +kernel)
  obtain ⟨u', s, ns', v', s', ho', hw'⟩ := exists_resumed (n := 8) (by decide +kernel)
  obtain ⟨skip, notices, hs, hc⟩ := hwhole [record] u r ns v r' ho hw
  obtain ⟨f, hf⟩ := hsplit [record] u' s ns' v' s' ho' hw'
  exact ⟨⟨u, r, ns, v, r', skip, notices, ho, hw, hs, (hc "é").2 (.inr (by simp [record]))⟩, hload,
    u', s, ns', v', s', f, ho', hw', hf⟩

end RecordLog

end Captioning
