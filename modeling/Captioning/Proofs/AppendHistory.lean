import Captioning.Proofs.RecordRows
/-!
# What a log holds after attempts to append

An attempt to append a record gives the log the record's line, or when it fails some front of that line. The
next attempt goes on right behind it. So a log holds, beside what it held, the records whose line starts a row
and is whole (`identities_attempts`), and it can be read as long as no attempt was cut off inside of a
character (`isText_attempts`). Which records are found again follows from that: all that were acknowledged, exactly
when each of their lines starts a row (`acknowledged_recovered_iff`, `startsRows_iff`).
-/

namespace Captioning.RecordLog

/-! ## Scraps -/

/-- The bytes of a record's line without its line feed. -/
def lineBytes (r : Record) : Bytes :=
  Utf8.encode r.text

theorem bytesOf_eq (r : Record) : bytesOf r = lineBytes r ++ [10] := by
  rw [bytesOf, Utf8.ofString, r.toList_line, lineBytes]

theorem lineBytes_ne_nil (r : Record) : lineBytes r ≠ [] := by
  obtain ⟨t, ht⟩ := r.text_start
  rw [lineBytes, ht, Utf8.encode_cons]
  simp

theorem feed_notMem_lineBytes (r : Record) : 10 ∉ lineBytes r := by
  rw [lineBytes, Utf8.feed_mem_encode]
  exact r.feed_notMem_text

theorem lineBytes_start (r : Record) : ∃ b, lineBytes r = 0x7B :: b := by
  obtain ⟨t, ht⟩ := r.text_start
  exact ⟨_, by rw [lineBytes, ht, Utf8.encode_cons]; rfl⟩

/-- Bytes that cut-off lines of records have left in a row, one behind the other. -/
inductive Scraps : Bytes → Prop
  | nil : Scraps []
  | cons {p rest : Bytes} {r : Record} (hne : p ≠ []) (hp : p <+: lineBytes r) (h : Scraps rest) :
    Scraps (p ++ rest)

theorem fresh_of_front {p : Bytes} {r : Record} (hp : p <+: lineBytes r) (hne : p ≠ []) (rest : Bytes) :
    Utf8.Fresh (p ++ rest) := by
  obtain ⟨q, hq⟩ := hp
  obtain ⟨b, hb⟩ := lineBytes_start r
  obtain ⟨c, p, rfl⟩ := List.exists_cons_of_ne_nil hne
  obtain ⟨rfl, -⟩ := List.cons.inj (hq.trans hb)
  rw [List.cons_append, Utf8.fresh_cons]
  decide

theorem Scraps.fresh {b : Bytes} (h : Scraps b) : Utf8.Fresh b := by
  cases h with
  | nil => exact Utf8.fresh_nil
  | cons hne hp h => exact fresh_of_front hp hne _

theorem Scraps.feed_notMem {b : Bytes} (h : Scraps b) : 10 ∉ b := by
  induction h with
  | nil => simp
  | @cons p rest r hne hp h ih =>
    rw [List.mem_append, not_or]
    exact ⟨fun hm => feed_notMem_lineBytes r (hp.subset hm), ih⟩

theorem Scraps.of_front {p : Bytes} {r : Record} (hp : p <+: lineBytes r) : Scraps p := by
  by_cases hne : p = []
  · exact hne ▸ .nil
  · simpa using Scraps.cons hne hp .nil

theorem Scraps.append {a b : Bytes} (ha : Scraps a) (hb : Scraps b) : Scraps (a ++ b) := by
  induction ha with
  | nil => exact hb
  | cons hne hp h ih =>
    rw [List.append_assoc]
    exact .cons hne hp ih

/-- A front of a record's line is a front of its text, or it was cut off inside of a character. -/
theorem text_of_front {p : Bytes} {r : Record} (hp : p <+: lineBytes r) :
    (∃ s, s <+: r.text ∧ p = Utf8.encode s) ∨ Utf8.Torn p := by
  rw [List.prefix_iff_eq_take] at hp
  rcases Utf8.take_encode r.text p.length with ⟨k, hk⟩ | ht
  · exact .inl ⟨r.text.take k, List.take_prefix k _, hp.trans hk⟩
  · exact .inr (by rwa [hp])

/-- Scraps that are a text may follow whatever breaks off. -/
theorem Scraps.follows {b : Bytes} (h : Scraps b) :
    (∃ s, b = Utf8.encode s ∧ Json.Follows Json.Stray s ∧ (b ≠ [] → Json.skipSpace s ≠ [])) ∨ Utf8.Torn b := by
  induction h with
  | nil => exact .inl ⟨[], rfl, Json.follows_nil.toStray, fun h => absurd rfl h⟩
  | @cons p rest r hne hp h ih =>
    rcases text_of_front hp with ⟨s, hs, rfl⟩ | ht
    · rcases ih with ⟨u, rfl, hu, -⟩ | ht
      · have hf : Record.IsFront s r := ⟨by rintro rfl; exact hne rfl, hs⟩
        refine .inl ⟨s ++ u, (Utf8.encode_append s u).symm, hf.follows hu, fun _ => ?_⟩
        obtain ⟨t, rfl⟩ := hf.exists_brace
        rw [List.cons_append, Json.skipSpace_cons rfl]
        simp
      · exact .inr (ht.encode_append s)
    · exact .inr (ht.append h.fresh)

/-- The whole line of a record is a row that stands for it. -/
theorem rowId?_lineBytes (r : Record) : rowId? (lineBytes r) = some r.id := by
  have hl := ofText_line r (show Json.skipSpace [] = [] from rfl)
  rw [List.append_nil] at hl
  rw [rowId?, lineBytes, rowLine?_of_ok (Utf8.decodeFrom_encode r.text 0), hl]
  rfl

/-- A row of scraps stands for a record only if it is the whole line of one. -/
theorem rowId?_scraps {p rest : Bytes} {r : Record} (hne : p ≠ []) (hp : p <+: lineBytes r) (h : Scraps rest)
    (hn : p ≠ lineBytes r ∨ rest ≠ []) : rowId? (p ++ rest) = none := by
  have none_of_torn : ∀ b, Utf8.Torn b → rowId? b = none := by
    intro b hb
    rw [rowId?, (rowLine?_eq_none_iff b).2 hb.not_isText]
    rfl
  rcases text_of_front hp with ⟨s, hs, rfl⟩ | ht
  · rcases h.follows with ⟨u, rfl, hu, hb⟩ | ht
    · have hf : Record.IsFront s r := ⟨by rintro rfl; exact hne rfl, hs⟩
      have hsu : s ≠ r.text ∨ Json.skipSpace u ≠ [] := by
        rcases hn with hn | hn
        · exact .inl fun e => hn (by rw [e]; rfl)
        · exact .inr (hb hn)
      rw [← Utf8.encode_append, rowId?, rowLine?_of_ok (Utf8.decodeFrom_encode (s ++ u) 0), ofText_front hf hu hsu]
      rfl
    · exact none_of_torn _ (ht.encode_append s)
  · exact none_of_torn _ (ht.append h.fresh)

theorem rowId?_nil : rowId? [] = none := by
  rw [rowId?, rowLine?_of_ok (Utf8.decodeFrom_nil 0)]
  rfl

theorem rowId?_scraps_append {row p : Bytes} (h : Scraps row) (hrow : row ≠ []) (hp : p ≠ []) (hs : Scraps p) :
    rowId? (row ++ p) = none := by
  cases h with
  | nil => exact absurd rfl hrow
  | cons hne hq h =>
    rw [List.append_assoc]
    exact rowId?_scraps hne hq (h.append hs) (.inr (by simp [hp]))

/-! ## Attempts -/

/-- An attempt to append a record. -/
structure Attempt where
  record : Record
  /-- How many bytes the log had taken when the attempt failed, if it did. -/
  cut : Option Nat

/-- The bytes that an attempt gives to the log. -/
def Attempt.bytes (a : Attempt) : Bytes :=
  match a.cut with
  | none => bytesOf a.record
  | some n => (bytesOf a.record).take n

/-- The bytes that attempts give to the log. -/
def accepted (as : List Attempt) : Bytes :=
  as.flatMap Attempt.bytes

/-- The records of the attempts that succeeded. -/
def acknowledged (as : List Attempt) : List Record :=
  (as.filter fun a => a.cut.isNone).map Attempt.record

@[simp] theorem accepted_nil : accepted [] = [] := rfl

@[simp] theorem accepted_cons (a : Attempt) (as : List Attempt) : accepted (a :: as) = a.bytes ++ accepted as := rfl

/-- An attempt gives the whole line with its line feed, or a front of what stands before that. -/
theorem Attempt.bytes_cases (a : Attempt) : a.bytes = bytesOf a.record ∨ a.bytes <+: lineBytes a.record := by
  obtain ⟨r, _ | n⟩ := a
  · exact .inl rfl
  · show (bytesOf r).take n = _ ∨ (bytesOf r).take n <+: _
    rw [bytesOf_eq]
    rcases Nat.lt_or_ge (lineBytes r).length n with h | h
    · exact .inl (List.take_of_length_le (by rw [List.length_append, List.length_singleton]; omega))
    · rw [List.take_append_of_le_length h]
      exact .inr (List.take_prefix n _)

theorem endsMidLine_append_bytesOf (log : Bytes) (r : Record) : endsMidLine (log ++ bytesOf r) = false := by
  rw [bytesOf_eq, ← List.append_assoc]
  exact endsMidLine_append_newline _

theorem Attempt.fresh_bytes (a : Attempt) : Utf8.Fresh a.bytes := by
  rcases a.bytes_cases with h | h
  · obtain ⟨b, hb⟩ := lineBytes_start a.record
    rw [h, bytesOf_eq, hb, List.cons_append, Utf8.fresh_cons]
    decide
  · exact (Scraps.of_front h).fresh

theorem fresh_accepted (as : List Attempt) : Utf8.Fresh (accepted as) := by
  induction as with
  | nil => exact Utf8.fresh_nil
  | cons a as ih =>
    have ha := a.fresh_bytes
    rw [accepted_cons]
    cases h : a.bytes with
    | nil => exact ih
    | cons b bs =>
      rw [h] at ha
      rwa [List.cons_append, Utf8.fresh_cons, ← Utf8.fresh_cons b bs]

/-! ## What attempts leave -/

/-- The identities that attempts leave in the rows of a log, behind the open row. -/
def leftBy (row : Bytes) : List Attempt → List String
  | [] => (rowId? row).toList
  | a :: as =>
    if a.bytes = bytesOf a.record then (if row = [] then [a.record.id] else []) ++ leftBy [] as
    else leftBy (row ++ a.bytes) as

/-- The rows that are whole stay, and the attempts leave what they leave. -/
theorem identities_scraps (as : List Attempt) {log row : Bytes} (hlog : endsMidLine log = false)
    (hrow : Scraps row) : identities (log ++ row ++ accepted as) = identities log ++ leftBy row as := by
  induction as generalizing log row with
  | nil =>
    rw [accepted_nil, List.append_nil, identities_append hlog, leftBy]
    by_cases hr : row = []
    · subst hr
      simp [rowId?_nil, identities, rowsOf]
    · have hid : identities row = (rowId? row).toList := by
        rw [identities, rowsOf_row hrow.feed_notMem hr]
        cases h : rowId? row <;> simp [h]
      rw [hid]
  | cons a as ih =>
    rw [accepted_cons, leftBy]
    by_cases ha : a.bytes = bytesOf a.record
    · have hm : endsMidLine (log ++ (row ++ bytesOf a.record)) = false := by
        rw [← List.append_assoc]
        exact endsMidLine_append_bytesOf _ _
      have hi := ih hm .nil
      rw [List.append_nil, identities_append hlog] at hi
      rw [if_pos ha, ha, List.append_assoc, ← List.append_assoc row, ← List.append_assoc log, hi,
        List.append_assoc]
      have hline : 10 ∉ row ++ lineBytes a.record := by
        rw [List.mem_append, not_or]
        exact ⟨hrow.feed_notMem, feed_notMem_lineBytes a.record⟩
      have hid : identities (row ++ bytesOf a.record) = if row = [] then [a.record.id] else [] := by
        rw [bytesOf_eq, ← List.append_assoc, identities, rowsOf_row_feed hline]
        by_cases hr : row = []
        · simp [hr, rowId?_lineBytes]
        · have := rowId?_scraps_append hrow hr (lineBytes_ne_nil a.record) (.of_front (List.prefix_refl _))
          simp [hr, this]
      rw [hid]
    · have hp := a.bytes_cases.resolve_left ha
      rw [if_neg ha, ← List.append_assoc, List.append_assoc log, ih hlog (hrow.append (.of_front hp))]

/-- What a log holds after attempts: what it held, and what they leave. -/
theorem identities_attempts {log : Bytes} (h : endsMidLine log = false) (as : List Attempt) :
    identities (log ++ accepted as) = identities log ++ leftBy [] as := by
  simpa using identities_scraps as h .nil

theorem rowId?_front {p : Bytes} {r : Record} (hp : p <+: lineBytes r) (hne : p ≠ lineBytes r) :
    rowId? p = none := by
  by_cases h : p = []
  · rw [h, rowId?_nil]
  · simpa using rowId?_scraps h hp .nil (.inl hne)

/-- No attempt leaves more than its own identity, and in order. -/
theorem leftBy_sublist (as : List Attempt) {row : Bytes} (hrow : Scraps row) :
    (leftBy row as).Sublist ((rowId? row).toList ++ as.map fun a => a.record.id) := by
  induction as generalizing row with
  | nil => simp [leftBy]
  | cons a as ih =>
    rw [leftBy, List.map_cons]
    by_cases ha : a.bytes = bytesOf a.record
    · have hi := ih .nil
      rw [rowId?_nil] at hi
      rw [if_pos ha]
      by_cases hr : row = []
      · rw [if_pos hr, hr, rowId?_nil]
        exact hi.cons_cons _
      · rw [if_neg hr, List.nil_append]
        exact (hi.cons _).trans (List.sublist_append_right _ _)
    · have hp := a.bytes_cases.resolve_left ha
      have hi := ih (hrow.append (.of_front hp))
      rw [if_neg ha]
      refine hi.trans ?_
      rw [← List.singleton_append (l := as.map _), ← List.append_assoc]
      refine List.Sublist.append_right ?_ _
      by_cases hb : a.bytes = []
      · simp [hb]
      by_cases hr : row = []
      · rw [hr, List.nil_append, rowId?_nil]
        by_cases hl : a.bytes = lineBytes a.record
        · simp [hl, rowId?_lineBytes]
        · simp [rowId?_front hp hl]
      · simp [rowId?_scraps_append hrow hr hb (.of_front hp)]

/-- A log can be read after attempts if it could be before, and none was cut off inside of a character. -/
theorem isText_attempts (log : Bytes) (as : List Attempt) :
    Utf8.IsText (log ++ accepted as) ↔ Utf8.IsText log ∧ ∀ a ∈ as, Utf8.IsText a.bytes := by
  rw [Utf8.isText_append (fresh_accepted as)]
  refine and_congr_right fun _ => ?_
  induction as with
  | nil => simp
  | cons a as ih => rw [accepted_cons, Utf8.isText_append (fresh_accepted as), ih, List.forall_mem_cons]

/-! ## What is recovered -/

/-- Attempts keep an identity when the line of a record of it starts a row and is whole: its line feed
follows, or nothing at all does. -/
def Keeps (as : List Attempt) (id : String) : Prop :=
  ∃ front a behind, as = front ++ a :: behind ∧ a.record.id = id ∧ endsMidLine (accepted front) = false
    ∧ (a.bytes = bytesOf a.record ∨ a.bytes = lineBytes a.record ∧ accepted behind = [])

/-- The same behind an open row, which is the start of the first line. -/
def KeepsBehind (row : Bytes) (as : List Attempt) (id : String) : Prop :=
  ∃ front a behind, as = front ++ a :: behind ∧ a.record.id = id ∧ endsMidLine (row ++ accepted front) = false
    ∧ (a.bytes = bytesOf a.record ∨ a.bytes = lineBytes a.record ∧ accepted behind = [])

theorem keepsBehind_nil (as : List Attempt) (id : String) : KeepsBehind [] as id ↔ Keeps as id := Iff.rfl

/-- Scraps have no line feed, so they end a line only where there are none. -/
theorem endsMidLine_scraps {row : Bytes} (hrow : Scraps row) : endsMidLine row = false ↔ row = [] := by
  constructor
  · intro h
    by_cases hr : row = []
    · exact hr
    · rw [endsMidLine_of_notMem hrow.feed_notMem hr] at h
      cases h
  · rintro rfl
    rfl

theorem not_keepsBehind (row : Bytes) (id : String) : ¬ KeepsBehind row [] id := by
  rintro ⟨front, a, behind, he, -⟩
  cases front <;> cases he

/-- An identity is kept by the next attempt itself, if no row is open, or by one behind it. -/
theorem keepsBehind_cons {row : Bytes} (hrow : Scraps row) (a : Attempt) (as : List Attempt) (id : String) :
    KeepsBehind row (a :: as) id
      ↔ (a.record.id = id ∧ row = [] ∧ (a.bytes = bytesOf a.record ∨ a.bytes = lineBytes a.record ∧ accepted as = []))
        ∨ KeepsBehind (row ++ a.bytes) as id := by
  unfold KeepsBehind
  constructor
  · rintro ⟨_ | ⟨b, front⟩, a', behind, he, hid, hm, hw⟩
    · obtain ⟨rfl, rfl⟩ := List.cons.inj he
      rw [accepted_nil, List.append_nil] at hm
      exact .inl ⟨hid, (endsMidLine_scraps hrow).1 hm, hw⟩
    · obtain ⟨rfl, rfl⟩ := List.cons.inj he
      exact .inr ⟨front, a', behind, rfl, hid, by rwa [List.append_assoc], hw⟩
  · rintro (⟨hid, rfl, hw⟩ | ⟨front, a', behind, rfl, hid, hm, hw⟩)
    · exact ⟨[], a, as, rfl, hid, rfl, hw⟩
    · exact ⟨a :: front, a', behind, rfl, hid, by rwa [List.append_assoc] at hm, hw⟩

/-- A whole line ends the row that was open. -/
theorem keepsBehind_bytesOf (row : Bytes) (r : Record) (as : List Attempt) (id : String) :
    KeepsBehind (row ++ bytesOf r) as id ↔ KeepsBehind [] as id := by
  have hm : ∀ more, endsMidLine (row ++ bytesOf r ++ more) = endsMidLine ([] ++ more) := by
    intro more
    by_cases h : more = []
    · rw [h, List.append_nil]
      exact endsMidLine_append_bytesOf row r
    · rw [endsMidLine_append h, endsMidLine_append h]
  unfold KeepsBehind
  simp only [hm]

/-- What attempts leave behind an open row: its identity, if nothing else is written, and what they keep once
the row has ended. -/
theorem mem_leftBy {as : List Attempt} {row : Bytes} (hrow : Scraps row) {id : String} :
    id ∈ leftBy row as ↔ (rowId? row = some id ∧ accepted as = []) ∨ KeepsBehind row as id := by
  induction as generalizing row with
  | nil => simp [leftBy, Option.mem_toList, not_keepsBehind]
  | cons a as ih =>
    rw [keepsBehind_cons hrow, leftBy]
    by_cases ha : a.bytes = bytesOf a.record
    · have hne : bytesOf a.record ≠ [] := by
        rw [bytesOf_eq]
        simp
      have hi := @ih [] .nil
      rw [rowId?_nil] at hi
      rw [if_pos ha, List.mem_append, propext hi, ha, keepsBehind_bytesOf]
      by_cases hr : row = [] <;> simp [hr, ha, hne, @eq_comm _ id]
    · have hp := a.bytes_cases.resolve_left ha
      have hi := @ih (row ++ a.bytes) (hrow.append (.of_front hp))
      rw [if_neg ha, propext hi, ← or_assoc, accepted_cons, List.append_eq_nil_iff]
      refine or_congr_left ?_
      by_cases hb : a.bytes = []
      · have hl : ¬ a.bytes = lineBytes a.record := fun e => lineBytes_ne_nil a.record (e.symm.trans hb)
        rw [hb] at ha hl
        simp [hb, ha, hl]
      · by_cases hr : row = []
        · rw [hr, List.nil_append, rowId?_nil]
          by_cases hl : a.bytes = lineBytes a.record
          · rw [hl] at ha
            simp [hl, rowId?_lineBytes, ha]
          · simp [rowId?_front hp hl, hl, ha]
        · have := rowId?_scraps_append hrow hr hb (.of_front hp)
          simp [this, hr, hb]

/-- What attempts leave behind a line feed is what they keep. -/
theorem mem_leftBy_nil {as : List Attempt} {id : String} : id ∈ leftBy [] as ↔ Keeps as id := by
  rw [mem_leftBy .nil, rowId?_nil]
  simp [keepsBehind_nil]

/-- Whether an identity is found when a log is read. -/
def Recovers (log : Bytes) (id : String) : Prop :=
  ∃ ls, scan log = .ok ls ∧ (skipSetOf ls).contains id = true

theorem recovers_iff (log : Bytes) (id : String) : Recovers log id ↔ Utf8.IsText log ∧ id ∈ identities log := by
  rw [← exists_scan_iff]
  constructor
  · rintro ⟨ls, hs, hc⟩
    refine ⟨⟨ls, hs⟩, ?_⟩
    rw [← idsOf_scan hs]
    simpa [skipSetOf] using hc
  · rintro ⟨⟨ls, hs⟩, hid⟩
    rw [← idsOf_scan hs] at hid
    exact ⟨ls, hs, by simpa [skipSetOf] using hid⟩

/-- An identity is found in the log at a path exactly when loading the log finds it. -/
theorem recovers_iff_loadSkipSet {t : FileTree} {path : String} {log : Bytes} (h : t.read path = .ok log)
    (id : String) : Recovers log id
      ↔ ∃ skip notices, loadSkipSet t path = .ok (skip, notices) ∧ skip.contains id = true := by
  unfold Recovers loadSkipSet
  rw [h]
  cases hs : scan log with
  | error f => simp [hs]
  | ok ls => simp [hs]

/-- What is found in a log that was continued, after any attempts to append to it. -/
theorem recovers_attempts_iff (log : Bytes) (as : List Attempt) (id : String) :
    Recovers (continued log ++ accepted as) id
      ↔ (Utf8.IsText log ∧ ∀ a ∈ as, Utf8.IsText a.bytes) ∧ (id ∈ identities log ∨ Keeps as id) := by
  have ht : Utf8.IsText (continued log) ↔ Utf8.IsText log := by
    rw [← exists_scan_iff, ← exists_scan_iff]
    exact exists_congr fun ls => scan_continued
  rw [recovers_iff, isText_attempts, identities_attempts (endsMidLine_continued log), identities_continued, ht,
    List.mem_append, mem_leftBy_nil]

/-- Every record whose append succeeded is found again exactly when each of their identities was in the log
or has a whole line of its own; and no attempt was cut off inside of a character, if any succeeded. -/
theorem acknowledged_recovered_iff (log : Bytes) (as : List Attempt) :
    (∀ r ∈ acknowledged as, Recovers (continued log ++ accepted as) r.id)
      ↔ (acknowledged as ≠ [] → Utf8.IsText log ∧ ∀ a ∈ as, Utf8.IsText a.bytes)
        ∧ ∀ r ∈ acknowledged as, r.id ∈ identities log ∨ Keeps as r.id := by
  constructor
  · intro h
    refine ⟨fun hne => ?_, fun r hr => ((recovers_attempts_iff log as r.id).1 (h r hr)).2⟩
    obtain ⟨r, hr⟩ := List.exists_mem_of_ne_nil _ hne
    exact ((recovers_attempts_iff log as r.id).1 (h r hr)).1
  · rintro ⟨ht, hk⟩ r hr
    exact (recovers_attempts_iff log as r.id).2 ⟨ht (List.ne_nil_of_mem hr), hk r hr⟩

/-- Of attempts with different identities, one with a given identity stands in one place. -/
theorem front_unique {front front' behind behind' : List Attempt} {a a' : Attempt}
    (he : front ++ a :: behind = front' ++ a' :: behind') (hid : a.record.id = a'.record.id)
    (hn : ((front ++ a :: behind).map fun a => a.record.id).Nodup) :
    front = front' ∧ a = a' ∧ behind = behind' := by
  induction front generalizing front' with
  | nil =>
    rcases front' with _ | ⟨b, front'⟩
    · obtain ⟨rfl, rfl⟩ := List.cons.inj he
      exact ⟨rfl, rfl, rfl⟩
    · obtain ⟨rfl, rfl⟩ := List.cons.inj he
      simp [hid] at hn
  | cons b front ih =>
    rcases front' with _ | ⟨c, front'⟩
    · obtain ⟨rfl, rfl⟩ := List.cons.inj he
      simp [hid] at hn
    · obtain ⟨rfl, he'⟩ := List.cons.inj he
      simp only [List.cons_append, List.map_cons, List.nodup_cons] at hn
      obtain ⟨rfl, rfl, rfl⟩ := ih he' hn.2
      exact ⟨rfl, rfl, rfl⟩

/-- If an attempt fails, the log has taken less than the line, its line feed apart, and no part of a character. -/
structure Attempt.FailsShort (a : Attempt) : Prop where
  short : a.cut ≠ none → a.bytes.length < (lineBytes a.record).length
  isText : Utf8.IsText a.bytes

/-- The line of every attempt that succeeds starts a row. -/
def StartsRows (as : List Attempt) : Prop :=
  ∀ front a behind, as = front ++ a :: behind → a.cut = none → endsMidLine (accepted front) = false

theorem Attempt.bytes_of_succeeds {a : Attempt} (h : a.cut = none) : a.bytes = bytesOf a.record := by
  rw [bytes, h]

/-- A whole line is given by attempts that succeed, when the others fall short of it. -/
theorem Attempt.FailsShort.succeeds {a : Attempt} (h : a.FailsShort)
    (hb : a.bytes = bytesOf a.record ∨ a.bytes = lineBytes a.record) : a.cut = none := by
  by_cases hc : a.cut = none
  · exact hc
  · have hs := h.short hc
    rcases hb with hb | hb
    · rw [hb, bytesOf_eq, List.length_append] at hs
      omega
    · rw [hb] at hs
      omega

/-- What is left is acknowledged, when failed attempts fall short. -/
theorem mem_acknowledged_of_leftBy {as : List Attempt} (h : ∀ a ∈ as, a.FailsShort) {id : String}
    (hid : id ∈ leftBy [] as) : id ∈ (acknowledged as).map (·.id) := by
  obtain ⟨front, a, behind, rfl, rfl, -, hw⟩ := mem_leftBy_nil.1 hid
  have hc : a.cut = none := (h a (by simp)).succeeds (hw.imp_right And.left)
  simp only [acknowledged, List.mem_map, List.mem_filter]
  exact ⟨a.record, ⟨a, ⟨by simp, by simp [hc]⟩, rfl⟩, rfl⟩

/-- Attempts for different identities leave every one that is acknowledged exactly when each line of such an attempt
starts a row. -/
theorem startsRows_iff {as : List Attempt} (hn : (as.map fun a => a.record.id).Nodup) :
    StartsRows as ↔ ∀ id ∈ (acknowledged as).map (·.id), id ∈ leftBy [] as := by
  have hmem : ∀ id, id ∈ (acknowledged as).map (·.id) ↔ ∃ a ∈ as, a.cut = none ∧ a.record.id = id := by
    intro id
    simp [acknowledged, and_assoc]
  constructor
  · intro h id hid
    obtain ⟨a, hin, ha, rfl⟩ := (hmem id).1 hid
    obtain ⟨front, behind, he⟩ := List.append_of_mem hin
    exact mem_leftBy_nil.2 ⟨front, a, behind, he, rfl, h front a behind he ha, .inl (a.bytes_of_succeeds ha)⟩
  · intro h front a behind he ha
    have hid := h a.record.id ((hmem _).2 ⟨a, by simp [he], ha, rfl⟩)
    obtain ⟨front', a', behind', he', hid, hm, -⟩ := mem_leftBy_nil.1 hid
    rw [he] at he' hn
    obtain ⟨rfl, -, -⟩ := front_unique he' hid.symm hn
    exact hm

end Captioning.RecordLog
