import Captioning.Proofs.RecordLine
/-!
# The rows of a log

A log can be read exactly when it is a text (`exists_scan_iff`), and then it holds the identities of its rows
(`idsOf_scan`). Rows are told apart by line feeds alone, so what is appended at the start of a row leaves the
rows in front of it as they are (`rows_append`), and continuing a log on a new line changes nothing that is
read from it (`identities_continued`).
-/

namespace Captioning.RecordLog

/-! ## Rows -/

theorem endsMidLine_append {more : Bytes} (h : more ≠ []) (log : Bytes) :
    endsMidLine (log ++ more) = endsMidLine more := by
  obtain ⟨init, b, rfl⟩ : ∃ init b, more = init ++ [b] := ⟨_, _, (List.dropLast_concat_getLast h).symm⟩
  simp [endsMidLine, ← List.append_assoc]

theorem endsMidLine_of_notMem {row : Bytes} (h : 10 ∉ row) (hne : row ≠ []) : endsMidLine row = true := by
  obtain ⟨init, b, rfl⟩ : ∃ init b, row = init ++ [b] := ⟨_, _, (List.dropLast_concat_getLast hne).symm⟩
  have hb : (10 : UInt8) ≠ b := by
    rintro rfl
    exact h (by simp)
  simp [endsMidLine, Ne.symm hb]

/-- Rows are found one after another from the start of a row on. -/
theorem rows_append {log : Bytes} (h : endsMidLine log = false) (more : Bytes) :
    Text.rows 10 (log ++ more) = Text.rows 10 log ++ Text.rows 10 more := by
  induction log with
  | nil => rfl
  | cons b log ih =>
    by_cases hl : log = []
    · subst hl
      obtain rfl : b = 10 := by simpa [endsMidLine] using h
      simp [Text.rows]
    · have ih := ih (by rwa [← List.singleton_append, endsMidLine_append hl] at h)
      by_cases hb : (b == 10) = true
      · simp [Text.rows, hb, ih]
      · have hb : (b == 10) = false := by simpa using hb
        simp only [List.cons_append, Text.rows, hb, Bool.false_eq_true, if_false, ih]
        cases hr : Text.rows 10 log with
        | nil => exact absurd (Text.rows_eq_nil_iff.1 hr) hl
        | cons row rows => rfl

/-- A log is some whole rows and the row that it ends in, which may be empty. -/
theorem exists_rows (log : Bytes) : ∃ front row, log = front ++ row ∧ endsMidLine front = false ∧ 10 ∉ row := by
  induction log with
  | nil => exact ⟨[], [], rfl, rfl, by simp⟩
  | cons b log ih =>
    obtain ⟨front, row, rfl, hf, hr⟩ := ih
    by_cases hb : b = 10
    · subst hb
      refine ⟨10 :: front, row, rfl, ?_, hr⟩
      rcases front with _ | ⟨c, front⟩
      · rfl
      · rwa [← List.singleton_append, endsMidLine_append (by simp)]
    · rcases front with _ | ⟨c, front⟩
      · exact ⟨[], b :: row, rfl, rfl, by simp [Ne.symm hb, hr]⟩
      · exact ⟨b :: c :: front, row, rfl, by rwa [← List.singleton_append, endsMidLine_append (by simp)], hr⟩

/-! ## What rows say -/

/-- What a row says, if it is a text. -/
def rowLine? (row : Bytes) : Option Line :=
  (Utf8.decodeFrom 0 row).toOption.map Line.ofText

/-- The identity that a row stands for. -/
def rowId? (row : Bytes) : Option String :=
  (rowLine? row).bind Line.id?

/-- The rows of a log without their line feeds. -/
def rowsOf (log : Bytes) : List Bytes :=
  (Text.rows 10 log).map Prod.fst

/-- The identities of the rows of any bytes. -/
def identities (log : Bytes) : List String :=
  (rowsOf log).filterMap rowId?

/-- A row says the same with a carriage return at its end. -/
theorem rowLine?_append_return (row : Bytes) : rowLine? (row ++ [13]) = rowLine? row := by
  have hf : Utf8.Fresh [13] := by simp
  have hn : Utf8.decodeFrom (0 + row.length) [13] = .ok ['\r'] := Utf8.decodeFrom_encode ['\r'] _
  rcases Utf8.decodeFrom_append row with ⟨s, hs, hst⟩ | ht
  · simp only [rowLine?, hst, hn, hs, Except.map, Except.toOption, Option.map_some,
      ofText_append_lineEnd (.inr rfl)]
  · obtain ⟨f, hf⟩ := ht [13] hf 0
    obtain ⟨g, hg⟩ := ht [] Utf8.fresh_nil 0
    rw [List.append_nil] at hg
    simp [rowLine?, hf, hg, Except.toOption]

theorem rowLine?_eq_none_iff (row : Bytes) : rowLine? row = none ↔ ¬ Utf8.IsText row := by
  unfold rowLine? Utf8.IsText
  cases Utf8.decodeFrom 0 row <;> simp [Except.toOption]

theorem rowLine?_of_ok {row : Bytes} {s : List Char} (h : Utf8.decodeFrom 0 row = .ok s) :
    rowLine? row = some (Line.ofText s) := by
  simp [rowLine?, h, Except.toOption]

theorem rowLine?_dropReturn (row : Bytes) : rowLine? (Text.dropReturn 13 row) = rowLine? row := by
  rcases Text.dropReturn_cases 13 row with h | h
  · rw [h]
  · rw [← rowLine?_append_return, ← h]

/-- What a scan does at one line. -/
theorem scan_line (line : Bytes) :
    (do return Line.ofText (← Utf8.decodeFrom 0 line) : Except Utf8.Fault Line).toOption = rowLine? line := by
  cases h : Utf8.decodeFrom 0 line <;> simp [h, rowLine?, Except.toOption, bind, Except.bind, pure, Except.pure]

theorem toOption_mapM {α β ε : Type} (f : α → Except ε β) (xs : List α) :
    (xs.mapM f).toOption = xs.mapM fun x => (f x).toOption := by
  induction xs with
  | nil => rfl
  | cons x xs ih =>
    rw [List.mapM_cons, List.mapM_cons, ← ih]
    cases f x with
    | error e => rfl
    | ok y => cases List.mapM f xs <;> rfl

/-- A log is read row by row. -/
theorem toOption_scan (log : Bytes) : (scan log).toOption = (rowsOf log).mapM rowLine? := by
  unfold scan rowsOf Text.byteLines Text.linesOf
  rw [toOption_mapM, List.mapM_map, List.mapM_map]
  congr 1
  funext row
  simp only [Function.comp_apply, scan_line]
  split
  · exact rowLine?_dropReturn row.1
  · rfl

theorem scan_eq_ok {log : Bytes} {ls : List Line} :
    scan log = .ok ls ↔ (rowsOf log).mapM rowLine? = some ls := by
  rw [← toOption_scan]
  cases scan log <;> simp [Except.toOption]

/-- The identities in a log that can be read are those of its rows. -/
theorem idsOf_scan {log : Bytes} {ls : List Line} (h : scan log = .ok ls) : idsOf ls = identities log := by
  rw [scan_eq_ok] at h
  unfold identities idsOf rowId?
  generalize rowsOf log = rows at h
  induction rows generalizing ls with
  | nil =>
    obtain rfl : [] = ls := by simpa using h
    rfl
  | cons row rows ih =>
    rw [List.mapM_cons] at h
    cases hr : rowLine? row with
    | none => simp [hr] at h
    | some l =>
      cases hm : rows.mapM rowLine? with
      | none => simp [hr, hm] at h
      | some ls' =>
        obtain rfl : l :: ls' = ls := by simpa [hr, hm] using h
        rw [List.filterMap_cons, List.filterMap_cons, ih hm]
        simp [hr]

theorem exists_mapM_iff {α β : Type} (f : α → Option β) (xs : List α) :
    (∃ ys, xs.mapM f = some ys) ↔ ∀ x ∈ xs, f x ≠ none := by
  induction xs with
  | nil => simp
  | cons x xs ih =>
    rw [List.mapM_cons, List.forall_mem_cons, ← ih]
    cases f x with
    | none => simp
    | some y => cases List.mapM f xs <;> simp

theorem isText_iff_rows (log : Bytes) : Utf8.IsText log ↔ ∀ row ∈ rowsOf log, Utf8.IsText row := by
  induction hn : log.length using Nat.strongRecOn generalizing log with
  | ind n ih =>
    subst hn
    by_cases hm : 10 ∈ log
    · obtain ⟨row, more, rfl, hr⟩ := List.eq_append_cons_of_mem hm
      have hf : Utf8.Fresh (10 :: more) := by simp
      have ht : Utf8.IsText [10] := Utf8.isText_encode ['\n']
      have hrows : rowsOf (row ++ 10 :: more) = row :: rowsOf more := by simp [rowsOf, Text.rows_append_feed hr]
      have hmore := Utf8.isText_append_left ht more
      rw [List.singleton_append] at hmore
      rw [Utf8.isText_append hf, hmore, hrows, List.forall_mem_cons, ih more.length (by simp; omega) more rfl]
    · by_cases hl : log = []
      · simp [hl, rowsOf]
      · simp [rowsOf, Text.rows_of_notMem hm hl]

/-- A log can be read exactly when it is a text. -/
theorem exists_scan_iff (log : Bytes) : (∃ ls, scan log = .ok ls) ↔ Utf8.IsText log := by
  rw [isText_iff_rows]
  simp only [scan_eq_ok, exists_mapM_iff]
  refine forall_congr' fun row => forall_congr' fun _ => ?_
  rw [ne_eq, rowLine?_eq_none_iff, Classical.not_not]

/-! ## Appending at the start of a row -/

theorem rowsOf_append {log : Bytes} (h : endsMidLine log = false) (more : Bytes) :
    rowsOf (log ++ more) = rowsOf log ++ rowsOf more := by
  simp [rowsOf, rows_append h]

theorem identities_append {log : Bytes} (h : endsMidLine log = false) (more : Bytes) :
    identities (log ++ more) = identities log ++ identities more := by
  simp [identities, rowsOf_append h]

theorem rowsOf_row {row : Bytes} (h : 10 ∉ row) (hne : row ≠ []) : rowsOf row = [row] := by
  simp [rowsOf, Text.rows_of_notMem h hne]

theorem rowsOf_row_feed {row : Bytes} (h : 10 ∉ row) : rowsOf (row ++ [10]) = [row] := by
  simp [rowsOf, Text.rows_append_feed h]

/-- Continuing a log on a new line leaves its rows as they are. -/
theorem rowsOf_continued (log : Bytes) : rowsOf (continued log) = rowsOf log := by
  unfold continued
  obtain ⟨front, row, rfl, hf, hr⟩ := exists_rows log
  by_cases hl : row = []
  · subst hl
    rw [List.append_nil, if_neg (by simp [hf])]
  · rw [if_pos (by rw [endsMidLine_append hl, endsMidLine_of_notMem hr hl]), List.append_assoc,
      rowsOf_append hf, rowsOf_append hf, rowsOf_row hr hl, rowsOf_row_feed hr]

theorem identities_continued (log : Bytes) : identities (continued log) = identities log := by
  rw [identities, rowsOf_continued, identities]

theorem scan_continued {log : Bytes} {ls : List Line} : scan (continued log) = .ok ls ↔ scan log = .ok ls := by
  rw [scan_eq_ok, rowsOf_continued, ← scan_eq_ok]

end Captioning.RecordLog
