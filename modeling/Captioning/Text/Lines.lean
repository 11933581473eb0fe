/-!
# Lines

Splitting a sequence into lines. A line ends with a line feed, or with a carriage return and a line
feed; a last line may lack its end, and then a carriage return belongs to it. The same rule serves
characters and bytes, so the two marks are parameters.

Main statements: `lines_append_line` (a line with its end in front splits off), `lines_of_notMem`
(without a line feed there is one line), `length_lines` (there are as many lines as line feeds, and one more
when the last one lacks its end).
-/

namespace Captioning.Text

variable {α : Type} [BEq α]

/-- The rows between line feeds, each with whether a line feed ends it. -/
def rows (feed : α) : List α → List (List α × Bool)
  | [] => []
  | c :: cs =>
    if c == feed then ([], true) :: rows feed cs
    else match rows feed cs with
      | [] => [([c], false)]
      | (row, ended) :: more => (c :: row, ended) :: more

/-- A row without the one carriage return that may stand at its end. -/
def dropReturn (ret : α) (row : List α) : List α :=
  match row.getLast? with
  | some c => if c == ret then row.dropLast else row
  | none => row

/-- The lines of a sequence. -/
def linesOf (feed ret : α) (s : List α) : List (List α) :=
  (rows feed s).map fun (row, ended) => if ended then dropReturn ret row else row

/-- The lines of a text. -/
def lines (s : List Char) : List (List Char) :=
  linesOf '\n' '\r' s

/-- The lines of a sequence of bytes. -/
def byteLines (s : List UInt8) : List (List UInt8) :=
  linesOf 10 13 s

/-! ## Small facts -/

@[simp] theorem rows_nil (feed : α) : rows feed [] = [] := rfl

theorem rows_eq_nil_iff {feed : α} {s : List α} : rows feed s = [] ↔ s = [] := by
  cases s with
  | nil => simp
  | cons c s =>
    rw [rows]
    split
    · simp
    · split <;> simp

/-- Each feed ends a row, and what is behind the last one is a row if it is anything. -/
theorem length_rows {β : Type} [DecidableEq β] (feed : β) (s : List β) :
    (rows feed s).length = s.count feed + if s = [] ∨ s.getLast? = some feed then 0 else 1 := by
  induction s with
  | nil => rfl
  | cons c s ih =>
    by_cases hc : c = feed
    · subst hc
      cases s with
      | nil => simp [rows]
      | cons d s =>
        have hrows : rows c (c :: d :: s) = ([], true) :: rows c (d :: s) := by simp [rows.eq_2 c c]
        rw [hrows, List.length_cons, ih, List.count_cons_self, List.getLast?_cons_cons]
        simp only [reduceCtorEq, false_or]
        omega
    · have hb : (c == feed) = false := beq_eq_false_iff_ne.2 hc
      cases s with
      | nil => simp [rows, hb, hc]
      | cons d s =>
        have hlength : (rows feed (c :: d :: s)).length = (rows feed (d :: s)).length := by
          cases h : rows feed (d :: s) with
          | nil => exact absurd (rows_eq_nil_iff.1 h) (by simp)
          | cons row more => simp [rows.eq_2 feed c, hb, h]
        rw [hlength, ih, List.count_cons_of_ne hc, List.getLast?_cons_cons]
        simp

theorem rows_of_notMem [LawfulBEq α] {feed : α} {s : List α} (h : feed ∉ s) (hne : s ≠ []) :
    rows feed s = [(s, false)] := by
  induction s with
  | nil => exact absurd rfl hne
  | cons c s ih =>
    simp only [List.mem_cons, not_or] at h
    have hc : (c == feed) = false := by
      simp only [beq_eq_false_iff_ne, ne_eq]
      exact fun e => h.1 e.symm
    by_cases hs : s = []
    · subst hs; simp [rows, hc]
    · simp [rows, hc, ih h.2 hs]

theorem rows_append_feed [LawfulBEq α] {feed : α} {s : List α} (h : feed ∉ s) (t : List α) :
    rows feed (s ++ feed :: t) = (s, true) :: rows feed t := by
  induction s with
  | nil => simp [rows]
  | cons c s ih =>
    simp only [List.mem_cons, not_or] at h
    have hc : (c == feed) = false := by
      simp only [beq_eq_false_iff_ne, ne_eq]
      exact fun e => h.1 e.symm
    simp [rows, hc, ih h.2]

theorem dropReturn_cases [LawfulBEq α] (ret : α) (row : List α) :
    dropReturn ret row = row ∨ row = dropReturn ret row ++ [ret] := by
  unfold dropReturn
  split
  · next c hc =>
    obtain ⟨init, rfl⟩ := List.getLast?_eq_some_iff.1 hc
    by_cases h : (c == ret) = true
    · simp [eq_of_beq h]
    · simp [h]
  · exact .inl rfl

theorem lines_of_notMem {s : List Char} (h : '\n' ∉ s) (hne : s ≠ []) : lines s = [s] := by
  simp [lines, linesOf, rows_of_notMem h hne]

theorem lines_append_line {s : List Char} (h : '\n' ∉ s) (t : List Char) :
    lines (s ++ '\n' :: t) = dropReturn '\r' s :: lines t := by
  simp [lines, linesOf, rows_append_feed h]

theorem length_lines (s : List Char) :
    (lines s).length = s.count '\n' + if s = [] ∨ s.getLast? = some '\n' then 0 else 1 := by
  rw [lines, linesOf, List.length_map, length_rows]

end Captioning.Text
