/-!
# Blank characters

The characters with the Unicode property White_Space, and trimming a text of them. A text is handled
as a list of characters here, so that trimming is `dropWhile` from either end.

Main statements: `trim_around` (blanks around a text do not count), `exists_around` (what is trimmed is a text
without blanks at its ends).
-/

namespace Captioning.Text

/-- A character is blank when it has the property White_Space. -/
def isBlank (c : Char) : Bool :=
  let n := c.toNat
  (9 ≤ n && n ≤ 13) || n == 0x20 || n == 0x85 || n == 0xA0 || n == 0x1680
    || (0x2000 ≤ n && n ≤ 0x200A) || n == 0x2028 || n == 0x2029 || n == 0x202F || n == 0x205F
    || n == 0x3000

/-- The text without its leading blanks. -/
def trimStart (s : List Char) : List Char :=
  s.dropWhile isBlank

/-- The text without its trailing blanks. -/
def trimEnd (s : List Char) : List Char :=
  (s.reverse.dropWhile isBlank).reverse

/-- The text without leading and trailing blanks. -/
def trim (s : List Char) : List Char :=
  trimEnd (trimStart s)

/-- A text is blank when it holds nothing but blank characters. -/
def allBlank (s : List Char) : Bool :=
  s.all isBlank

/-- The string without leading and trailing blanks. -/
def trimmed (s : String) : String :=
  String.ofList (trim s.toList)

/-! ## Small facts -/

theorem not_isBlank_of_isDigit {c : Char} (h : c.isDigit = true) : isBlank c = false := by
  simp only [Char.isDigit, Bool.and_eq_true, decide_eq_true_eq, UInt32.le_iff_toNat_le] at h
  have h₁ : 48 ≤ c.toNat := h.1
  have h₂ : c.toNat ≤ 57 := h.2
  simp only [isBlank, Bool.or_eq_false_iff, Bool.and_eq_false_iff, decide_eq_false_iff_not, beq_eq_false_iff_ne]
  omega

@[simp] theorem trimStart_nil : trimStart [] = [] := rfl

theorem trimStart_cons_of_not {c : Char} (h : isBlank c = false) (s : List Char) :
    trimStart (c :: s) = c :: s := by
  simp [trimStart, h]

theorem trimEnd_append_of_not {c : Char} (h : isBlank c = false) (s : List Char) :
    trimEnd (s ++ [c]) = s ++ [c] := by
  simp [trimEnd, h]

theorem trimStart_append_of_all {ws : List Char} (h : allBlank ws = true) (s : List Char) :
    trimStart (ws ++ s) = trimStart s := by
  induction ws with
  | nil => rfl
  | cons c ws ih =>
    simp only [allBlank, List.all_cons, Bool.and_eq_true] at h
    simpa [trimStart, h.1] using ih h.2

theorem trimEnd_append_of_all {ws : List Char} (h : allBlank ws = true) (s : List Char) :
    trimEnd (s ++ ws) = trimEnd s := by
  have hr : allBlank ws.reverse = true := by simpa [allBlank] using h
  have := trimStart_append_of_all hr s.reverse
  simpa [trimEnd, trimStart] using congrArg List.reverse this

/-- A text that ends with no blank is kept when another one is trimmed behind it. -/
theorem trimEnd_append {s : List Char} (h : trimEnd s = s) (t : List Char) : trimEnd (s ++ t) = s ++ trimEnd t := by
  unfold trimEnd at h ⊢
  rw [List.reverse_append, List.dropWhile_append]
  split
  · rename_i ht
    rw [h, List.isEmpty_iff.1 ht, List.reverse_nil, List.append_nil]
  · rw [List.reverse_append, List.reverse_reverse]

theorem trimEnd_prefix (s : List Char) : trimEnd s <+: s := by
  have h : trimEnd s <+: s.reverse.reverse := List.reverse_prefix.2 (List.dropWhile_suffix isBlank)
  rwa [List.reverse_reverse] at h

/-- Blanks at the end of a text do not count, even if there is nothing else. -/
theorem trim_append_of_all {ws : List Char} (h : allBlank ws = true) (s : List Char) : trim (s ++ ws) = trim s := by
  have hws : trimStart ws = [] := by simpa using trimStart_append_of_all h []
  have hstart : trimStart (s ++ ws) = trimStart s ++ (if (trimStart s).isEmpty then [] else ws) := by
    unfold trimStart at hws ⊢
    rw [List.dropWhile_append, hws]
    split <;> simp_all
  rw [trim, hstart, trimEnd_append_of_all (by split <;> trivial), trim]

/-- A text without blanks at its ends is what is left when the blanks around it are trimmed. -/
theorem trim_around {before behind : List Char} (hf : allBlank before = true) (hb : allBlank behind = true)
    {s : List Char} (hhead : ∀ c, s.head? = some c → isBlank c = false)
    (hlast : ∀ c, s.getLast? = some c → isBlank c = false) : trim (before ++ s ++ behind) = s := by
  rw [trim_append_of_all hb, trim, trimStart_append_of_all hf]
  by_cases hs : s = []
  · subst hs
    rfl
  · obtain ⟨init, c, rfl⟩ : ∃ init c, s = init ++ [c] := ⟨_, _, (List.dropLast_concat_getLast hs).symm⟩
    have hstart : trimStart (init ++ [c]) = init ++ [c] := by
      cases init with
      | nil => exact trimStart_cons_of_not (hhead c rfl) []
      | cons d init => exact trimStart_cons_of_not (hhead d rfl) _
    rw [hstart, trimEnd_append_of_not (hlast c (by simp))]

theorem isBlank_of_head?_trim {s : List Char} {c : Char} (h : (trim s).head? = some c) : isBlank c = false := by
  obtain ⟨t, ht⟩ := trimEnd_prefix (trimStart s)
  have hhead : (trimStart s).head? = some c := by
    rw [← ht, List.head?_append, ← trim, h, Option.some_or]
  have := List.head?_dropWhile_not isBlank s
  rw [trimStart] at hhead
  simpa [hhead] using this

theorem isBlank_of_getLast?_trim {s : List Char} {c : Char} (h : (trim s).getLast? = some c) : isBlank c = false := by
  rw [trim, trimEnd, List.getLast?_reverse] at h
  have := List.head?_dropWhile_not isBlank (trimStart s).reverse
  simpa [h] using this

/-- A text is what is left of it when it is trimmed, with blanks around it. -/
theorem exists_around (s : List Char) : ∃ before behind, allBlank before = true ∧ allBlank behind = true
    ∧ s = before ++ trim s ++ behind := by
  refine ⟨s.takeWhile isBlank, ((trimStart s).reverse.takeWhile isBlank).reverse, List.all_takeWhile, ?_, ?_⟩
  · rw [allBlank, List.all_reverse]
    exact List.all_takeWhile
  · have hend : trim s ++ ((trimStart s).reverse.takeWhile isBlank).reverse = trimStart s := by
      rw [trim, trimEnd, ← List.reverse_append, List.takeWhile_append_dropWhile, List.reverse_reverse]
    rw [List.append_assoc, hend, trimStart, List.takeWhile_append_dropWhile]

end Captioning.Text
