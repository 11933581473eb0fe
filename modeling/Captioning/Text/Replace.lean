/-!
# Finding and replacing

Occurrences of one text in another, taken from left to right and without overlap. The empty text occurs in
front of every character and at the end.

Main statements: `occursIn_iff` (an occurrence splits the text), `replaceAll_of_not_occursIn` (without an
occurrence nothing changes).
-/

namespace Captioning.Text

/-- Whether a text occurs in another. -/
def occursIn (pattern : List Char) : List Char → Bool
  | [] => pattern.isEmpty
  | c :: s => pattern.isPrefixOf (c :: s) || occursIn pattern s

/-- Replaces occurrences of a text that is not empty; the next `skip` characters belong to one that has
been replaced. -/
def replaceFrom (pattern replacement : List Char) : Nat → List Char → List Char
  | _, [] => []
  | skip + 1, _ :: s => replaceFrom pattern replacement skip s
  | 0, c :: s =>
    if pattern.isPrefixOf (c :: s) then
      replacement ++ replaceFrom pattern replacement (pattern.length - 1) s
    else c :: replaceFrom pattern replacement 0 s

/-- Replaces all occurrences of a text. -/
def replaceAll (pattern replacement s : List Char) : List Char :=
  if pattern.isEmpty then replacement ++ s.flatMap fun c => c :: replacement
  else replaceFrom pattern replacement 0 s

/-! ## Small facts -/

theorem occursIn_iff {pattern s : List Char} :
    occursIn pattern s = true ↔ ∃ before behind, s = before ++ pattern ++ behind := by
  induction s with
  | nil =>
    constructor
    · intro h
      refine ⟨[], [], ?_⟩
      simpa [occursIn] using h
    · rintro ⟨a, b, h⟩
      simp at h
      simp [occursIn, h.2.1]
  | cons c s ih =>
    simp only [occursIn, Bool.or_eq_true, List.isPrefixOf_iff_prefix, ih]
    constructor
    · rintro (⟨t, ht⟩ | ⟨a, b, h⟩)
      · exact ⟨[], t, by simpa using ht.symm⟩
      · exact ⟨c :: a, b, by simp [h]⟩
    · rintro ⟨a, b, h⟩
      cases a with
      | nil => exact .inl ⟨b, by simpa using h.symm⟩
      | cons x a =>
        simp only [List.cons_append, List.cons.injEq] at h
        exact .inr ⟨a, b, by simpa using h.2⟩

theorem replaceFrom_of_not_occursIn {pattern replacement s : List Char}
    (h : occursIn pattern s = false) : replaceFrom pattern replacement 0 s = s := by
  induction s with
  | nil => rfl
  | cons c s ih =>
    simp only [occursIn, Bool.or_eq_false_iff] at h
    simp [replaceFrom, h.1, ih h.2]

theorem replaceAll_of_not_occursIn {pattern replacement s : List Char}
    (h : occursIn pattern s = false) : replaceAll pattern replacement s = s := by
  have hne : pattern.isEmpty = false := by
    cases pattern with
    | nil => cases s <;> simp [occursIn] at h
    | cons => rfl
  simp [replaceAll, hne, replaceFrom_of_not_occursIn h]

end Captioning.Text
