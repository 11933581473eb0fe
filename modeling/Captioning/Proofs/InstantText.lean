import Captioning.Proofs.DecimalDigits
import Captioning.Time.Instant
/-!
# Instants and their texts

A moment of a year of four digits is read back from its text (`read?_chars`), with all of its nanoseconds
and also during a leap second.
-/

namespace Captioning.Instant

open Decimal (digitsOf valueOf zeros spanDigits)

/-- A moment of a day that there is, in a year of four digits. A leap second has no number of its own: it is
the last second of a minute going on, with nanoseconds past a thousand million. -/
structure IsMoment (t : Instant) : Prop where
  date : t.date.isValid = true
  year_nonneg : 0 ≤ t.date.year
  year_le : t.date.year ≤ 9999
  second_lt : t.second < 86400
  nano_lt : t.nano < 1000000000 ∨ (t.second % 60 = 59 ∧ t.nano < 2000000000)

/-! ## Numbers of fixed width -/

section
variable {w n : Nat}

theorem isDigit_of_mem_padded {c : Char} (h : c ∈ padded w n) : c.isDigit = true := by
  rcases List.mem_append.1 h with hz | hd
  · exact Decimal.isDigit_of_mem_zeros hz
  · exact Decimal.isDigit_of_mem_digitsOf hd

@[simp] theorem valueOf_padded : valueOf (padded w n) = n := by
  simp [padded]

theorem length_padded (hw : 0 < w) (h : n < 10 ^ w) : (padded w n).length = w := by
  have := (Decimal.length_digitsOf_le hw).2 h
  simp only [padded, List.length_append, zeros, List.length_replicate]
  omega

theorem padded_ne_nil : padded w n ≠ [] := by
  simp [padded, Decimal.digitsOf_ne_nil]

/-- Nothing is trimmed in front of a padded number. -/
theorem trimStart_padded (r : List Char) : Text.trimStart (padded w n ++ r) = padded w n ++ r := by
  obtain ⟨c, ds, hc⟩ := List.exists_cons_of_ne_nil (padded_ne_nil (w := w) (n := n))
  have hd : c.isDigit = true := isDigit_of_mem_padded (w := w) (n := n) (by simp [hc])
  rw [hc, List.cons_append]
  exact Text.trimStart_cons_of_not (Text.not_isBlank_of_isDigit hd) _

theorem takeNumber?_padded (hw : 0 < w) (h : n < 10 ^ w) (r : List Char) :
    takeNumber? w (padded w n ++ r) = some (n, r) := by
  have hl := length_padded hw h
  have htake : (padded w n ++ r).take w = padded w n := by
    rw [List.take_append_of_le_length (Nat.le_of_eq hl.symm), List.take_of_length_le (Nat.le_of_eq hl)]
  have hdigits : (padded w n).takeWhile Char.isDigit = padded w n := by
    simpa using @List.takeWhile_append_of_pos Char Char.isDigit (padded w n) [] fun c hc => isDigit_of_mem_padded hc
  have hne : (padded w n).isEmpty = false := by simpa using padded_ne_nil
  simp only [takeNumber?, trimStart_padded, htake, hdigits, hne, valueOf_padded, List.drop_left]
  rfl

end

/-! ## The parts of the text -/

theorem takeYear?_yearText {year : Int} (h₀ : 0 ≤ year) (h₁ : year ≤ 9999) (r : List Char) :
    takeYear? (yearText year ++ r) = some (year, r) := by
  have hin : (0 ≤ year && year ≤ 9999) = true := by simp [h₀, h₁]
  have hread := @takeNumber?_padded 4 year.natAbs (by decide) (by omega) r
  have hsign : ∀ c ∈ (padded 4 year.natAbs ++ r).head?, c ≠ '-' ∧ c ≠ '+' := by
    obtain ⟨d, ds, hd⟩ := List.exists_cons_of_ne_nil (padded_ne_nil (w := 4) (n := year.natAbs))
    have hdigit : d.isDigit = true := isDigit_of_mem_padded (w := 4) (n := year.natAbs) (by simp [hd])
    intro c hc
    obtain rfl : d = c := by simpa [hd] using hc
    exact ⟨by rintro rfl; simp at hdigit, by rintro rfl; simp at hdigit⟩
  have hnat : ((year.natAbs : Nat) : Int) = year := Int.natAbs_of_nonneg h₀
  rw [yearText, if_pos hin, takeYear?, trimStart_padded]
  dsimp only
  split
  · next r' heq => exact absurd rfl (hsign '-' (by rw [heq]; rfl)).1
  · next r' heq => exact absurd rfl (hsign '+' (by rw [heq]; rfl)).2
  · simp [hread, hnat]

theorem takeMark?_cons {c : Char} (h : Text.isBlank c = false) (r : List Char) :
    takeMark? c (c :: r) = some r := by
  simp [takeMark?, Text.trimStart_cons_of_not h]

/-- A fraction of `3`, `6` or `9` digits is read to the nanosecond. -/
theorem takeFraction?_padded {w n : Nat} (hw : 0 < w) (hw' : w ≤ 9) (h : n < 10 ^ w) (r : List Char) :
    takeFraction? ('.' :: padded w n ++ 'Z' :: r) = some (n * 10 ^ (9 - w), 'Z' :: r) := by
  have hs : spanDigits (padded w n ++ 'Z' :: r) = (padded w n, 'Z' :: r) :=
    Decimal.spanDigits_digits (fun c hc => isDigit_of_mem_padded hc) (by simp)
  have hl := length_padded hw h
  have htake : (padded w n).take 9 = padded w n := List.take_of_length_le (by omega)
  have hne : (padded w n).isEmpty = false := by simpa using padded_ne_nil
  simp only [List.cons_append, takeFraction?, hs, hne, htake, hl, valueOf_padded]
  rfl

theorem takeFraction?_fractionText {nano : Nat} (h : nano < 1000000000) (r : List Char) :
    takeFraction? (fractionText nano ++ 'Z' :: r) = some (nano, 'Z' :: r) := by
  unfold fractionText
  split
  · next h₀ => rw [eq_of_beq h₀]; rfl
  split
  · next h₃ =>
    have hd : nano / 1000000 * 10 ^ (9 - 3) = nano := by
      have := eq_of_beq h₃
      omega
    rw [takeFraction?_padded (by decide) (by decide) (by omega), hd]
  split
  · next h₆ =>
    have hd : nano / 1000 * 10 ^ (9 - 6) = nano := by
      have := eq_of_beq h₆
      omega
    rw [takeFraction?_padded (by decide) (by decide) (by omega), hd]
  · rw [takeFraction?_padded (by decide) (by decide) (by omega)]
    simp

theorem ofLocal_zero {date : Date} {second : Nat} (h : second < 86400) (nano : Nat) :
    ofLocal date second nano 0 = ⟨date, second, nano⟩ := by
  have h₀ : ¬ (second : Int) - 0 < 0 := by omega
  have h₁ : ¬ 86400 ≤ (second : Int) - 0 := by omega
  rw [ofLocal]
  simp only [if_neg h₀, if_neg h₁]
  rw [Int.sub_zero, Int.toNat_natCast]

/-- The seconds that are written and the fraction behind them are those of the moment, a leap second being
written as the sixtieth. -/
theorem second_parts {t : Instant} (h : t.IsMoment) :
    t.second % 60 + t.nano / 1000000000 ≤ 60 ∧
      (if t.second % 60 + t.nano / 1000000000 == 60 then (59, t.nano % 1000000000 + 1000000000)
        else (t.second % 60 + t.nano / 1000000000, t.nano % 1000000000)) = (t.second % 60, t.nano) := by
  rcases h.nano_lt with hn | ⟨hs, hn⟩
  · have hleap : t.nano / 1000000000 = 0 := by omega
    have hne : (t.second % 60 + 0 == 60) = false := by simpa using by omega
    refine ⟨by omega, ?_⟩
    rw [hleap, hne, Nat.mod_eq_of_lt hn]
    rfl
  · by_cases hlt : t.nano < 1000000000
    · have hleap : t.nano / 1000000000 = 0 := by omega
      refine ⟨by omega, ?_⟩
      rw [hleap, hs, Nat.mod_eq_of_lt hlt]
      rfl
    · have hleap : t.nano / 1000000000 = 1 := by omega
      have hmod : t.nano % 1000000000 + 1000000000 = t.nano := by omega
      refine ⟨by omega, ?_⟩
      rw [hleap, hs, hmod]
      rfl

/-! ## The whole text -/

/-- The text of an instant, part by part. -/
theorem chars_eq (t : Instant) : t.chars
    = yearText t.date.year ++ '-' :: (padded 2 t.date.month ++ '-' :: (padded 2 t.date.day
      ++ 'T' :: (padded 2 (t.second / 3600) ++ ':' :: (padded 2 (t.second / 60 % 60)
      ++ ':' :: (padded 2 (t.second % 60 + t.nano / 1000000000)
      ++ (fractionText (t.nano % 1000000000) ++ ['Z'])))))) := by
  simp [chars]

/-- A moment is read back from its text. -/
theorem read?_chars {t : Instant} (h : t.IsMoment) : read? t.chars = some t := by
  obtain ⟨⟨year, month, day⟩, second, nano⟩ := t
  have hdate := h.date
  obtain ⟨hsec, hparts⟩ := second_parts h
  dsimp only at hsec hparts
  have hmonth : month < 10 ^ 2 ∧ day < 10 ^ 2 := by
    have : Date.monthLength year month ≤ 31 := by
      unfold Date.monthLength
      split
      · split <;> decide
      · split <;> decide
    simp only [Date.isValid, Bool.and_eq_true, decide_eq_true_eq] at hdate
    omega
  have hs : second < 86400 := h.second_lt
  have htotal : second / 3600 * 3600 + second / 60 % 60 * 60 + second % 60 = second := by omega
  have hin : ((⟨year, month, day⟩ : Date).isValid && second / 3600 < 24 && second / 60 % 60 < 60
      && second % 60 + nano / 1000000000 ≤ 60 && (Text.trimStart []).isEmpty) = true := by
    simp only [Bool.and_eq_true, decide_eq_true_eq]
    exact ⟨⟨⟨⟨hdate, by omega⟩, by omega⟩, hsec⟩, rfl⟩
  have hdash : Text.isBlank '-' = false := by decide
  have hcolon : Text.isBlank ':' = false := by decide
  have hhour : second / 3600 < 10 ^ 2 := by omega
  have hminute : second / 60 % 60 < 10 ^ 2 := by omega
  have hsecond : second % 60 + nano / 1000000000 < 10 ^ 2 := by omega
  have hnano : nano % 1000000000 < 1000000000 := Nat.mod_lt nano (by decide)
  rw [chars_eq]
  -- one step for each part of the text
  refine Option.bind_eq_some_iff.2 ⟨_, takeYear?_yearText h.year_nonneg h.year_le _, ?_⟩
  refine Option.bind_eq_some_iff.2 ⟨_, takeMark?_cons hdash _, ?_⟩
  refine Option.bind_eq_some_iff.2 ⟨_, takeNumber?_padded (by decide) hmonth.1 _, ?_⟩
  refine Option.bind_eq_some_iff.2 ⟨_, takeMark?_cons hdash _, ?_⟩
  refine Option.bind_eq_some_iff.2 ⟨_, takeNumber?_padded (by decide) hmonth.2 _, ?_⟩
  refine Option.bind_eq_some_iff.2 ⟨_, takeNumber?_padded (by decide) hhour _, ?_⟩
  refine Option.bind_eq_some_iff.2 ⟨_, takeMark?_cons hcolon _, ?_⟩
  refine Option.bind_eq_some_iff.2 ⟨_, takeNumber?_padded (by decide) hminute _, ?_⟩
  refine Option.bind_eq_some_iff.2 ⟨_, takeMark?_cons hcolon _, ?_⟩
  refine Option.bind_eq_some_iff.2 ⟨_, takeNumber?_padded (by decide) hsecond _, ?_⟩
  refine Option.bind_eq_some_iff.2 ⟨_, takeFraction?_fractionText hnano _, ?_⟩
  have hzone : takeOffset? (Text.trimStart ['Z']) = some (0, []) := rfl
  refine Option.bind_eq_some_iff.2 ⟨_, hzone, ?_⟩
  refine (if_pos hin).trans ?_
  rw [hparts]
  dsimp only
  rw [htotal, ofLocal_zero hs]
  exact if_pos hdate

end Captioning.Instant
