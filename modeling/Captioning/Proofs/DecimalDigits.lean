import Captioning.Decimal.Layout
import Captioning.Decimal.Scan
import Mathlib.Algebra.Group.Nat.Defs
/-!
# The digits of a number

The digits that are written for a number spell that number (`valueOf_digitsOf`), also behind zeros
(`valueOf_zeros_append`), and a scan for digits takes exactly them (`spanDigits_digits`). Only zero itself is
written with a zero in front (`digitsOf_head`).
-/

namespace Captioning.Decimal

theorem valueOf_eq_ofDigitChars (ds : List Char) : valueOf ds = Nat.ofDigitChars 10 ds 0 := by
  have step : ∀ n, ds.foldl (fun n c => n * 10 + (c.toNat - '0'.toNat)) n = Nat.ofDigitChars 10 ds n := by
    induction ds with
    | nil => exact fun n => rfl
    | cons c ds ih =>
      intro n
      rw [List.foldl_cons, ih, Nat.ofDigitChars_cons, Nat.mul_comm]
  exact step 0

@[simp] theorem valueOf_digitsOf (n : Nat) : valueOf (digitsOf n) = n := by
  rw [valueOf_eq_ofDigitChars, digitsOf]
  exact Nat.ofDigitChars_toDigits (by decide) (by decide)

/-- Zeros in front of a numeral do not count. -/
@[simp] theorem valueOf_zeros_append (k : Nat) (ds : List Char) : valueOf (zeros k ++ ds) = valueOf ds := by
  rw [valueOf_eq_ofDigitChars, valueOf_eq_ofDigitChars, Nat.ofDigitChars_append, zeros,
    Nat.ofDigitChars_replicate_zero, Nat.mul_zero]

theorem isDigit_of_mem_digitsOf {n : Nat} {c : Char} (h : c ∈ digitsOf n) : c.isDigit = true :=
  Nat.isDigit_of_mem_toDigits (by decide) (by decide) h

theorem isDigit_of_mem_zeros {k : Nat} {c : Char} (h : c ∈ zeros k) : c.isDigit = true := by
  rw [List.eq_of_mem_replicate h]
  decide

theorem digitsOf_ne_nil (n : Nat) : digitsOf n ≠ [] := Nat.toDigits_ne_nil

theorem length_digitsOf_le {n k : Nat} (hk : 0 < k) : (digitsOf n).length ≤ k ↔ n < 10 ^ k :=
  Nat.length_toDigits_le_iff (by decide) hk

/-- The first digit of a positive number is no zero. -/
theorem digitsOf_head {n : Nat} (h : 0 < n) : ∃ c ds, digitsOf n = c :: ds ∧ c ≠ '0' := by
  induction n using Nat.strongRecOn with
  | ind n ih =>
    by_cases hn : n < 10
    · refine ⟨n.digitChar, [], Nat.toDigits_of_lt_base hn, ?_⟩
      have digit : ∀ m < 10, 0 < m → m.digitChar ≠ '0' := by decide
      exact digit n hn h
    · obtain ⟨c, ds, hd, hc⟩ := ih (n / 10) (by omega) (by omega)
      refine ⟨c, ds ++ [(n % 10).digitChar], ?_, hc⟩
      rw [digitsOf, Nat.toDigits_of_base_le (by decide) (by omega), ← digitsOf, hd, List.cons_append]

/-- A scan for digits takes the digits in front of something else. -/
theorem spanDigits_digits {ds r : List Char} (hd : ∀ c ∈ ds, c.isDigit = true)
    (hr : ∀ c ∈ r.head?, c.isDigit = false) : spanDigits (ds ++ r) = (ds, r) := by
  have hstop : r.takeWhile Char.isDigit = [] ∧ r.dropWhile Char.isDigit = r := by
    rcases r with _ | ⟨c, r⟩
    · exact ⟨rfl, rfl⟩
    · have hc : c.isDigit = false := hr c rfl
      simp [hc]
  rw [spanDigits, List.takeWhile_append_of_pos hd, List.dropWhile_append_of_pos hd, hstop.1, hstop.2,
    List.append_nil]

end Captioning.Decimal
