import Captioning.Sampling.Plan
import Mathlib.Algebra.Order.Floor.Semifield
import Mathlib.Data.Rat.Floor
import Mathlib.Order.Monotone.Basic
import Mathlib.Tactic.FieldSimp
import Mathlib.Tactic.Ring
/-!
# Positions spread over a sequence

Of a long sequence the position `i` is a quotient rounded half up (`sampleIndices_eq`). A quotient whose dividend
grows by a constant amount grows by the floor or the ceiling of what that amount is to its divisor
(`halfUp_add`); as there are more frames than positions, that is at least one frame, so the positions are in strict
order. They begin with the first frame and end with the last one (`sampled_positions`). A short sequence is taken
whole.
-/

namespace Captioning

/-- The quotient of two numbers, rounded to the nearest number, a half rounded up. -/
def halfUp (a b : Nat) : Nat := (2 * a + b) / (2 * b)

section HalfUp

variable {a b c : Nat}

theorem halfUp_zero (hb : 0 < b) : halfUp 0 b = 0 :=
  Nat.div_eq_of_lt (by omega)

theorem halfUp_mul (hb : 0 < b) : halfUp (b * c) b = c := by
  have h : 2 * (b * c) + b = b + 2 * b * c := by ring
  rw [halfUp, h, Nat.add_mul_div_left _ _ (by omega), Nat.div_eq_of_lt (by omega), Nat.zero_add]

theorem halfUp_le_halfUp (h : a ≤ c) : halfUp a b ≤ halfUp c b :=
  Nat.div_le_div_right (by omega)

theorem halfUp_eq_floor (hb : 0 < b) : halfUp a b = ⌊(a : ℚ) / b + 1 / 2⌋₊ := by
  have hq : (a : ℚ) / b + 1 / 2 = ((2 * a + b : Nat) : ℚ) / ((2 * b : Nat) : ℚ) := by
    have : (b : ℚ) ≠ 0 := Nat.cast_ne_zero.2 hb.ne'
    push_cast
    field_simp
  rw [hq, Nat.floor_div_eq_div, halfUp]

/-- A rounded quotient is off by no more than a half. -/
theorem halfUp_close (hb : 0 < b) : 2 * |(halfUp a b : ℤ) * b - a| ≤ b := by
  have hdiv : 2 * b * halfUp a b + (2 * a + b) % (2 * b) = 2 * a + b := Nat.div_add_mod (2 * a + b) (2 * b)
  have hmod := Nat.mod_lt (2 * a + b) (show 0 < 2 * b by omega)
  have hprod : 2 * b * halfUp a b = 2 * (halfUp a b * b) := by ring
  rw [← Int.natCast_mul]
  obtain ⟨h, -⟩ | ⟨h, -⟩ := abs_cases (((halfUp a b * b : Nat) : ℤ) - a) <;> omega

/-- The floor of a sum, split at one of its parts. -/
theorem floor_add_eq {x q : ℚ} (hx : 0 ≤ x) (hq : 0 ≤ q) :
    ⌊x + q⌋₊ = ⌊x⌋₊ + ⌊q⌋₊ ∨ ⌊x + q⌋₊ = ⌊x⌋₊ + ⌈q⌉₊ := by
  have hlow : ⌊x⌋₊ + ⌊q⌋₊ ≤ ⌊x + q⌋₊ := by
    refine Nat.le_floor ?_
    push_cast
    exact add_le_add (Nat.floor_le hx) (Nat.floor_le hq)
  have hhigh : ⌊x + q⌋₊ < ⌊x⌋₊ + ⌈q⌉₊ + 1 := by
    rw [Nat.floor_lt (add_nonneg hx hq)]
    push_cast
    have := Nat.lt_floor_add_one x
    have := Nat.le_ceil q
    linarith
  have hceil : ⌈q⌉₊ ≤ ⌊q⌋₊ + 1 := Nat.ceil_le_floor_add_one q
  omega

/-- A greater dividend makes the rounded quotient greater by the floor or the ceiling of what it is greater by. -/
theorem halfUp_add (hb : 0 < b) :
    halfUp (a + c) b = halfUp a b + ⌊(c : ℚ) / b⌋₊ ∨ halfUp (a + c) b = halfUp a b + ⌈(c : ℚ) / b⌉₊ := by
  have hsum : ((a + c : Nat) : ℚ) / b + 1 / 2 = (a : ℚ) / b + 1 / 2 + (c : ℚ) / b := by
    push_cast
    ring
  rw [halfUp_eq_floor hb, halfUp_eq_floor hb, hsum]
  exact floor_add_eq (by positivity) (by positivity)

/-- A dividend that is greater by no less than the divisor makes the rounded quotient greater. -/
theorem halfUp_lt_add (hb : 0 < b) (hc : b ≤ c) : halfUp a b < halfUp (a + c) b := by
  have hpos : 1 ≤ ⌊(c : ℚ) / b⌋₊ := by
    rw [Nat.floor_div_eq_div]
    exact Nat.div_pos hc hb
  have hle : ⌊(c : ℚ) / b⌋₊ ≤ ⌈(c : ℚ) / b⌉₊ := Nat.floor_le_ceil _
  rcases halfUp_add (a := a) hb (c := c) with h | h <;> omega

end HalfUp

/-! ## The positions of a plan -/

variable {count target : Nat}

/-- The positions in a long sequence, where no product leaves the word that it is counted in. -/
theorem sampleIndices_eq (ht : 2 ≤ target) (hc : target < count)
    (hfits : 2 * (target - 1) * (count - 1) + (target - 1) < positionBound) :
    sampleIndices count target = (List.range target).map fun i => halfUp (i * (count - 1)) (target - 1) := by
  unfold sampleIndices
  rw [if_neg (by omega), if_neg (by simp; omega), if_neg (by simp; omega)]
  refine List.map_congr_left fun i hi => ?_
  have hle : 2 * i * (count - 1) ≤ 2 * (target - 1) * (count - 1) :=
    Nat.mul_le_mul_right _ (by have := List.mem_range.1 hi; omega)
  rw [Nat.mod_eq_of_lt (by omega), Nat.mul_assoc, halfUp]

/-- Positions spread evenly over a sequence of `count` frames, from the first frame to the last. -/
structure Spread (count target : Nat) (positions : List Nat) : Prop where
  length : positions.length = target
  first : positions[0]? = some 0
  last : positions[target - 1]? = some (count - 1)
  increasing : positions.Pairwise (· < ·)
  nearest (i m : Nat) : positions[i]? = some m → m = ⌊(i * (count - 1) : ℚ) / (target - 1) + 1 / 2⌋₊
  close (i m : Nat) : positions[i]? = some m → 2 * |(m * (target - 1) : ℤ) - i * (count - 1)| ≤ target - 1
  gaps (i m n : Nat) : positions[i]? = some m → positions[i + 1]? = some n →
    n = m + ⌊(count - 1 : ℚ) / (target - 1)⌋₊ ∨ n = m + ⌈(count - 1 : ℚ) / (target - 1)⌉₊

/-- Rounded quotients of evenly spaced dividends are spread evenly. -/
theorem spread_halfUp (ht : 2 ≤ target) (hc : target < count) :
    Spread count target ((List.range target).map fun i => halfUp (i * (count - 1)) (target - 1)) := by
  obtain ⟨span, rfl⟩ : ∃ span, count = span + 1 := ⟨count - 1, by omega⟩
  obtain ⟨steps, rfl⟩ : ∃ steps, target = steps + 1 := ⟨target - 1, by omega⟩
  simp only [Nat.add_sub_cancel]
  have hsteps : 0 < steps := by omega
  have hget : ∀ i m, ((List.range (steps + 1)).map fun i => halfUp (i * span) steps)[i]? = some m →
      m = halfUp (i * span) steps := by
    intro i m hm
    obtain ⟨j, hj, rfl⟩ := Option.map_eq_some_iff.1 (List.getElem?_map ▸ hm)
    obtain ⟨-, rfl⟩ := List.getElem?_eq_some_iff.1 hj
    rw [List.getElem_range]
  have hmono : StrictMono fun i => halfUp (i * span) steps :=
    strictMono_nat_of_lt_succ fun i => by
      rw [Nat.succ_mul]
      exact halfUp_lt_add hsteps (by omega)
  constructor
  case length => simp
  case first => simp [halfUp_zero hsteps]
  case last => simp [halfUp_mul hsteps]
  case increasing => exact List.pairwise_lt_range.map _ fun i j hij => hmono hij
  case nearest =>
    intro i m hm
    rw [hget i m hm, halfUp_eq_floor hsteps]
    push_cast
    simp
  case close =>
    intro i m hm
    rw [hget i m hm]
    simpa using halfUp_close (a := i * span) hsteps
  case gaps =>
    intro i m n hm hn
    rw [hget i m hm, hget (i + 1) n hn, Nat.succ_mul]
    simpa using halfUp_add (a := i * span) (c := span) hsteps

/-- The positions that are sampled: all of a short sequence, and of a long one as many as are wanted, spread evenly.
The bound says that no product leaves the word that it is counted in. -/
theorem sampled_positions (count target : Nat) :
    (count ≤ target → sampleIndices count target = List.range count)
    ∧ (2 ≤ target → target < count → 2 * (target - 1) * (count - 1) + (target - 1) < 2 ^ 64 →
      Spread count target (sampleIndices count target)) := by
  refine ⟨sampleIndices_of_le, fun ht hc hfits => ?_⟩
  rw [sampleIndices_eq ht hc hfits]
  exact spread_halfUp ht hc

/-- Five positions among twelve frames: gaps of two and three, and a half rounded up. -/
theorem five_of_twelve : sampleIndices 12 5 = [0, 3, 6, 8, 11] ∧ Spread 12 5 [0, 3, 6, 8, 11] :=
  ⟨by decide, (sampled_positions 12 5).2 (by decide) (by decide) (by decide)⟩

end Captioning
