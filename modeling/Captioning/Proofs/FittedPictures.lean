import Captioning.Proofs.SampledPositions
import Captioning.Sampling.Fit
import Mathlib.Algebra.Order.Field.Rat
import Mathlib.Tactic.FieldSimp
import Mathlib.Tactic.Linarith
import Mathlib.Tactic.Positivity
/-!
# The size of a fitted picture

Where sizes are computed exactly, a side of a picture that is too large becomes a quotient rounded to the nearest number,
and at least 1 (`fitWith_of_lt`). The longest side becomes the limit itself (`fittedSide_longest`), so nothing is left to
do for a second fitting, and no side becomes longer (`fittedSide_le`). A longer side stays longer, or as long
(`fittedSide_mono`). All of this makes a size `Fitted` (`fitted_fitWith`).
-/

namespace Captioning

/-- The whole number nearest to a rational one, a half rounded away from zero. -/
def roundAway (x : ℚ) : ℤ :=
  if 0 ≤ x then ⌊x + 1 / 2⌋ else ⌈x - 1 / 2⌉

/-- Rational numbers are rounded into words of thirty-two bits. -/
instance exactRounding : Rounds ℚ := ⟨fun x => min (roundAway x).toNat (2 ^ 32 - 1)⟩

/-- What a side of a picture becomes that is too large: the nearest size in proportion, but no side vanishes. -/
def fittedSide (longest limit side : Nat) : Nat :=
  max (halfUp (side * limit) longest) 1

section Side

variable {longest limit side : Nat}

theorem halfUp_le_limit (h : 0 < longest) (hs : side ≤ longest) : halfUp (side * limit) longest ≤ limit :=
  calc halfUp (side * limit) longest ≤ halfUp (longest * limit) longest := halfUp_le_halfUp (Nat.mul_le_mul_right _ hs)
    _ = limit := halfUp_mul h

theorem round_side (h : 0 < longest) (hs : side ≤ longest) (hfits : limit < 2 ^ 32) :
    Rounds.round ((side : ℚ) * ((limit : ℚ) / (longest : ℚ))) = halfUp (side * limit) longest := by
  have hq : (side : ℚ) * ((limit : ℚ) / (longest : ℚ)) = ((side * limit : Nat) : ℚ) / longest := by
    push_cast
    ring
  have hround : (roundAway ((side : ℚ) * ((limit : ℚ) / (longest : ℚ)))).toNat = halfUp (side * limit) longest := by
    rw [roundAway, if_pos (by positivity), hq, Int.floor_toNat, halfUp_eq_floor h]
  have hle : halfUp (side * limit) longest ≤ limit := halfUp_le_limit h hs
  show min (roundAway _).toNat (2 ^ 32 - 1) = _
  rw [hround, min_eq_left (by omega)]

theorem fittedSide_longest (h : 0 < longest) (hl : 1 ≤ limit) : fittedSide longest limit longest = limit := by
  rw [fittedSide, halfUp_mul h, max_eq_left hl]

theorem fittedSide_le_limit (h : 0 < longest) (hs : side ≤ longest) (hl : 1 ≤ limit) :
    fittedSide longest limit side ≤ limit :=
  max_le (halfUp_le_limit h hs) hl

theorem fittedSide_mono {side' : Nat} (h : side ≤ side') :
    fittedSide longest limit side ≤ fittedSide longest limit side' :=
  max_le_max (halfUp_le_halfUp (Nat.mul_le_mul_right _ h)) le_rfl

/-- No side becomes longer where the longest becomes shorter. -/
theorem fittedSide_le (hlt : limit < longest) (hs : 1 ≤ side) : fittedSide longest limit side ≤ side := by
  have hpos : 0 < longest := by omega
  refine max_le ?_ hs
  calc halfUp (side * limit) longest ≤ halfUp (longest * side) longest :=
        halfUp_le_halfUp (Nat.mul_comm longest side ▸ Nat.mul_le_mul_left side hlt.le)
    _ = side := halfUp_mul hpos

/-- A new side is off the exact proportion by no more than a half, unless that is less than a half and the side has been
raised to 1. -/
def Proportional (longest limit side new : Nat) : Prop :=
  |(new : ℚ) - side * limit / longest| ≤ 1 / 2 ∨ new = 1 ∧ (side * limit / longest : ℚ) < 1 / 2

theorem proportional_fittedSide (h : 0 < longest) : Proportional longest limit side (fittedSide longest limit side) := by
  have hfloor : halfUp (side * limit) longest = ⌊(side * limit / longest : ℚ) + 1 / 2⌋₊ := by
    rw [halfUp_eq_floor h, Nat.cast_mul]
  have hnonneg : (0 : ℚ) ≤ side * limit / longest + 1 / 2 := by positivity
  rcases Nat.eq_zero_or_pos (halfUp (side * limit) longest) with h0 | hpos
  · refine .inr ⟨by rw [fittedSide, h0]; rfl, ?_⟩
    have := Nat.lt_of_floor_lt (hfloor ▸ h0 ▸ Nat.zero_lt_one : ⌊(side * limit / longest : ℚ) + 1 / 2⌋₊ < 1)
    rw [Nat.cast_one] at this
    linarith
  · refine .inl ?_
    have hlow := Nat.lt_floor_add_one ((side * limit / longest : ℚ) + 1 / 2)
    have hhigh := Nat.floor_le hnonneg
    rw [fittedSide, max_eq_left hpos, hfloor, abs_le]
    constructor <;> linarith

end Side

/-! ## Sizes -/

section Size

variable {width height limit : Nat}

/-- The size of a picture that is too large. -/
theorem fitWith_of_lt (h : limit < max width height) (hfits : limit < 2 ^ 32) : fitWith ℚ width height limit
    = (fittedSide (max width height) limit width, fittedSide (max width height) limit height) := by
  have hpos : 0 < max width height := by omega
  unfold fitWith
  rw [if_neg (by omega)]
  dsimp only
  rw [round_side hpos (le_max_left _ _) hfits, round_side hpos (le_max_right _ _) hfits]
  rfl

/-- A size to which a picture is fitted. One that is small enough is kept. Of a larger one the longest side becomes the
limit, and each side is in proportion. -/
structure Fitted (width height limit : Nat) (size : Nat × Nat) : Prop where
  small : max width height ≤ limit → size = (width, height)
  longest : limit < max width height → max size.1 size.2 = limit
    ∧ (width = max width height → size.1 = limit) ∧ (height = max width height → size.2 = limit)
  pos : 1 ≤ size.1 ∧ 1 ≤ size.2
  le : size.1 ≤ width ∧ size.2 ≤ height
  proportional : limit < max width height → Proportional (max width height) limit width size.1
    ∧ Proportional (max width height) limit height size.2

theorem fitted_fitWith (hw : 1 ≤ width) (hh : 1 ≤ height) (hl : 1 ≤ limit) (hfits : limit < 2 ^ 32) :
    Fitted width height limit (fitWith ℚ width height limit) := by
  rcases Nat.lt_or_ge limit (max width height) with hlt | hle
  · have hpos : 0 < max width height := by omega
    rw [fitWith_of_lt hlt hfits]
    constructor
    case small => omega
    case longest =>
      intro _
      have hlongest : ∀ side, side = max width height → fittedSide (max width height) limit side = limit := by
        rintro side rfl
        exact fittedSide_longest hpos hl
      refine ⟨le_antisymm (max_le ?_ ?_) ?_, hlongest width, hlongest height⟩
      · exact fittedSide_le_limit hpos (le_max_left _ _) hl
      · exact fittedSide_le_limit hpos (le_max_right _ _) hl
      · rcases max_choice width height with hside | hside
        · exact le_max_of_le_left (hlongest width hside.symm).ge
        · exact le_max_of_le_right (hlongest height hside.symm).ge
    case pos => exact ⟨le_max_right _ _, le_max_right _ _⟩
    case le => exact ⟨fittedSide_le hlt hw, fittedSide_le hlt hh⟩
    case proportional => exact fun _ => ⟨proportional_fittedSide hpos, proportional_fittedSide hpos⟩
  · rw [fitWith_of_le hle]
    exact ⟨fun _ => rfl, by omega, ⟨hw, hh⟩, ⟨le_rfl, le_rfl⟩, by omega⟩

/-- A longer side of pictures that are equally long stays longer, or as long. -/
theorem fitWith_mono {width' height' : Nat} (hfits : limit < 2 ^ 32) (hlongest : max width' height' = max width height) :
    (width ≤ width' → (fitWith ℚ width height limit).1 ≤ (fitWith ℚ width' height' limit).1)
      ∧ (height ≤ height' → (fitWith ℚ width height limit).2 ≤ (fitWith ℚ width' height' limit).2) := by
  rcases Nat.lt_or_ge limit (max width height) with hlt | hle
  · rw [fitWith_of_lt hlt hfits, fitWith_of_lt (hlongest ▸ hlt) hfits, hlongest]
    exact ⟨fittedSide_mono, fittedSide_mono⟩
  · rw [fitWith_of_le hle, fitWith_of_le (hlongest ▸ hle)]
    exact ⟨id, id⟩

/-- The size to which a picture is fitted, computed exactly. It is fitted in proportion, it is not changed by a second
fitting, and among pictures whose longest sides are equal a wider one becomes no narrower and a higher one no lower. -/
theorem fitted_size (hw : 1 ≤ width) (hh : 1 ≤ height) (hl : 1 ≤ limit) (hfits : limit < 2 ^ 32) :
    Fitted width height limit (fitWith ℚ width height limit)
    ∧ fitWith ℚ (fitWith ℚ width height limit).1 (fitWith ℚ width height limit).2 limit = fitWith ℚ width height limit
    ∧ ∀ width' height', max width' height' = max width height →
      (width ≤ width' → (fitWith ℚ width height limit).1 ≤ (fitWith ℚ width' height' limit).1)
      ∧ (height ≤ height' → (fitWith ℚ width height limit).2 ≤ (fitWith ℚ width' height' limit).2) := by
  have hfitted := fitted_fitWith hw hh hl hfits
  refine ⟨hfitted, fitWith_of_le ?_, fun width' height' => fitWith_mono hfits⟩
  rcases Nat.lt_or_ge limit (max width height) with hlt | hle
  · exact (hfitted.longest hlt).1.le
  · rwa [hfitted.small hle]

end Size

/-- Of a strip of the greatest width the height is less than half a pixel in proportion. It is raised to 1. -/
theorem fitted_size_strip : 1 ≤ 2 ^ 32 - 1 ∧ 1 ≤ 4000000 ∧ 1 ≤ 512 ∧ 512 < 2 ^ 32
    ∧ Fitted (2 ^ 32 - 1) 4000000 512 (512, 1) ∧ fitWith ℚ 512 1 512 = (512, 1) := by
  have hsize : fitWith ℚ (2 ^ 32 - 1) 4000000 512 = (512, 1) := by
    rw [fitWith_of_lt (by decide) (by decide)]
    decide
  obtain ⟨hfitted, hagain, -⟩ := @fitted_size (2 ^ 32 - 1) 4000000 512 (by decide) (by decide) (by decide) (by decide)
  rw [hsize] at hfitted hagain
  exact ⟨by decide, by decide, by decide, by decide, hfitted, hagain⟩

end Captioning
