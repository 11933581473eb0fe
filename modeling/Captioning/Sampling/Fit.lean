import Captioning.Sampling.Plan
/-!
# Fitting a picture

The size of a picture that is to fit within a square, with its proportions kept. No side vanishes.

Main statement: `fitWith_of_le` (a picture that fits keeps its size).
-/

namespace Captioning

/-- Numbers that can be rounded to the nearest whole one, a half away from zero. Numbers that are too large
or negative become the nearest possible size. -/
class Rounds (α : Type) where
  round : α → Nat

instance : Rounds Float := ⟨fun x => x.round.toUInt32.toNat⟩

/-- The size of a picture that fits within a square, computed with numbers of any kind. -/
def fitWith (α : Type) [NatCast α] [Mul α] [Div α] [Rounds α] (width height limit : Nat) : Nat × Nat :=
  let longest := max width height
  if longest ≤ limit then (width, height)
  else
    let scale : α := (limit : α) / (longest : α)
    let scaled := fun (side : Nat) => max (Rounds.round ((side : α) * scale)) 1
    (scaled width, scaled height)

/-- The size of a picture that fits within a square. -/
def fitWithin (width height limit : Nat) : Nat × Nat :=
  fitWith Float width height limit

theorem fitWith_of_le {α : Type} [NatCast α] [Mul α] [Div α] [Rounds α] {width height limit : Nat}
    (h : max width height ≤ limit) : fitWith α width height limit = (width, height) := by
  simp [fitWith, h]

end Captioning
