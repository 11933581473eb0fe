import Captioning.Decimal.Double
/-!
# The fewest digits that read back

Among the decimals that round to a given double, the ones with fewest digits, and of those the nearest to
the double. The search goes over grids 10 ^ g from coarse to fine; on each grid only the two neighbours
of the value can lie in the interval of numbers that round to it. Of two that do, the nearer is taken, and
of two equally near the even one.
-/

namespace Captioning.Decimal

/-- The place of the first digit of `num / den`: the largest e with 10 ^ e at most the value. -/
def leadingPlace (num den : Nat) : Int :=
  if den ≤ num then ((digitsOf (num / den)).length : Int) - 1
  else
    let places := (digitsOf (den / num)).length
    if num * Nat.pow 10 (places - 1) == den then 1 - (places : Int) else -(places : Int)

/-- Whether `d` · 10 ^ `g` rounds to the double `x`. The bounds belong to it when its mantissa is even. -/
def Magnitude.admits (x : Magnitude) (d : Nat) (g : Int) : Bool :=
  let (tenUp, tenDown) := powerOfTen g
  let (twoUp, twoDown) := powerOfTwo (x.exponent - 2)
  let here := d * tenUp * twoDown
  let low := (4 * x.mantissa - if x.tightBelow then 1 else 2) * twoUp * tenDown
  let high := (4 * x.mantissa + 2) * twoUp * tenDown
  if x.mantissa % 2 == 0 then low ≤ here && here ≤ high else low < here && here < high

/-- The decimal on the grid 10 ^ `g` that rounds to `x` and is nearest to it, if there is one. -/
def Magnitude.onGrid? (x : Magnitude) (g : Int) : Option Nat :=
  let (num, den) := x.fraction
  let (up, down) := powerOfTen g
  let below := num * down / (den * up)
  let rest := num * down % (den * up)
  match x.admits below g, x.admits (below + 1) g with
  | true, true =>
    if 2 * rest < den * up then some below
    else if den * up < 2 * rest then some (below + 1)
    else if below % 2 == 0 then some below else some (below + 1)
  | true, false => some below
  | false, true => some (below + 1)
  | false, false => none

/-- Moves zeros at the end of the digits into the exponent. -/
def dropZeros : Nat → Nat → Int → Nat × Int
  | 0, d, g => (d, g)
  | fuel + 1, d, g => if d % 10 == 0 then dropZeros fuel (d / 10) (g + 1) else (d, g)

/-- The shortest decimal digits and exponent of a value that is not zero: `digits` · 10 ^ `exponent`. -/
def Magnitude.shortest (x : Magnitude) : Nat × Int :=
  let (num, den) := x.fraction
  let lead := leadingPlace num den
  let hit := (List.range 17).findSome? fun (n : Nat) =>
    let g := lead - (n : Int)
    (x.onGrid? g).map fun d => (d, g)
  match hit with
  | some (d, g) => dropZeros 20 d g
  | none => (x.mantissa, x.exponent)

end Captioning.Decimal
