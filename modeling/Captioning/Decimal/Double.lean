/-!
# Doubles as binary fractions

A finite double is a sign and a number m · 2^q. `Magnitude` holds m and q, and whether the next smaller
double lies only half as far away as the next larger one. Everything about decimal texts of doubles is
decided on these natural numbers.
-/

namespace Captioning.Decimal

/-- The absolute value of a finite double: `mantissa` · 2 ^ `exponent`. -/
structure Magnitude where
  mantissa : Nat
  exponent : Int
  /-- The double is a power of two above the smallest normal one, so its lower neighbour is nearer. -/
  tightBelow : Bool
deriving Repr, DecidableEq

/-- What a double stands for. -/
inductive Double
  | notANumber
  | infinite (negative : Bool)
  | finite (negative : Bool) (magnitude : Magnitude)
deriving Repr, DecidableEq

/-- Splits sixty-four bits into what they stand for. -/
def Double.ofBits (bits : Nat) : Double :=
  let negative := bits / Nat.pow 2 63 % 2 == 1
  let biased : Nat := bits / Nat.pow 2 52 % Nat.pow 2 11
  let fraction : Nat := bits % Nat.pow 2 52
  if biased == 2047 then
    if fraction == 0 then .infinite negative else .notANumber
  else if biased == 0 then .finite negative ⟨fraction, -1074, false⟩
  else .finite negative ⟨Nat.pow 2 52 + fraction, (biased : Int) - 1075, fraction == 0 && 1 < biased⟩

/-- What a floating point number stands for. -/
def Double.ofFloat (x : Float) : Double :=
  .ofBits x.toBits.toNat

/-- 2 ^ `q` as a fraction of natural numbers. -/
def powerOfTwo (q : Int) : Nat × Nat :=
  (Nat.pow 2 q.toNat, Nat.pow 2 (-q).toNat)

/-- 10 ^ `g` as a fraction of natural numbers. -/
def powerOfTen (g : Int) : Nat × Nat :=
  (Nat.pow 10 g.toNat, Nat.pow 10 (-g).toNat)

/-- The value as a fraction of natural numbers. -/
def Magnitude.fraction (x : Magnitude) : Nat × Nat :=
  let (up, down) := powerOfTwo x.exponent
  (x.mantissa * up, down)

/-- The decimal digits of a number as text. -/
def digitsOf (n : Nat) : List Char :=
  Nat.toDigits 10 n

end Captioning.Decimal
