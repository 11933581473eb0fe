import Captioning.Json.Draft
/-!
# The value of a JSON number

A numeral without point and exponent is an integer if it fits sixty-four bits; every other one is a
double. A double is made from as many leading digits as fit an unsigned sixty-four bit integer, converted
to a double and scaled by one power of ten; later digits only count towards the exponent. A scale beyond
the largest power of ten is applied in two steps. The result may differ in the last place from the double
nearest to the numeral; a result beyond the largest double is refused.
-/

namespace Captioning.Json

/-- A number: integers of sixty-four bits are kept exactly. -/
inductive Number
  | integer (n : Int)
  | double (x : Float)

/-- The number as a value. -/
def Number.toValue : Number → Value
  | .integer n => .integer n
  | .double x => .double x

/-- The digits of a numeral that count, and how many digits follow them. -/
def leadingDigits (n count : Nat) : List Char → Nat × Nat
  | [] => (n, count)
  | c :: r =>
    let m := n * 10 + (c.toNat - 48)
    if m < Nat.pow 2 64 then leadingDigits m (count + 1) r else (n, count)

/-- 10 ^ `e` as a double. -/
def tenTo (e : Nat) : Float :=
  Float.ofScientific 1 false e

/-- Scales a double by 10 ^ `e`, where `e` is below the range that one power of ten covers. -/
def scaleDown : Nat → Float → Int → Float
  | 0, x, _ => x
  | fuel + 1, x, e =>
    if -308 ≤ e then x / tenTo e.natAbs
    else if x == 0.0 then x
    else scaleDown fuel (x / tenTo 308) (e + 308)

/-- A significand scaled by 10 ^ `e`; none if that is too large. -/
def scaled? (significand : Nat) (e : Int) : Option Float :=
  let x := (UInt64.ofNat significand).toFloat
  if e < 0 then some (scaleDown 8 x e)
  else if e ≤ 308 then
    let y := x * tenTo e.toNat
    if y.isInf then none else some y
  else if x == 0.0 then some x
  else none

/-- The exponent that a numeral writes; exponents past thirty-one bits are told apart only by sign. -/
def writtenExponent (negative : Bool) (ds : List Char) : Int :=
  let n := min (Decimal.valueOf ds) (Nat.pow 2 31)
  if negative then -(n : Int) else n

/-- The value of a numeral. -/
def Numeral.read (n : Numeral) : Except Fault Number :=
  let signed := fun (x : Float) => if n.negative then -x else x
  let whole := Decimal.valueOf n.whole
  if n.part.isNone && n.exponent.isNone && whole < Nat.pow 2 64 && !n.negative then .ok (.integer whole)
  else if n.part.isNone && n.exponent.isNone && 0 < whole && whole ≤ Nat.pow 2 63 && n.negative then
    .ok (.integer (-(whole : Int)))
  else
    let part := n.part.getD []
    let (significand, used) := leadingDigits 0 0 (n.whole ++ part)
    let shift : Int := (n.whole.length : Int) - used
    let written := match n.exponent with
      | none => 0
      | some (negative, ds) => writtenExponent negative ds
    match scaled? significand (shift + written) with
    | some x => .ok (.double (signed x))
    | none => .error .numberOutOfRange

end Captioning.Json
