/-!
# Reading decimals

Splitting a decimal literal into its digits and its exponent, and the double nearest to it. Digits and
exponent may be of any size: far beyond the range of doubles the answer is infinity or zero without
computing the power of ten.
-/

namespace Captioning.Decimal

/-- A decimal: `digits` · 10 ^ `exponent`, with a sign of its own so that -0 is kept. -/
structure Scanned where
  negative : Bool
  digits : Nat
  exponent : Int
deriving Repr, DecidableEq

/-- The number that a list of digits spells. -/
def valueOf (ds : List Char) : Nat :=
  ds.foldl (fun n c => n * 10 + (c.toNat - '0'.toNat)) 0

/-- The longest front of digits, and the rest. -/
def spanDigits (s : List Char) : List Char × List Char :=
  (s.takeWhile Char.isDigit, s.dropWhile Char.isDigit)

/-- A sign in front, and the rest. -/
def takeSign : List Char → Bool × List Char
  | '-' :: r => (true, r)
  | '+' :: r => (false, r)
  | r => (false, r)

/-- The exponent at the end of a decimal, if what is left is one. -/
def scanExponent? : List Char → Option Int
  | [] => some 0
  | c :: r =>
    if c == 'e' || c == 'E' then
      let (negative, r) := takeSign r
      if r.isEmpty || !r.all Char.isDigit then none
      else some (if negative then -(valueOf r : Int) else valueOf r)
    else none

/-- Reads digits, an optional point with digits on at least one side of it, and an optional exponent. -/
def scan? (s : List Char) : Option Scanned :=
  let (negative, r) := takeSign s
  let (whole, r) := spanDigits r
  let (part, r) := match r with
    | '.' :: r => spanDigits r
    | r => ([], r)
  if whole.isEmpty && part.isEmpty then none
  else do
    let e ← scanExponent? r
    some ⟨negative, valueOf (whole ++ part), e - part.length⟩

/-- The double nearest to a decimal. -/
def Scanned.toFloat (x : Scanned) : Float :=
  let place := ((Nat.toDigits 10 x.digits).length : Int) + x.exponent
  let size : Float :=
    if x.digits == 0 then 0.0
    else if 400 < place then 1.0 / 0.0
    else if place < -400 then 0.0
    else Float.ofScientific x.digits (x.exponent < 0) x.exponent.natAbs
  if x.negative then -size else size

/-- Lower case of the ASCII letters. -/
def asciiLower (s : List Char) : List Char :=
  s.map Char.toLower

/-- Reads a double: a decimal, or a name of infinity or of no number, in any case of letters. -/
def readFloat? (s : List Char) : Option Float :=
  match scan? s with
  | some x => some x.toFloat
  | none =>
    let (negative, word) := takeSign s
    let word := String.ofList (asciiLower word)
    if word == "inf" || word == "infinity" then some (if negative then -(1.0 / 0.0) else 1.0 / 0.0)
    else if word == "nan" then some (0.0 / 0.0)
    else none

/-- Reads a natural number below `bound`, with an optional plus sign. -/
def readNat? (bound : Nat) (s : List Char) : Option Nat :=
  let r := match s with
    | '+' :: r => r
    | r => r
  if r.isEmpty || !r.all Char.isDigit then none
  else if valueOf r < bound then some (valueOf r) else none

/-- Reads an integer of sixty-four bits with an optional sign. -/
def readInt? (s : List Char) : Option Int :=
  let (negative, r) := takeSign s
  if r.isEmpty || !r.all Char.isDigit then none
  else
    let n : Int := if negative then -(valueOf r : Int) else valueOf r
    if -(Nat.pow 2 63) ≤ n && n < Nat.pow 2 63 then some n else none

end Captioning.Decimal
