import Captioning.Decimal.Shortest
/-!
# Decimal texts of doubles

Three ways to write a double. `Float.jsonText` and `Float.plainText` write the fewest digits that read
back, the first in positional notation between 10 ^ -5 and 10 ^ 16 and with an exponent elsewhere, the
second always in positional notation. `Float.fixedText` writes a given number of decimal places of the
exact value, a half going to the even neighbour.
-/

namespace Captioning.Decimal

/-- `n` zeros. -/
def zeros (n : Nat) : List Char :=
  List.replicate n '0'

/-- A minus sign for a negative number. -/
def signText (negative : Bool) : List Char :=
  if negative then ['-'] else []

/-- An exponent with its sign. -/
def exponentText (e : Int) : List Char :=
  'e' :: (if e < 0 then '-' else '+') :: digitsOf e.natAbs

/-- Digits · 10 ^ `g` in the notation of JSON numbers, which always shows that the number is no integer. -/
def layoutJson (digits : List Char) (g : Int) : List Char :=
  let point := (digits.length : Int) + g
  if 0 ≤ g && point ≤ 16 then digits ++ zeros g.toNat ++ ['.', '0']
  else if 0 < point && point ≤ 16 then digits.take point.toNat ++ '.' :: digits.drop point.toNat
  else if -5 < point && point ≤ 0 then '0' :: '.' :: zeros (-point).toNat ++ digits
  else match digits with
    | [d] => d :: exponentText (point - 1)
    | d :: more => d :: '.' :: more ++ exponentText (point - 1)
    | [] => []

/-- Digits · 10 ^ `g` in positional notation. -/
def layoutPlain (digits : List Char) (g : Int) : List Char :=
  let point := (digits.length : Int) + g
  if 0 ≤ g then digits ++ zeros g.toNat
  else if 0 < point then digits.take point.toNat ++ '.' :: digits.drop point.toNat
  else '0' :: '.' :: zeros (-point).toNat ++ digits

/-- Writes a double with the shortest digits in the given layout; `zero` is the text of zero. -/
def shortText (layout : List Char → Int → List Char) (zero : List Char) (x : Double) : List Char :=
  match x with
  | .notANumber => "NaN".toList
  | .infinite negative => signText negative ++ "inf".toList
  | .finite negative m =>
    if m.mantissa == 0 then signText negative ++ zero
    else
      let (d, g) := m.shortest
      signText negative ++ layout (digitsOf d) g

/-- The text of a double as a JSON number. -/
def jsonText (x : Float) : String :=
  String.ofList (shortText layoutJson "0.0".toList (.ofFloat x))

/-- The text of a double in positional notation. -/
def plainText (x : Float) : String :=
  String.ofList (shortText layoutPlain ['0'] (.ofFloat x))

/-- `num / den` rounded to the nearest integer, a half to the even one. -/
def roundHalfEven (num den : Nat) : Nat :=
  let q := num / den
  let r := num % den
  if 2 * r < den then q
  else if den < 2 * r then q + 1
  else if q % 2 == 0 then q else q + 1

/-- The text of `n` · 10 ^ -`places`. -/
def placesText (n places : Nat) : List Char :=
  if places == 0 then digitsOf n
  else
    let fraction := digitsOf (n % Nat.pow 10 places)
    digitsOf (n / Nat.pow 10 places) ++ '.' :: zeros (places - fraction.length) ++ fraction

/-- The text of a double with a fixed number of decimal places. -/
def fixedText (places : Nat) (x : Float) : String :=
  String.ofList <| match Double.ofFloat x with
  | .notANumber => "NaN".toList
  | .infinite negative => signText negative ++ "inf".toList
  | .finite negative m =>
    let (num, den) := m.fraction
    signText negative ++ placesText (roundHalfEven (num * Nat.pow 10 places) den) places

end Captioning.Decimal
