import Captioning.Bytes.Utf8
import Captioning.Decimal.Layout
import Captioning.Decimal.Scan
import Captioning.Network.Punycode
import Captioning.Network.StandIns
import Captioning.Text.Hex
/-!
# Hosts

A host is a name or a number. Each has one written form: names are in small letters of ASCII, once each character
has been replaced by what it stands for, numbers of thirty-two bits are four decimal numbers, and numbers of a
hundred and twenty-eight bits are eight hexadecimal ones in brackets, where the longest run of zeros is left out.
-/

namespace Captioning.Host

/-- A text cut at each separator. -/
def cut (separator : Char) (s : List Char) : List (List Char) :=
  s.splitOn separator

/-! ## Four numbers -/

/-- A number in the base that it starts with: hexadecimal behind `0x`, octal behind `0`. -/
def number? (s : List Char) : Option Nat :=
  let inBase := fun (base : Nat) (ds : List Char) => ds.foldlM (fun n c => do
    let d ← Text.hexDigit? c
    if d < base then some (n * base + d) else none) 0
  match s with
  | [] => none
  | ['0'] => some 0
  | '0' :: x :: ds => if x == 'x' || x == 'X' then inBase 16 ds else inBase 8 (x :: ds)
  | ds => inBase 10 ds

/-- The parts of a host name, without an empty one at its end. -/
def parts (s : List Char) : List (List Char) :=
  let ps := cut '.' s
  if 1 < ps.length && ps.getLast? == some [] then ps.dropLast else ps

/-- Whether a host name ends like a number. -/
def endsInNumber (s : List Char) : Bool :=
  match (parts s).getLast? with
  | some p => !p.isEmpty && (p.all Char.isDigit || (number? p).isSome)
  | none => false

/-- The number of some parts; the last one stands for all places that are left. -/
def joinParts? : Nat → List Nat → Option Nat
  | _, [] => none
  | places, [n] => if n < Nat.pow 256 places then some n else none
  | 0, _ :: _ => none
  | places + 1, n :: more => do
    if n < 256 then return n * Nat.pow 256 places + (← joinParts? places more) else none

/-- A number of thirty-two bits. -/
def four? (s : List Char) : Option Nat := do
  let ps := parts s
  if 4 < ps.length then none else joinParts? 4 (← ps.mapM number?)

/-- The written form of a number of thirty-two bits. -/
def fourText (n : Nat) : List Char :=
  ['.'].intercalate ([n / 16777216, n / 65536 % 256, n / 256 % 256, n % 256].map Decimal.digitsOf)

/-! ## Eight numbers -/

/-- A hexadecimal number of one to four digits. -/
def piece? (s : List Char) : Option Nat := do
  if s.isEmpty || 4 < s.length then none
  else return (← s.mapM Text.hexDigit?).foldl (fun n d => n * 16 + d) 0

/-- Four decimal numbers without needless zeros, as two pieces. -/
def tail? (s : List Char) : Option (List Nat) := do
  let ns ← (cut '.' s).mapM fun p =>
    if p.isEmpty || (1 < p.length && p.head? == some '0') then none else Decimal.readNat? 256 p
  match ns with
  | [a, b, c, d] => some [a * 256 + b, c * 256 + d]
  | _ => none

/-- The pieces of a list that may end in four decimal numbers. -/
def pieces? : List (List Char) → Option (List Nat)
  | [] => some []
  | [s] => if s.contains '.' then tail? s else (piece? s).map fun n => [n]
  | s :: more => do return (← piece? s) :: (← pieces? more)

/-- The pieces of a text, of which none is empty. -/
def run? (s : List Char) : Option (List Nat) :=
  if s.isEmpty then some [] else pieces? (cut ':' s)

/-- A text in front of two colons, and behind them. -/
def splitGap : List Char → List Char × Option (List Char)
  | ':' :: ':' :: r => ([], some r)
  | c :: r => let (front, behind) := splitGap r; (c :: front, behind)
  | [] => ([], none)

/-- The eight pieces of a number of a hundred and twenty-eight bits. -/
def eight? (s : List Char) : Option (List Nat) := do
  let (front, behind) := splitGap s
  match behind with
  | none =>
    let ns ← run? front
    if ns.length == 8 then some ns else none
  | some behind =>
    if front.contains '.' then none
    else
      let (a, b) := (← run? front, ← run? behind)
      if a.length + b.length < 8 then some (a ++ List.replicate (8 - a.length - b.length) 0 ++ b) else none

/-- How many zeros a list starts with. -/
def zerosOf (ns : List Nat) : Nat :=
  (ns.takeWhile (· == 0)).length

/-- Where the longest run of zeros in a list starts, and its length; of equal ones the first. -/
def longestZeros : Nat → List Nat → Nat × Nat
  | _, [] => (0, 0)
  | place, n :: more =>
    let later := longestZeros (place + 1) more
    if later.2 ≤ zerosOf (n :: more) then (place, zerosOf (n :: more)) else later

/-- Hexadecimal numbers with colons between them. -/
def pieceTexts (ns : List Nat) : List Char :=
  [':'].intercalate (ns.map (Nat.toDigits 16))

/-- The written form of eight pieces. -/
def eightText (ns : List Nat) : List Char :=
  let (start, length) := longestZeros 0 ns
  if length < 2 then '[' :: pieceTexts ns ++ [']']
  else '[' :: pieceTexts (ns.take start) ++ ':' :: ':' :: pieceTexts (ns.drop (start + length)) ++ [']']

/-! ## Names -/

/-- A text with `%` and two hexadecimal digits in place of a byte, as bytes. -/
def unescape : List Char → Bytes
  | '%' :: a :: b :: r =>
    match Text.hexDigit? a, Text.hexDigit? b with
    | some m, some n => UInt8.ofNat (m * 16 + n) :: unescape r
    | _, _ => Utf8.encode ['%'] ++ unescape (a :: b :: r)
  | c :: r => Utf8.encode [c] ++ unescape r
  | [] => []

/-- Whether a character may not stand in a host name. -/
def isForbidden (c : Char) : Bool :=
  c.toNat ≤ 0x20 || c.toNat == 0x7F || "#/:<>?@[\\]^`\x7b|\x7d%".toList.contains c

/-- A label in the characters of ASCII. -/
def label (s : List Char) : List Char :=
  if s.all fun c => c.toNat < 128 then s else "xn--".toList ++ Punycode.encode s

/-- The written form of a host; none if it is no host. -/
def canonical? (s : List Char) : Option (List Char) :=
  match s with
  | '[' :: r => match r.reverse with
    | ']' :: inner => (eight? inner.reverse).map eightText
    | _ => none
  | s =>
    let name := mapped (Utf8.decodeLossy (unescape s))
    if name.isEmpty || name.any isForbidden then none
    else
      let name := ['.'].intercalate ((cut '.' name).map label)
      if endsInNumber name then (four? name).map fourText else some name

end Captioning.Host
