import Captioning.Decimal.Layout
import Captioning.Decimal.Scan
import Captioning.Text.Blank
/-!
# Instants

A moment of Coordinated Universal Time, as a date, a second of that day and nanoseconds. During a leap
second the nanoseconds run past a thousand million instead of the second of the day moving on.

`Instant.text` writes the form YYYY-MM-DDTHH:MM:SSZ with as many groups of three decimals as the
nanoseconds need. `Instant.read?` reads that form with any offset from Universal Time, and allows blanks
between the parts and a space instead of the letter T.
-/

namespace Captioning

/-- A date of the Gregorian calendar. -/
structure Date where
  year : Int
  month : Nat
  day : Nat
deriving Repr, DecidableEq

/-- A moment of Coordinated Universal Time. -/
structure Instant where
  date : Date
  second : Nat
  nano : Nat
deriving Repr, DecidableEq

namespace Date

/-- A year that has a twenty-ninth of February. -/
def isLeap (year : Int) : Bool :=
  year % 4 == 0 && (year % 100 != 0 || year % 400 == 0)

/-- The number of days of a month. -/
def monthLength (year : Int) (month : Nat) : Nat :=
  if month == 2 then if isLeap year then 29 else 28
  else if month == 4 || month == 6 || month == 9 || month == 11 then 30
  else 31

/-- The years that dates are kept for. -/
def yearInRange (year : Int) : Bool :=
  -262143 ≤ year && year ≤ 262142

/-- Whether there is such a day. -/
def isValid (d : Date) : Bool :=
  yearInRange d.year && 1 ≤ d.month && d.month ≤ 12 && 1 ≤ d.day && d.day ≤ monthLength d.year d.month

/-- The day after. -/
def next (d : Date) : Date :=
  if d.day < monthLength d.year d.month then { d with day := d.day + 1 }
  else if d.month < 12 then ⟨d.year, d.month + 1, 1⟩
  else ⟨d.year + 1, 1, 1⟩

/-- The day before. -/
def previous (d : Date) : Date :=
  if 1 < d.day then { d with day := d.day - 1 }
  else if 1 < d.month then ⟨d.year, d.month - 1, monthLength d.year (d.month - 1)⟩
  else ⟨d.year - 1, 12, 31⟩

/-- The day `n` days after the first one of 1970. Years are counted from March, so that a leap day is the
last of its year, in cycles of four hundred. -/
def ofDay (n : Nat) : Date :=
  let n := n + 719468
  let inCycle := n % 146097
  let year := (inCycle - inCycle / 1460 + inCycle / 36524 - inCycle / 146096) / 365
  let inYear := inCycle - (365 * year + year / 4 - year / 100)
  let month := (5 * inYear + 2) / 153
  let day := inYear - (153 * month + 2) / 5 + 1
  let years : Nat := n / 146097 * 400 + year
  if month < 10 then ⟨years, month + 3, day⟩ else ⟨years + 1, month - 9, day⟩

end Date

namespace Instant

/-- The moment that many nanoseconds after the beginning of 1970. -/
def ofNanos (n : Nat) : Instant :=
  ⟨.ofDay (n / 86400000000000), n / 1000000000 % 86400, n % 1000000000⟩

/-- The digits of a number, at least `width` of them. -/
def padded (width n : Nat) : List Char :=
  let ds := Decimal.digitsOf n
  Decimal.zeros (width - ds.length) ++ ds

/-- A year in four digits, or with its sign when it has more or lies before the year zero. -/
def yearText (year : Int) : List Char :=
  if 0 ≤ year && year ≤ 9999 then padded 4 year.natAbs
  else (if year < 0 then '-' else '+') :: padded 4 year.natAbs

/-- The decimals of a second: none, or three, six or nine. -/
def fractionText (nano : Nat) : List Char :=
  if nano == 0 then []
  else if nano % 1000000 == 0 then '.' :: padded 3 (nano / 1000000)
  else if nano % 1000 == 0 then '.' :: padded 6 (nano / 1000)
  else '.' :: padded 9 nano

/-- The text of an instant. -/
def chars (t : Instant) : List Char :=
  let leap := t.nano / 1000000000
  yearText t.date.year ++ '-' :: padded 2 t.date.month ++ '-' :: padded 2 t.date.day
    ++ 'T' :: padded 2 (t.second / 3600) ++ ':' :: padded 2 (t.second / 60 % 60)
    ++ ':' :: padded 2 (t.second % 60 + leap) ++ fractionText (t.nano % 1000000000) ++ ['Z']

/-- The text of an instant as a string. -/
def text (t : Instant) : String :=
  String.ofList t.chars

/-! ## Reading -/

/-- Between one and `width` digits behind any blanks, and the rest. -/
def takeNumber? (width : Nat) (s : List Char) : Option (Nat × List Char) :=
  let s := Text.trimStart s
  let ds := (s.take width).takeWhile Char.isDigit
  if ds.isEmpty then none else some (Decimal.valueOf ds, s.drop ds.length)

/-- A year: up to four digits, or a sign and any number of them. -/
def takeYear? (s : List Char) : Option (Int × List Char) :=
  let signed := fun (sign : Int) (r : List Char) =>
    let (ds, rest) := Decimal.spanDigits r
    if ds.isEmpty then none else some (sign * Decimal.valueOf ds, rest)
  match Text.trimStart s with
  | '-' :: r => signed (-1) r
  | '+' :: r => signed 1 r
  | r => (takeNumber? 4 r).map fun (n, rest) => ((n : Int), rest)

/-- The rest behind one expected character, which blanks may precede. -/
def takeMark? (c : Char) (s : List Char) : Option (List Char) :=
  match Text.trimStart s with
  | d :: r => if d == c then some r else none
  | [] => none

/-- Decimals of a second, cut after nine. -/
def takeFraction? (s : List Char) : Option (Nat × List Char) :=
  match s with
  | '.' :: r =>
    let (ds, rest) := Decimal.spanDigits r
    if ds.isEmpty then none
    else
      let kept := ds.take 9
      some (Decimal.valueOf kept * Nat.pow 10 (9 - kept.length), rest)
  | _ => some (0, s)

/-- Two digits, and the rest. -/
def takeTwo? : List Char → Option (Nat × List Char)
  | a :: b :: r => if a.isDigit && b.isDigit then some (Decimal.valueOf [a, b], r) else none
  | _ => none

/-- An offset from Universal Time in seconds, and the rest. -/
def takeOffset? (s : List Char) : Option (Int × List Char) :=
  let shift := fun (sign : Int) (r : List Char) => do
    let (hours, r) ← takeTwo? r
    let (minutes, r) ← takeTwo? (r.dropWhile fun c => c == ':' || Text.isBlank c)
    if minutes < 60 && hours < 24 then some (sign * ((hours * 3600 + minutes * 60 : Nat) : Int), r)
    else none
  match s with
  | 'Z' :: r | 'z' :: r => some (0, r)
  | '+' :: r => shift 1 r
  | '-' :: r | '−' :: r => shift (-1) r
  | a :: b :: c :: r =>
    if String.ofList ([a, b, c].map Char.toLower) == "utc" then some (0, r) else none
  | _ => none

/-- The instant of a local date and second of day that is ahead of Universal Time by `offset` seconds,
less than a day. -/
def ofLocal (date : Date) (second nano : Nat) (offset : Int) : Instant :=
  let s := (second : Int) - offset
  if s < 0 then ⟨date.previous, (s + 86400).toNat, nano⟩
  else if 86400 ≤ s then ⟨date.next, (s - 86400).toNat, nano⟩
  else ⟨date, s.toNat, nano⟩

/-- Reads an instant. -/
def read? (s : List Char) : Option Instant := do
  let (year, s) ← takeYear? s
  let (month, s) ← takeNumber? 2 (← takeMark? '-' s)
  let (day, s) ← takeNumber? 2 (← takeMark? '-' s)
  let s ← match s with
    | c :: r => if c == 'T' || c == 't' || c == ' ' then some r else none
    | [] => none
  let (hour, s) ← takeNumber? 2 s
  let (minute, s) ← takeNumber? 2 (← takeMark? ':' s)
  let (sec, s) ← takeNumber? 2 (← takeMark? ':' s)
  let (nano, s) ← takeFraction? s
  let (offset, s) ← takeOffset? (Text.trimStart s)
  let date : Date := ⟨year, month, day⟩
  if date.isValid && hour < 24 && minute < 60 && sec ≤ 60 && (Text.trimStart s).isEmpty then
    let (sec, nano) := if sec == 60 then (59, nano + 1000000000) else (sec, nano)
    let t := ofLocal date (hour * 3600 + minute * 60 + sec) nano offset
    if t.date.isValid then some t else none
  else none

end Instant

end Captioning
