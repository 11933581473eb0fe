import Captioning.Json.Fault
import Captioning.Json.Value
import Captioning.Decimal.Scan
import Captioning.Text.Hex
/-!
# Reading a JSON text as far as it goes

`Draft.ofText` reads a text once, without knowing what a reader will want of it. Where the text goes wrong
the draft ends in a fault, so that a reader meets either its own objection or the fault, whichever comes
first in the text.

Two kinds of readers walk over a draft. One that *wants* a part also objects to what is grammatical but
has no value: a lone surrogate, a number too large for a double. One that *passes over* a part does not,
and names some breaks of the grammar differently; so a fault of the text is kept in both wordings.
-/

namespace Captioning.Json

/-- A number as it is written. -/
structure Numeral where
  negative : Bool
  whole : List Char
  /-- The digits after the point, if there is one. -/
  part : Option (List Char)
  /-- The sign and digits of the exponent, if there is one. -/
  exponent : Option (Bool × List Char)

/-- How a list of items or members ends. -/
inductive Closing
  | closed
  /-- The text ends where a separator or the closing bracket should stand. -/
  | ended
  /-- Something else stands there. -/
  | unseparated
  /-- The closing bracket follows a separator. -/
  | commaClosed
  /-- The text ends after a separator. -/
  | commaEnded
  /-- No string stands where the name of a member should. -/
  | badKey
  /-- The last part is itself broken, and nothing follows it. -/
  | inside
deriving Repr, DecidableEq

/-- A value as far as the text goes. Strings and names hold the objection of a reader that wants them. -/
inductive Draft
  | null
  | bool (b : Bool)
  | number (n : Numeral)
  | string (content : Except Fault (List Char))
  | array (items : List Draft) (closing : Closing)
  | object (members : List (Except Fault (List Char) × Draft)) (closing : Closing)
  /-- The text goes wrong here: for a reader that wants the value, and for one that passes over it. -/
  | broken (wanting passing : Fault)

instance : Inhabited Draft := ⟨.null⟩

/-- What was read, and the text behind it unless that went wrong. -/
abbrev Reading (α : Type) := α × Option (List Char)

/-- The blanks of the grammar. -/
def isSpace (c : Char) : Bool :=
  c == ' ' || c == '\n' || c == '\t' || c == '\r'

/-- The text behind any blanks. -/
def skipSpace (s : List Char) : List Char :=
  s.dropWhile isSpace

/-! ## Strings -/

/-- The number that four hexadecimal digits spell. -/
def hexFour? (a b c d : Char) : Option Nat := do
  let (a, b) := (← Text.hexDigit? a, ← Text.hexDigit? b)
  let (c, d) := (← Text.hexDigit? c, ← Text.hexDigit? d)
  some (((a * 16 + b) * 16 + c) * 16 + d)

/-- The objection to a text that lacks four hexadecimal digits: it ends within four bytes, or something
else stands among them. -/
def hexFault (s : List Char) : Fault :=
  if s.foldl (fun n c => n + c.utf8Size) 0 < 4 then .endInString else .badEscape

/-- A first half of a surrogate pair. -/
def isLead (n : Nat) : Bool :=
  0xD800 ≤ n && n ≤ 0xDBFF

/-- A second half of a surrogate pair. -/
def isTrail (n : Nat) : Bool :=
  0xDC00 ≤ n && n ≤ 0xDFFF

/-- The character of a surrogate pair. -/
def pairChar (lead trail : Nat) : Char :=
  Char.ofNat ((lead - 0xD800) * 1024 + (trail - 0xDC00) + 0x10000)

/-- The objection to a first half that no second half follows. -/
def leadFault : List Char → Fault
  | [] => .endInString
  | c :: r =>
    if c != '\\' then .surrogateCut
    else match r with
      | [] => .endInString
      | u :: r => if u != 'u' then .surrogateCut else match r with
        | a :: b :: c :: d :: _ => if (hexFour? a b c d).isSome then .loneSurrogate else hexFault r
        | _ => hexFault r

/-- What an escape other than by number stands for. -/
def plainEscape? (c : Char) : Option Char :=
  if c == '"' || c == '\\' || c == '/' then some c
  else if c == 'b' then some '\x08'
  else if c == 'f' then some '\x0c'
  else if c == 'n' then some '\n'
  else if c == 'r' then some '\r'
  else if c == 't' then some '\t'
  else none

/-- A string literal: its content for a reader that wants it, and the text behind it, if it ends. -/
structure Literal where
  content : Except Fault (List Char)
  rest : Except Fault (List Char)

/-- A literal that goes wrong for every reader. -/
def Literal.fault (f : Fault) : Literal :=
  ⟨.error f, .error f⟩

/-- The literal with one more character in front. -/
def Literal.push (c : Char) (l : Literal) : Literal :=
  ⟨l.content.map (c :: ·), l.rest⟩

/-- The literal behind something that only a reader that wants it objects to. -/
def Literal.objecting (f : Fault) (l : Literal) : Literal :=
  ⟨.error f, match l.rest with
    | .ok r => .ok r
    | .error g => .error g⟩

/-- The literal behind a first half of a surrogate pair, if one is pending, that `here` does not complete. -/
def Literal.settle (lead : Option Nat) (here : List Char) (l : Literal) : Literal :=
  match lead with
  | none => l
  | some _ => l.objecting (leadFault here)

/-- Reads a literal behind its opening quote. `lead` is a first half of a surrogate pair just in front. -/
def scanLiteral (lead : Option Nat) : List Char → Literal
  | [] => .fault .endInString
  | c :: r =>
    if c == '"' then (Literal.mk (.ok []) (.ok r)).settle lead (c :: r)
    else if c == '\\' then
      match r with
      | [] => .fault .endInString
      | e :: q =>
        if e == 'u' then
          match q with
          | a1 :: a2 :: a3 :: a4 :: t => match hexFour? a1 a2 a3 a4 with
            | none => (Literal.fault (hexFault q)).settle lead (c :: r)
            | some m =>
              if isTrail m then
                match lead with
                | some n => (scanLiteral none t).push (pairChar n m)
                | none => (scanLiteral none t).objecting .loneSurrogate
              else if isLead m then (scanLiteral (some m) t).settle lead (c :: r)
              else ((scanLiteral none t).push (Char.ofNat m)).settle lead (c :: r)
          | _ => (Literal.fault (hexFault q)).settle lead (c :: r)
        else match plainEscape? e with
          | some x => ((scanLiteral none q).push x).settle lead (c :: r)
          | none => (Literal.fault .badEscape).settle lead (c :: r)
    else if c.toNat < 0x20 then (Literal.fault .controlCharacter).settle lead (c :: r)
    else ((scanLiteral none r).push c).settle lead (c :: r)

/-! ## Numbers -/

/-- The exponent of a numeral, and the text behind it. -/
def scanExponent (s : List Char) : Except (Fault × Fault) (Option (Bool × List Char) × List Char) :=
  match s with
  | c :: r =>
    if c == 'e' || c == 'E' then
      let (negative, r) := Decimal.takeSign r
      let (ds, rest) := Decimal.spanDigits r
      if !ds.isEmpty then .ok (some (negative, ds), rest)
      else if r.isEmpty then .error (.endInValue, .badNumber)
      else .error (.badNumber, .badNumber)
    else .ok (none, s)
  | [] => .ok (none, s)

/-- The digits after the point of a numeral, and the text behind them. -/
def scanPart (s : List Char) : Except (Fault × Fault) (Option (List Char) × List Char) :=
  match s with
  | '.' :: r =>
    let (ds, rest) := Decimal.spanDigits r
    if !ds.isEmpty then .ok (some ds, rest)
    else if r.isEmpty then .error (.endInValue, .badNumber)
    else .error (.badNumber, .badNumber)
  | _ => .ok (none, s)

/-- The digits before the point: a zero alone, or digits that start with another one. -/
def scanWhole (s : List Char) : Except (Fault × Fault) (List Char × List Char) :=
  match s with
  | [] => .error (.endInValue, .badNumber)
  | '0' :: r => match r with
    | c :: _ => if c.isDigit then .error (.badNumber, .badNumber) else .ok (['0'], r)
    | [] => .ok (['0'], r)
  | c :: _ =>
    if c.isDigit then .ok (Decimal.spanDigits s) else .error (.badNumber, .badNumber)

/-- A numeral, and the text behind it. -/
def scanNumeral (s : List Char) : Except (Fault × Fault) (Numeral × List Char) := do
  let (negative, s) := match s with
    | '-' :: r => (true, r)
    | _ => (false, s)
  let (whole, s) ← scanWhole s
  let (part, s) ← scanPart s
  let (exponent, s) ← scanExponent s
  return (⟨negative, whole, part, exponent⟩, s)

/-! ## Values -/

/-- The rest of a word of the grammar. -/
def scanWord (d : Draft) : List Char → List Char → Reading Draft
  | [], s => (d, some s)
  | _ :: _, [] => (.broken .endInValue .endInValue, none)
  | w :: ws, c :: s => if c == w then scanWord d ws s else (.broken .wordWanted .wordWanted, none)

mutual

/-- A value at the front of a text. `fuel` bounds the depth, which is at most the length of the text. -/
def readDraft : Nat → List Char → Reading Draft
  | 0, _ => (.broken .valueWanted .valueWanted, none)
  | fuel + 1, s =>
    match skipSpace s with
    | [] => (.broken .endInValue .endInValue, none)
    | c :: r =>
      if c == 'n' then scanWord .null ['u', 'l', 'l'] r
      else if c == 't' then scanWord (.bool true) ['r', 'u', 'e'] r
      else if c == 'f' then scanWord (.bool false) ['a', 'l', 's', 'e'] r
      else if c == '-' || c.isDigit then
        match scanNumeral (c :: r) with
        | .ok (n, rest) => (.number n, some rest)
        | .error (wanting, passing) => (.broken wanting passing, none)
      else if c == '"' then
        let l := scanLiteral none r
        match l.rest, l.content with
        | .ok rest, content => (.string content, some rest)
        | .error passing, .error wanting => (.broken wanting passing, none)
        | .error passing, .ok _ => (.broken passing passing, none)
      else if c == '[' then
        let (items, closing, rest) := readItems fuel true r
        (.array items closing, rest)
      else if c == '{' then
        let (members, closing, rest) := readMembers fuel true r
        (.object members closing, rest)
      else (.broken .valueWanted .valueWanted, none)

/-- Items up to the closing bracket. -/
def readItems : Nat → Bool → List Char → List Draft × Closing × Option (List Char)
  | 0, _, _ => ([], .unseparated, none)
  | fuel + 1, first, s =>
    let item := fun (t : List Char) =>
      match readDraft fuel t with
      | (d, none) => ([d], .inside, none)
      | (d, some rest) =>
        let (more, closing, rest) := readItems fuel false rest
        (d :: more, closing, rest)
    match skipSpace s with
    | [] => ([], .ended, none)
    | c :: r =>
      if c == ']' then ([], .closed, some r)
      else if first then item (c :: r)
      else if c == ',' then
        match skipSpace r with
        | [] => ([], .commaEnded, none)
        | d :: q => if d == ']' then ([], .commaClosed, none) else item (d :: q)
      else ([], .unseparated, none)

/-- Members up to the closing brace. -/
def readMembers : Nat → Bool → List Char →
    List (Except Fault (List Char) × Draft) × Closing × Option (List Char)
  | 0, _, _ => ([], .unseparated, none)
  | fuel + 1, first, s =>
    let member := fun (t : List Char) =>
      let l := scanLiteral none t
      match l.rest with
      | .error passing => ([(l.content, .broken passing passing)], .inside, none)
      | .ok rest => match skipSpace rest with
        | [] => ([(l.content, .broken .endInObject .endInObject)], .inside, none)
        | c :: r =>
          if c == ':' then
            match readDraft fuel r with
            | (d, none) => ([(l.content, d)], .inside, none)
            | (d, some rest) =>
              let (more, closing, rest) := readMembers fuel false rest
              ((l.content, d) :: more, closing, rest)
          else ([(l.content, .broken .colonWanted .colonWanted)], .inside, none)
    match skipSpace s with
    | [] => ([], .ended, none)
    | c :: r =>
      if c == '}' then ([], .closed, some r)
      else if first then if c == '"' then member r else ([], .badKey, none)
      else if c == ',' then
        match skipSpace r with
        | [] => ([], .commaEnded, none)
        | d :: q =>
          if d == '"' then member q
          else if d == '}' then ([], .commaClosed, none)
          else ([], .badKey, none)
      else ([], .unseparated, none)

end

/-- Reads the value that a text starts with. -/
def Draft.ofText (s : List Char) : Reading Draft :=
  readDraft (2 * s.length + 2) s

/-! ## Faults at the end of a list -/

/-- The objection of a reader that wants the items of an array. -/
def Closing.wantingItems : Closing → Except Fault Unit
  | .closed => .ok ()
  | .ended => .error .endInList
  | .unseparated | .badKey => .error .listSeparatorWanted
  | .commaClosed => .error .trailingComma
  | .commaEnded => .error .endInValue
  | .inside => .error .valueWanted

/-- The objection of a reader that wants the members of an object. -/
def Closing.wantingMembers : Closing → Except Fault Unit
  | .closed => .ok ()
  | .ended => .error .endInObject
  | .unseparated => .error .objectSeparatorWanted
  | .commaClosed => .error .trailingComma
  | .commaEnded => .error .endInValue
  | .badKey => .error .keyNotString
  | .inside => .error .valueWanted

/-- The objection of a reader that passes over an array. -/
def Closing.passingItems : Closing → Except Fault Unit
  | .commaClosed => .error .valueWanted
  | c => c.wantingItems

/-- The objection of a reader that passes over an object. -/
def Closing.passingMembers : Closing → Except Fault Unit
  | .commaClosed => .error .keyNotString
  | .commaEnded => .error .endInObject
  | c => c.wantingMembers

/-- The objection of a reader that has taken all the items it wants and finds `left` more. -/
def Closing.afterItems (left : Nat) (c : Closing) : Except Fault Unit :=
  if 0 < left then .error .trailingCharacters
  else match c with
    | .closed => .ok ()
    | .ended => .error .endInList
    | .commaClosed => .error .trailingComma
    | _ => .error .trailingCharacters

mutual

/-- Passes over a draft: objects only to a break of the grammar, at any depth. -/
def Draft.pass : Draft → Except Fault Unit
  | .array items closing => do
    passItems items
    closing.passingItems
  | .object members closing => do
    passMembers members
    closing.passingMembers
  | .broken _ passing => .error passing
  | _ => .ok ()

/-- Passes over items. -/
def passItems : List Draft → Except Fault Unit
  | [] => .ok ()
  | d :: more => do
    d.pass
    passItems more

/-- Passes over members. -/
def passMembers : List (Except Fault (List Char) × Draft) → Except Fault Unit
  | [] => .ok ()
  | (_, d) :: more => do
    d.pass
    passMembers more

end

end Captioning.Json
