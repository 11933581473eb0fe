import Captioning.Decimal.Scan
import Captioning.Json.Value
import Captioning.Text.Hex
import Captioning.Time.Instant
/-!
# The words of TOML

Blanks, comments, strings, numbers and times of the configuration language TOML. Scanners take a list of
characters and return what they found with the rest, or nothing where the text goes wrong. Times have no
value of their own; they are kept as texts.
-/

namespace Captioning.Toml

/-! ## Blanks and comments -/

/-- A blank within a line. -/
def isBlank (c : Char) : Bool :=
  c == ' ' || c == '\t'

/-- A control character that may stand neither in comments nor in strings. -/
def isControl (c : Char) : Bool :=
  c.toNat < 0x20 && c != '\t' || c.toNat == 0x7F

/-- The text behind blanks. -/
def skipBlanks (s : List Char) : List Char :=
  s.dropWhile isBlank

/-- The text behind the end of a line. -/
def takeNewline? : List Char → Option (List Char)
  | '\n' :: r => some r
  | '\r' :: '\n' :: r => some r
  | _ => none

/-- The text from the end of the line on, where there is at most a comment before it. -/
def skipComment? (s : List Char) : Option (List Char) :=
  match skipBlanks s with
  | '#' :: r =>
    let comment := r.takeWhile fun c => c == '\r' || !isControl c
    let rest := r.drop comment.length
    if (comment.dropLast).contains '\r' then none
    else if comment.getLast? == some '\r' then some ('\r' :: rest) else some rest
  | r => some r

/-- The text behind a line that holds nothing more but a comment. -/
def endLine? (s : List Char) : Option (List Char) := do
  match ← skipComment? s with
  | [] => some []
  | r => takeNewline? r

/-- The text behind blanks, comments and ends of lines. `fuel` bounds the number of lines. -/
def skipLines? : Nat → List Char → Option (List Char)
  | 0, s => some s
  | fuel + 1, s => do
    let r ← skipComment? s
    match takeNewline? r with
    | some r => skipLines? fuel r
    | none => some r

/-! ## Strings -/

/-- The character with a number in hexadecimal digits. -/
def hexChar? (digits : List Char) : Option Char := do
  let n ← digits.foldlM (fun n c => return n * 16 + (← Text.hexDigit? c)) 0
  if n.isValidChar then some (Char.ofNat n) else none

/-- What an escape stands for, and the text behind it. -/
def takeEscape? : List Char → Option (Char × List Char)
  | 'b' :: r => some ('\x08', r)
  | 't' :: r => some ('\t', r)
  | 'n' :: r => some ('\n', r)
  | 'f' :: r => some ('\x0c', r)
  | 'r' :: r => some ('\r', r)
  | '"' :: r => some ('"', r)
  | '\\' :: r => some ('\\', r)
  | 'u' :: r => if r.length < 4 then none else (hexChar? (r.take 4)).map fun c => (c, r.drop 4)
  | 'U' :: r => if r.length < 8 then none else (hexChar? (r.take 8)).map fun c => (c, r.drop 8)
  | _ => none

/-- A string on one line behind its opening quote. `fuel` bounds its length. -/
def takeLine? (quote : Char) : Nat → List Char → Option (List Char × List Char)
  | 0, _ => none
  | _ + 1, [] => none
  | fuel + 1, c :: r =>
    if c == quote then some ([], r)
    else if c == '\\' && quote == '"' then do
      let (x, r) ← takeEscape? r
      let (xs, r) ← takeLine? quote fuel r
      some (x :: xs, r)
    else if isControl c then none
    else do
      let (xs, r) ← takeLine? quote fuel r
      some (c :: xs, r)

/-- The text behind blanks and ends of lines. -/
def skipSpace (s : List Char) : List Char :=
  s.dropWhile fun c => isBlank c || c == '\n' || c == '\r'

/-- A string on several lines behind its opening quotes. It ends with three quotes; up to two more before
them belong to it. `fuel` bounds its length. -/
def takeLines? (quote : Char) : Nat → List Char → Option (List Char × List Char)
  | 0, _ => none
  | _ + 1, [] => none
  | fuel + 1, c :: r =>
    let more := fun (x : Char) (r : List Char) =>
      (takeLines? quote fuel r).map fun (xs, r) => (x :: xs, r)
    if c == quote then
      let quotes := ((c :: r).takeWhile (· == quote)).length
      if quotes < 3 then more c r
      else
        let kept := min (quotes - 3) 2
        some (List.replicate kept quote, (c :: r).drop (kept + 3))
    else if c == '\\' && quote == '"' then
      if (takeNewline? (skipBlanks r)).isSome then takeLines? quote fuel (skipSpace r)
      else do
        let (x, r) ← takeEscape? r
        more x r
    else match takeNewline? (c :: r) with
      | some r => more '\n' r
      | none => if isControl c then none else more c r

/-- A string from its opening quote on. -/
def takeString? (quote : Char) (s : List Char) : Option (String × List Char) :=
  let r := s.drop 1
  let done := fun (p : List Char × List Char) => (String.ofList p.1, p.2)
  match r with
  | a :: b :: r' =>
    if a == quote && b == quote then
      (takeLines? quote (r'.length + 1) ((takeNewline? r').getD r')).map done
    else (takeLine? quote (r.length + 1) r).map done
  | _ => (takeLine? quote (r.length + 1) r).map done

/-! ## Numbers -/

/-- Digits without the bars between them. A bar stands between two digits. -/
def joined? (isDigit : Char → Bool) (s : List Char) : Option (List Char) :=
  let parts := s.splitOn '_'
  if parts.all fun p => !p.isEmpty && p.all isDigit then some parts.flatten else none

/-- An integer of sixty-four bits with digits of some base. -/
def based? (bits : Nat) (s : List Char) : Option Json.Value := do
  let digit? := fun (c : Char) => (Text.hexDigit? c).filter (· < Nat.pow 2 bits)
  let digits ← (← joined? (fun c => (digit? c).isSome) s).mapM digit?
  let n := digits.foldl (fun n d => n * Nat.pow 2 bits + d) 0
  if n < Nat.pow 2 63 then some (.integer n) else none

/-- Whether digits do not start with a needless zero. -/
def isPlain (digits : List Char) : Bool :=
  match digits with
  | '0' :: _ :: _ => false
  | _ => true

/-- A decimal number: an integer, or a double if there is a point or an exponent. What is too large for a
double is no number. -/
def decimal? (s : List Char) : Option Json.Value := do
  let (sign, body) := match s with
    | '-' :: r => (['-'], r)
    | '+' :: r => ([], r)
    | r => ([], r)
  if body == "inf".toList || body == "nan".toList then
    return .double (← Decimal.readFloat? (sign ++ body))
  let mark := fun (c : Char) => c == '.' || c == 'e' || c == 'E'
  let whole ← joined? Char.isDigit (body.takeWhile fun c => !mark c)
  if !isPlain whole then none
  let rest := body.dropWhile fun c => !mark c
  if rest.isEmpty then return .integer (← Decimal.readInt? (sign ++ whole))
  let (part, rest) ← match rest with
    | '.' :: r => do
      let part ← joined? Char.isDigit (r.takeWhile fun c => !mark c)
      pure ('.' :: part, r.dropWhile fun c => !mark c)
    | r => pure ([], r)
  let exponent ← match rest with
    | [] => pure []
    | '.' :: _ => none
    | _ :: '-' :: r => do pure ('e' :: '-' :: (← joined? Char.isDigit r))
    | _ :: '+' :: r => do pure ('e' :: (← joined? Char.isDigit r))
    | _ :: r => do pure ('e' :: (← joined? Char.isDigit r))
  let x ← Decimal.readFloat? (sign ++ whole ++ part ++ exponent)
  if x.isInf then none else return .double x

/-! ## Times -/

/-- A number of two digits, and the rest. -/
def takeTwo? : List Char → Option (Nat × List Char)
  | a :: b :: r => if a.isDigit && b.isDigit then some (Decimal.valueOf [a, b], r) else none
  | _ => none

/-- The text behind a given character. -/
def takeChar? (c : Char) : List Char → Option (List Char)
  | d :: r => if d == c then some r else none
  | [] => none

/-- A date, and the rest. -/
def takeDate? (s : List Char) : Option (String × List Char) := do
  let year := s.take 4
  if year.length < 4 || !year.all Char.isDigit then none
  let (month, r) ← takeTwo? (← takeChar? '-' (s.drop 4))
  let (day, r) ← takeTwo? (← takeChar? '-' r)
  if (Date.mk (Decimal.valueOf year) month day).isValid then some (String.ofList (s.take 10), r) else none

/-- The decimals of a second without zeros at the end. -/
def fractionText (digits : List Char) : List Char :=
  let kept := ((digits.take 9).reverse.dropWhile (· == '0')).reverse
  if kept.isEmpty then ['.', '0'] else '.' :: kept

/-- A time of day, and the rest. -/
def takeTime? (s : List Char) : Option (String × List Char) := do
  let (hour, r) ← takeTwo? s
  let (minute, r) ← takeTwo? (← takeChar? ':' r)
  let (second, r) ← takeTwo? (← takeChar? ':' r)
  if 23 < hour || 59 < minute || 60 < second then none
  match r with
  | '.' :: r =>
    let digits := r.takeWhile Char.isDigit
    if digits.isEmpty then none
    else some (String.ofList (s.take 8 ++ fractionText digits), r.drop digits.length)
  | r => some (String.ofList (s.take 8), r)

/-- An offset from Universal Time. -/
def offset? (s : List Char) : Option String :=
  match s with
  | [] => some ""
  | ['Z'] | ['z'] => some "Z"
  | c :: r => do
    let (hour, r) ← takeTwo? r
    let (minute, r) ← takeTwo? (← takeChar? ':' r)
    if (c == '+' || c == '-') && hour ≤ 24 && minute ≤ 59 && r.isEmpty then some (String.ofList s) else none

/-- A date, a time of day, or both, in the usual form. -/
def moment? (s : List Char) : Option Json.Value := do
  match takeDate? s with
  | some (date, []) => return .string date
  | some (date, c :: r) =>
    if !(c == 'T' || c == 't' || c == ' ') then none
    let (time, r) ← takeTime? r
    return .string (date ++ "T" ++ time ++ (← offset? r))
  | none => do
    let (time, r) ← takeTime? s
    if r.isEmpty then return .string time else none

/-- A value that is a single word. -/
def word? (s : List Char) : Option Json.Value :=
  if s == "true".toList then some (.bool true)
  else if s == "false".toList then some (.bool false)
  else match s with
    | '0' :: 'x' :: r => based? 4 r
    | '0' :: 'o' :: r => based? 3 r
    | '0' :: 'b' :: r => based? 1 r
    | s => decimal? s <|> moment? s

/-- A character that ends a word. -/
def endsWord (c : Char) : Bool :=
  isBlank c || c == '\n' || c == '\r' || c == ',' || c == ']' || c == '}' || c == '#'

/-- Whether a time of day follows a date and a space. -/
def timeFollows (s : List Char) : Bool :=
  match s with
  | ' ' :: a :: b :: ':' :: _ => a.isDigit && b.isDigit
  | _ => false

/-- A value that is a word, or a date and a time with a space in between. -/
def takeWord? (s : List Char) : Option (Json.Value × List Char) :=
  let word := s.takeWhile fun c => !endsWord c
  let rest := s.drop word.length
  if (takeDate? word).isSome && word.length == 10 && timeFollows rest then
    let time := (rest.drop 1).takeWhile fun c => !endsWord c
    (moment? (word ++ ' ' :: time)).map fun v => (v, rest.drop (time.length + 1))
  else (word? word).map fun v => (v, rest)

end Captioning.Toml
