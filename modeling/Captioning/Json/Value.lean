import Captioning.Decimal.Layout
/-!
# JSON values and their texts

A value keeps the members of an object in the order in which they are to be written. `Value.compact`
writes no blanks at all, `Value.pretty` one member or item per line, two spaces deeper at each level.
-/

namespace Captioning.Json

/-- A JSON value. Integers are kept apart from doubles. -/
inductive Value
  | null
  | bool (b : Bool)
  | integer (n : Int)
  | double (x : Float)
  | string (s : String)
  | array (items : List Value)
  | object (members : List (String × Value))

instance : Inhabited Value := ⟨.null⟩

/-- The digits of an integer with its sign. -/
def integerText (n : Int) : List Char :=
  Decimal.signText (n < 0) ++ Decimal.digitsOf n.natAbs

/-- A character inside a string literal: quotes, backslashes and controls are escaped. -/
def escapeChar (c : Char) : List Char :=
  if c == '"' then ['\\', '"']
  else if c == '\\' then ['\\', '\\']
  else if c == '\n' then ['\\', 'n']
  else if c == '\r' then ['\\', 'r']
  else if c == '\t' then ['\\', 't']
  else if c == '\x08' then ['\\', 'b']
  else if c == '\x0c' then ['\\', 'f']
  else if c.toNat < 0x20 then
    ['\\', 'u', '0', '0', (c.toNat / 16).digitChar, (c.toNat % 16).digitChar]
  else [c]

/-- A string literal. -/
def stringText (s : String) : List Char :=
  '"' :: s.toList.flatMap escapeChar ++ ['"']

/-- The text of a value without parts. -/
def Value.leafText : Value → List Char
  | .null => "null".toList
  | .bool true => "true".toList
  | .bool false => "false".toList
  | .integer n => integerText n
  | .double x => (Decimal.jsonText x).toList
  | .string s => stringText s
  | .array _ => []
  | .object _ => []

mutual

/-- The text of a value on one line, without blanks. -/
def Value.compact : Value → List Char
  | .array items => '[' :: compactItems items ++ [']']
  | .object members => '{' :: compactMembers members ++ ['}']
  | v => v.leafText

/-- Items separated by commas. -/
def compactItems : List Value → List Char
  | [] => []
  | v :: more => v.compact ++ (match more with
    | [] => []
    | _ => ',' :: compactItems more)

/-- Members separated by commas. -/
def compactMembers : List (String × Value) → List Char
  | [] => []
  | (k, v) :: more => stringText k ++ ':' :: v.compact ++ (match more with
    | [] => []
    | _ => ',' :: compactMembers more)

end

/-- The start of a line at some depth. -/
def newline (depth : Nat) : List Char :=
  '\n' :: List.replicate (2 * depth) ' '

mutual

/-- The text of a value on many lines, whose first line starts at the given depth. -/
def Value.prettyAt (depth : Nat) : Value → List Char
  | .array [] => ['[', ']']
  | .array items => '[' :: prettyItems (depth + 1) items ++ newline depth ++ [']']
  | .object [] => ['{', '}']
  | .object members => '{' :: prettyMembers (depth + 1) members ++ newline depth ++ ['}']
  | v => v.leafText

/-- One item per line. -/
def prettyItems (depth : Nat) : List Value → List Char
  | [] => []
  | v :: more => newline depth ++ v.prettyAt depth ++ (match more with
    | [] => []
    | _ => ',' :: prettyItems depth more)

/-- One member per line. -/
def prettyMembers (depth : Nat) : List (String × Value) → List Char
  | [] => []
  | (k, v) :: more => newline depth ++ stringText k ++ ':' :: ' ' :: v.prettyAt depth ++ (match more with
    | [] => []
    | _ => ',' :: prettyMembers depth more)

end

/-- The text of a value on one line. -/
def Value.line (v : Value) : String :=
  String.ofList v.compact

/-- The text of a value on many lines. -/
def Value.pretty (v : Value) : String :=
  String.ofList (v.prettyAt 0)

/-- Puts a member into a list sorted by name; a member of that name is replaced. -/
def putMember (k : String) (v : Value) : List (String × Value) → List (String × Value)
  | [] => [(k, v)]
  | (j, w) :: more =>
    if k == j then (k, v) :: more
    else if k < j then (k, v) :: (j, w) :: more
    else (j, w) :: putMember k v more

/-- The value of a member. -/
def member? (k : String) (members : List (String × Value)) : Option Value :=
  (members.find? fun m => m.1 == k).map (·.2)

/-- The text of a string value. -/
def Value.text? : Value → Option String
  | .string s => some s
  | _ => none

end Captioning.Json
