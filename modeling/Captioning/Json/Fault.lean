import Captioning.Decimal.Layout
import Captioning.Text.Quoted
/-!
# Why a JSON text is refused

A `Fault` is the first reason why a text is not a value that a reader wants: the text ends too early, it
breaks the grammar, or it is well formed but holds something else than what is wanted. `Fault.message`
words it and `Fault.kind` says which of the three it is.
-/

namespace Captioning.Json

/-- What a reader came upon in place of what it wanted. -/
inductive Found
  | null
  | boolean (b : Bool)
  | integer (n : Int)
  | double (x : Float)
  | text (s : String)
  | sequence
  | map

/-- The first reason to refuse a text. -/
inductive Fault
  | endInValue
  | endInList
  | endInObject
  | endInString
  | colonWanted
  | listSeparatorWanted
  | objectSeparatorWanted
  | wordWanted
  | valueWanted
  | badEscape
  | badNumber
  | numberOutOfRange
  | loneSurrogate
  | surrogateCut
  | controlCharacter
  | badCodePoint
  | keyNotString
  | trailingComma
  | trailingCharacters
  | tooDeep
  | wrongType (found : Found) (wanted : String)
  | wrongLength (length : Nat) (wanted : String)
  | missingField (name : String)
  | duplicateField (name : String)
  | noVariant (name : String)
  | refused (reason : String)

/-- The three kinds of reasons. -/
inductive FaultKind
  | endOfText
  | grammar
  | content
deriving Repr, DecidableEq

/-- Words what was found. -/
def Found.message : Found → String
  | .null => "null"
  | .boolean b => "boolean `" ++ (if b then "true" else "false") ++ "`"
  | .integer n => "integer `" ++ String.ofList (Decimal.signText (n < 0) ++ Decimal.digitsOf n.natAbs) ++ "`"
  | .double x => "floating point `" ++ Decimal.jsonText x ++ "`"
  | .text s => "string " ++ Text.quoted s
  | .sequence => "sequence"
  | .map => "map"

/-- Words a fault. -/
def Fault.message : Fault → String
  | .endInValue => "EOF while parsing a value"
  | .endInList => "EOF while parsing a list"
  | .endInObject => "EOF while parsing an object"
  | .endInString => "EOF while parsing a string"
  | .colonWanted => "expected `:`"
  | .listSeparatorWanted => "expected `,` or `]`"
  | .objectSeparatorWanted => "expected `,` or `\x7d`"
  | .wordWanted => "expected ident"
  | .valueWanted => "expected value"
  | .badEscape => "invalid escape"
  | .badNumber => "invalid number"
  | .numberOutOfRange => "number out of range"
  | .loneSurrogate => "lone leading surrogate in hex escape"
  | .surrogateCut => "unexpected end of hex escape"
  | .controlCharacter => "control character (\\u0000-\\u001F) found while parsing a string"
  | .badCodePoint => "invalid unicode code point"
  | .keyNotString => "key must be a string"
  | .trailingComma => "trailing comma"
  | .trailingCharacters => "trailing characters"
  | .tooDeep => "recursion limit exceeded"
  | .wrongType found wanted => "invalid type: " ++ found.message ++ ", expected " ++ wanted
  | .wrongLength n wanted => "invalid length " ++ toString n ++ ", expected " ++ wanted
  | .missingField name => "missing field `" ++ name ++ "`"
  | .duplicateField name => "duplicate field `" ++ name ++ "`"
  | .noVariant name => "data did not match any variant of untagged enum " ++ name
  | .refused reason => reason

/-- Whether the text ends early, breaks the grammar, or holds something unwanted. -/
def Fault.kind : Fault → FaultKind
  | .endInValue | .endInList | .endInObject | .endInString => .endOfText
  | .wrongType .. | .wrongLength .. | .missingField _ | .duplicateField _ | .noVariant _ | .refused _ =>
    .content
  | _ => .grammar

end Captioning.Json
