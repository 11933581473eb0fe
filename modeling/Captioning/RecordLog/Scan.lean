import Captioning.Bytes.Utf8
import Captioning.Json.Reader
import Captioning.RecordLog.SkipSet
import Captioning.Text.Blank
import Captioning.Text.Lines
/-!
# Reading a log of records

A log is a file of lines. A line that is an object with an identity stands for a record of it; blank lines
count for nothing, and any other line is counted as malformed. The identity is the member `id`, or the
member `url` of an object without one.
-/

namespace Captioning.RecordLog

/-- What a line of a log says. -/
inductive Line
  | blank
  | record (id : String)
  | malformed
deriving Repr, DecidableEq

/-- The identity of a value that is a record. -/
def identity? : Json.Value → Option String
  | .object members =>
    match Json.member? "id" members with
    | some v => v.text?
    | none => (Json.member? "url" members).bind Json.Value.text?
  | _ => none

/-- What a line says. -/
def Line.ofText (line : List Char) : Line :=
  if Text.allBlank line then .blank
  else match Json.readText Json.readValue (String.ofList line) with
    | .ok v => match identity? v with
      | some id => .record id
      | none => .malformed
    | .error _ => .malformed

/-- The identity that a line stands for. -/
def Line.id? : Line → Option String
  | .record id => some id
  | _ => none

/-- What the lines of a log say. A log that is no text is refused at the first line that is none. -/
def scan (log : Bytes) : Except Utf8.Fault (List Line) :=
  (Text.byteLines log).mapM fun line => do return Line.ofText (← Utf8.decodeFrom 0 line)

/-- The identities of some lines. -/
def idsOf (ls : List Line) : List String :=
  ls.filterMap Line.id?

/-- The number of malformed lines. -/
def malformedCount (ls : List Line) : Nat :=
  ls.countP (· == .malformed)

/-- The identities with a record among some lines. -/
def skipSetOf (ls : List Line) : SkipSet :=
  .ofList (idsOf ls)

end Captioning.RecordLog
