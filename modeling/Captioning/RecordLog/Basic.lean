import Captioning.Command.Fault
import Captioning.Files.Tree
import Captioning.Record
import Captioning.RecordLog.Scan
/-!
# The log of records

Records are appended to a file, one line each. A log that was cut off in the middle of a line is continued
on a new line, so that the rest of the cut line cannot spoil the next record.

Main statement: `endsMidLine_continued` (once continued, a log no longer ends in the middle of a
line).
-/

namespace Captioning

/-- What happens to a log that exists when it is opened. -/
inductive OpenMode
  | extend
  | truncate
deriving Repr, DecidableEq

/-- An open log, and how many records it has been given. -/
structure RecordLog where
  path : String
  written : Nat
deriving Repr, DecidableEq

namespace RecordLog

/-- The bytes of a record in a log. -/
def bytesOf (r : Record) : Bytes :=
  Utf8.ofString r.line ++ [10]

/-- Whether a log was cut off in the middle of a line. -/
def endsMidLine (log : Bytes) : Bool :=
  match log.getLast? with
  | some b => b != 10
  | none => false

/-- A log made ready for another record. -/
def continued (log : Bytes) : Bytes :=
  if endsMidLine log then log ++ [10] else log

/-- What is reported when a log was cut off. -/
def tornNotice (path : String) : String :=
  path ++ " ends with an incomplete line, starting a new one"

/-- Whether the log at a path was cut off. -/
def isTorn (t : FileTree) (path : String) : Except FileFault Bool :=
  match t.read path with
  | .ok log => .ok (endsMidLine log)
  | .error f => if f == .noEntry then .ok false else .error f

/-- Opens the file of a log. Returns the tree, and whether the log had been cut off. -/
def openFile (t : FileTree) (path : String) (mode : OpenMode) : Except FileFault (FileTree × Bool) := do
  let t ← match Path.parent? path with
    | some dir => if dir.isEmpty then .ok t else t.makeDirectories dir
    | none => .ok t
  match mode with
  | .truncate => return (← t.write path [], false)
  | .extend =>
    let torn ← isTorn t path
    return (← t.append path (if torn then [10] else []), torn)

/-- Opens a log. Returns the tree, the log and what is reported. -/
def openAt (t : FileTree) (path : String) (mode : OpenMode) :
    Except SetupFault (FileTree × RecordLog × List String) :=
  match openFile t path mode with
  | .ok (t, torn) => .ok (t, ⟨path, 0⟩, if torn then [tornNotice path] else [])
  | .error f => .error (.output path f)

/-- Appends a record. -/
def append (t : FileTree) (log : RecordLog) (r : Record) : Except FileFault (FileTree × RecordLog) := do
  return (← t.append log.path (bytesOf r), { log with written := log.written + 1 })

/-- What is reported about a log that has been read. -/
def loadNotices (path : String) (ls : List Line) : List String :=
  let malformed := malformedCount ls
  (if 0 < malformed then ["Skipped " ++ toString malformed ++ " malformed lines in " ++ path] else [])
    ++ ["Resuming: " ++ toString (skipSetOf ls).size ++ " items already described in " ++ path]

/-- The identities with a record in the log at a path, and what is reported. A log that does not exist has
none. -/
def loadSkipSet (t : FileTree) (path : String) : Except SetupFault (SkipSet × List String) :=
  match t.read path with
  | .error f =>
    if f == .noEntry then .ok (.empty, ["No existing output at " ++ path]) else .error (.output path f)
  | .ok log => match scan log with
    | .ok ls => .ok (skipSetOf ls, loadNotices path ls)
    | .error f => .error (.output path (.notTextAt f))

/-! ## Small facts -/

theorem endsMidLine_append_newline (log : Bytes) : endsMidLine (log ++ [10]) = false := by
  simp [endsMidLine]

theorem endsMidLine_continued (log : Bytes) : endsMidLine (continued log) = false := by
  unfold continued
  split
  · exact endsMidLine_append_newline log
  · simpa using ‹¬endsMidLine log = true›

end RecordLog

end Captioning
