import Captioning.Toml.Document
import Captioning.Toml.Scan
/-!
# Reading TOML

A document is read line by line: a header opens a table, a pair gives a name a value. Values may contain
others, in lists over several lines and in tables on one line.
-/

namespace Captioning.Toml

/-- A character of a name that needs no quotes. -/
def isBare (c : Char) : Bool :=
  c.isAlphanum || c == '_' || c == '-'

/-- One name of a path. -/
def takeName? (s : List Char) : Option (String × List Char) :=
  match s with
  | '"' :: r | '\'' :: r =>
    let quote := s.headD '"'
    (takeLine? quote (r.length + 1) r).map fun p => (String.ofList p.1, p.2)
  | s =>
    let name := s.takeWhile isBare
    if name.isEmpty then none else some (String.ofList name, s.drop name.length)

/-- A path: names with dots between them. `fuel` bounds their number. -/
def takePath? : Nat → List Char → Option (List String × List Char)
  | 0, _ => none
  | fuel + 1, s => do
    let (name, r) ← takeName? (skipBlanks s)
    match skipBlanks r with
    | '.' :: r => do
      let (path, r) ← takePath? fuel r
      some (name :: path, r)
    | r => some ([name], r)

mutual

/-- A value. `fuel` bounds the depth and the number of parts. -/
def takeValue? : Nat → List Char → Option (Json.Value × List Char)
  | 0, _ => none
  | fuel + 1, s =>
    match s with
    | '"' :: _ => (takeString? '"' s).map fun p => (.string p.1, p.2)
    | '\'' :: _ => (takeString? '\'' s).map fun p => (.string p.1, p.2)
    | '[' :: r => do
      let (items, r) ← takeItems? fuel r
      some (.array items, r)
    | '{' :: r => do
      let (ms, r) ← match skipBlanks r with
        | '}' :: r => some ([], r)
        | r => takePairs? fuel r []
      some (.object (membersValue ms), r)
    | s => takeWord? s

/-- The items of a list up to its closing bracket. -/
def takeItems? : Nat → List Char → Option (List Json.Value × List Char)
  | 0, _ => none
  | fuel + 1, s => do
    match ← skipLines? (s.length + 1) s with
    | ']' :: r => some ([], r)
    | r =>
      let (v, r) ← takeValue? fuel r
      match ← skipLines? (r.length + 1) r with
      | ',' :: r => do
        let (more, r) ← takeItems? fuel r
        some (v :: more, r)
      | ']' :: r => some ([v], r)
      | _ => none

/-- The pairs of a table on one line up to its closing brace, put into `ms`. -/
def takePairs? : Nat → List Char → Members → Option (Members × List Char)
  | 0, _, _ => none
  | fuel + 1, s, ms => do
    let (path, r) ← takePath? (s.length + 1) s
    let r ← takeChar? '=' r
    let (v, r) ← takeValue? fuel (skipBlanks r)
    let ms ← atLast true (fun k => addValue k v) path ms
    match skipBlanks r with
    | ',' :: r => takePairs? fuel r ms
    | '}' :: r => some (ms, r)
    | _ => none

end

/-- Takes a line in: what it adds to the document, and the path of the table that is open behind it. -/
def takeEntry? (s : List Char) (here : List String) (ms : Members) :
    Option (List String × Members × List Char) := do
  match s with
  | '[' :: '[' :: r =>
    let (path, r) ← takePath? (r.length + 1) r
    let r ← takeChar? ']' (← takeChar? ']' r)
    some (path, ← atLast false openRow path ms, r)
  | '[' :: r =>
    let (path, r) ← takePath? (r.length + 1) r
    let r ← takeChar? ']' r
    some (path, ← atLast false openTable path ms, r)
  | s =>
    let (path, r) ← takePath? (s.length + 1) s
    let r := skipBlanks (← takeChar? '=' r)
    let (v, r) ← takeValue? (2 * r.length + 2) r
    some (here, ← change false (atLast true (fun k => addValue k v) path) here ms, r)

/-- Reads the lines of a document. `fuel` bounds their number. -/
def takeEntries? : Nat → List Char → List String → Members → Option Members
  | 0, _, _, _ => none
  | fuel + 1, s, here, ms => do
    match skipBlanks s with
    | [] => some ms
    | r =>
      match endLine? r with
      | some rest => if rest.isEmpty then some ms else takeEntries? fuel rest here ms
      | none =>
        let (here, ms, r) ← takeEntry? r here ms
        takeEntries? fuel (← endLine? r) here ms

/-- Reads a document: the members of its outermost table. -/
def read? (s : List Char) : Option (List (String × Json.Value)) :=
  (takeEntries? (s.length + 2) s [] []).map membersValue

end Captioning.Toml
