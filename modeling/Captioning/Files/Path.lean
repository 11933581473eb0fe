/-!
# Paths

A path is a text of names separated by slashes. Empty names and single dots do not count; the name of a
path is its last name, unless that is the parent directory.
-/

namespace Captioning.Path

/-- The names of a path, without empty ones and single dots. -/
def names (path : List Char) : List (List Char) :=
  (path.splitOn '/').filter fun n => n != [] && n != ['.']

/-- The parent directory. -/
def parentName : List Char := ['.', '.']

/-- The last name of a path, unless it is the parent directory. -/
def fileName? (path : List Char) : Option (List Char) :=
  match (names path).getLast? with
  | some n => if n == parentName then none else some n
  | none => none

/-- A name in front of its last dot, and behind it. There is no such dot if it stands in front. -/
def splitName (name : List Char) : List Char × Option (List Char) :=
  let behind := (name.reverse.takeWhile (· != '.')).reverse
  let front := name.take (name.length - behind.length - 1)
  if behind.length == name.length || front.isEmpty then (name, none) else (front, some behind)

/-- What stands behind the last dot of the name of a path. -/
def extension? (path : List Char) : Option (List Char) := do
  (splitName (← fileName? path)).2

/-- What stands in front of the last dot of the name of a path. -/
def stem? (path : List Char) : Option (List Char) := do
  return (splitName (← fileName? path)).1

/-- A path seen from a directory. -/
def join (dir path : String) : String :=
  if path.startsWith "/" then path
  else if dir.isEmpty || dir.endsWith "/" then dir ++ path
  else dir ++ "/" ++ path

/-- A directory whose path is to stand alone: no names at all stand for the current directory. -/
def directory (dir : String) : String :=
  if dir.isEmpty then "." else dir

/-- The directory that holds what a path leads to; none for the root and for no names at all. -/
def parent? (path : String) : Option String :=
  let s := path.toList
  let trimmed := (s.reverse.dropWhile (· == '/')).reverse
  if trimmed.isEmpty then none
  else
    let dir := (trimmed.reverse.dropWhile (· != '/')).reverse
    let bare := (dir.reverse.dropWhile (· == '/')).reverse
    some (String.ofList (if bare.isEmpty && !dir.isEmpty then ['/'] else bare))

end Captioning.Path
