import Captioning.Files.Fault
import Captioning.Files.Path
/-!
# Trees of files

The files that a command may read and write, as a value: every directory and file under its full path from
the root. The operations answer as a file system does, with the condition that stops them.

Main statements: `get?_put_same` and `get?_put_other` (writing an entry changes that entry alone),
`get?_remove_same` and `get?_remove_other` (so does removing one), `remove_put` (an entry that was not there
is gone without a trace once it is removed).
-/

namespace Captioning

/-- A file or a directory. -/
inductive Node
  | file (content : Bytes)
  | directory
deriving Repr, DecidableEq

/-- The place of an entry: the names from the root. -/
abbrev Place := List String

/-- Directories and files by their place. The root is a directory without an entry. -/
structure FileTree where
  /-- Where paths start that do not start at the root. -/
  here : Place
  entries : List (Place × Node)
deriving Repr, DecidableEq, Inhabited

namespace FileTree

/-- What is at a place. -/
def get? (t : FileTree) (p : Place) : Option Node :=
  if p.isEmpty then some .directory else (t.entries.find? fun e => e.1 == p).map (·.2)

/-- The entries with one put in place of another or at the end. -/
def putEntry (p : Place) (n : Node) : List (Place × Node) → List (Place × Node)
  | [] => [(p, n)]
  | e :: more => if e.1 == p then (p, n) :: more else e :: putEntry p n more

/-- The tree with something at a place. -/
def put (t : FileTree) (p : Place) (n : Node) : FileTree :=
  { t with entries := putEntry p n t.entries }

/-- The tree without the file at a place. -/
def remove (t : FileTree) (p : Place) : FileTree :=
  { t with entries := t.entries.filter fun e => e.1 != p }

/-- The names directly below a place. -/
def children (t : FileTree) (p : Place) : List String :=
  t.entries.filterMap fun e =>
    if e.1.dropLast == p && !e.1.isEmpty then e.1.getLast? else none

/-- Follows names from a place; all but the last have to lead to directories. -/
def follow (t : FileTree) : Place → List String → Except FileFault Place
  | p, [] => .ok p
  | p, n :: more =>
    match t.get? p with
    | none => .error .noEntry
    | some (.file _) => .error .notDirectory
    | some .directory =>
      if n == ".." then follow t p.dropLast more else follow t (p ++ [n]) more

/-- The place that a path leads to. A path that ends in a slash leads to a directory, if to anything. -/
def place (t : FileTree) (path : String) : Except FileFault Place := do
  if path.isEmpty then .error .noEntry
  else
    let start := if path.startsWith "/" then [] else t.here
    let p ← t.follow start ((Path.names path.toList).map String.ofList)
    match path.endsWith "/", t.get? p with
    | true, some (.file _) => .error .notDirectory
    | _, _ => .ok p

/-- What a path leads to. -/
def look (t : FileTree) (path : String) : Except FileFault Node := do
  let p ← t.place path
  match t.get? p with
  | some n => .ok n
  | none => .error .noEntry

/-- Whether a path leads to a file. -/
def isFile (t : FileTree) (path : String) : Bool :=
  match t.look path with
  | .ok (.file _) => true
  | _ => false

/-- Whether a path leads to a directory. -/
def isDirectory (t : FileTree) (path : String) : Bool :=
  match t.look path with
  | .ok .directory => true
  | _ => false

/-- Whether a path leads to anything. -/
def holds (t : FileTree) (path : String) : Bool :=
  (t.look path).toOption.isSome

/-- The contents of a file. -/
def read (t : FileTree) (path : String) : Except FileFault Bytes := do
  match ← t.look path with
  | .file content => .ok content
  | .directory => .error .isDirectory

/-- The contents of a file that holds a text. -/
def readText (t : FileTree) (path : String) : Except FileFault String := do
  match Utf8.toString? (← t.read path) with
  | some s => .ok s
  | none => .error .notText

/-- The tree with new contents of a file, which is made if there is none. -/
def write (t : FileTree) (path : String) (content : Bytes) : Except FileFault FileTree := do
  let p ← t.place path
  match t.get? p with
  | some .directory => .error .isDirectory
  | some (.file _) => .ok (t.put p (.file content))
  | none =>
    match t.get? p.dropLast with
    | some .directory => if path.endsWith "/" then .error .isDirectory else .ok (t.put p (.file content))
    | some (.file _) => .error .notDirectory
    | none => .error .noEntry

/-- Makes the directories on the way along names, starting from a place that is one. -/
def makeAlong (t : FileTree) : Place → List String → Except FileFault FileTree
  | _, [] => .ok t
  | p, n :: more =>
    if n == ".." then makeAlong t p.dropLast more
    else match t.get? (p ++ [n]) with
      | some .directory => makeAlong t (p ++ [n]) more
      | some (.file _) => .error (if more.isEmpty then .exists_ else .notDirectory)
      | none => makeAlong (t.put (p ++ [n]) .directory) (p ++ [n]) more

/-- The tree with a directory and all directories above it. -/
def makeDirectories (t : FileTree) (path : String) : Except FileFault FileTree :=
  let start := if path.startsWith "/" then [] else t.here
  t.makeAlong start ((Path.names path.toList).map String.ofList)

/-- The names in a directory. -/
def list (t : FileTree) (path : String) : Except FileFault (List String) := do
  let p ← t.place path
  match t.get? p with
  | some .directory => .ok (t.children p)
  | some (.file _) => .error .notDirectory
  | none => .error .noEntry

/-- The tree with bytes added to the end of a file, which is made if there is none. -/
def append (t : FileTree) (path : String) (content : Bytes) : Except FileFault FileTree := do
  match t.look path with
  | .ok (.file old) => t.write path (old ++ content)
  | _ => t.write path content

/-- The tree with a file moved to another path, where it takes the place of a file. -/
def rename (t : FileTree) (old new : String) : Except FileFault FileTree := do
  let p ← t.place old
  let content ← t.read old
  let t ← t.write new content
  return if (t.place new).toOption == some p then t else t.remove p

/-- The tree without the file at a path, if the path leads anywhere. -/
def discard (t : FileTree) (path : String) : FileTree :=
  match t.place path with
  | .ok p => t.remove p
  | .error _ => t

/-! ## Small facts -/

theorem find?_putEntry_same (p : Place) (n : Node) (es : List (Place × Node)) :
    (putEntry p n es).find? (fun e => e.1 == p) = some (p, n) := by
  induction es with
  | nil => simp [putEntry]
  | cons e es ih =>
    by_cases h : e.1 == p
    · simp [putEntry, h]
    · simp [putEntry, h, ih]

theorem find?_putEntry_other {p q : Place} (hne : q ≠ p) (n : Node) (es : List (Place × Node)) :
    (putEntry p n es).find? (fun e => e.1 == q) = es.find? (fun e => e.1 == q) := by
  induction es with
  | nil => simp [putEntry, Ne.symm hne]
  | cons e es ih =>
    by_cases h : e.1 == p
    · have hp : e.1 = p := by simpa using h
      simp [putEntry, hp, Ne.symm hne]
    · by_cases hq : e.1 == q
      · simp [putEntry, h, hq]
      · simp [putEntry, h, hq, ih]

theorem get?_put_same {t : FileTree} {p : Place} (h : p ≠ []) (n : Node) :
    (t.put p n).get? p = some n := by
  simp [get?, put, h, find?_putEntry_same]

theorem get?_put_other {t : FileTree} {p q : Place} (h : q ≠ p) (n : Node) :
    (t.put p n).get? q = t.get? q := by
  simp [get?, put, find?_putEntry_other h]

theorem get?_remove_same {t : FileTree} {p : Place} (h : p ≠ []) : (t.remove p).get? p = none := by
  simp [get?, remove, h]

theorem get?_remove_other {t : FileTree} {p q : Place} (h : q ≠ p) : (t.remove p).get? q = t.get? q := by
  have hfind : (t.entries.filter fun e => e.1 != p).find? (fun e => e.1 == q) = t.entries.find? fun e => e.1 == q := by
    rw [List.find?_filter]
    congr 1
    funext e
    by_cases he : e.1 = q
    · simp [he, h]
    · simp [he]
  simp only [get?, remove, hfind]

/-- What is put at a place takes the place of what was put there before. -/
theorem put_put (t : FileTree) (p : Place) (m n : Node) : (t.put p m).put p n = t.put p n := by
  have h : ∀ es : List (Place × Node), putEntry p n (putEntry p m es) = putEntry p n es := by
    intro es
    induction es with
    | nil => simp [putEntry]
    | cons e es ih => by_cases he : e.1 == p <;> simp [putEntry, he, ih]
  simp only [put, h]

theorem remove_of_get?_eq_none {t : FileTree} {p : Place} (h : t.get? p = none) : t.remove p = t := by
  have hfree : t.entries.find? (fun e => e.1 == p) = none := by
    unfold get? at h
    split at h
    · cases h
    · exact Option.map_eq_none_iff.1 h
  have hall : t.entries.filter (fun e => e.1 != p) = t.entries :=
    List.filter_eq_self.2 fun e he => by simpa [bne] using List.find?_eq_none.1 hfree e he
  simp only [remove, hall]

/-- What was put at a free place is removed without a trace. -/
theorem remove_put {t : FileTree} {p : Place} (h : t.get? p = none) (n : Node) : (t.put p n).remove p = t := by
  have hput : ∀ es : List (Place × Node),
      (putEntry p n es).filter (fun e => e.1 != p) = es.filter (fun e => e.1 != p) := by
    intro es
    induction es with
    | nil => simp [putEntry]
    | cons e es ih =>
      by_cases he : e.1 = p
      · simp [putEntry, he]
      · simp [putEntry, he, ih]
  calc (t.put p n).remove p = t.remove p := by simp only [remove, put, hput]
    _ = t := remove_of_get?_eq_none h

theorem remove_put_other {t : FileTree} {p q : Place} (hne : q ≠ p) (n : Node) :
    (t.put q n).remove p = (t.remove p).put q n := by
  have hput : ∀ es : List (Place × Node),
      (putEntry q n es).filter (fun e => e.1 != p) = putEntry q n (es.filter fun e => e.1 != p) := by
    intro es
    induction es with
    | nil => simp [putEntry, hne]
    | cons e es ih =>
      by_cases he : e.1 = q
      · simp [putEntry, he, hne]
      · by_cases hp : e.1 = p
        · simp [putEntry, hp, Ne.symm hne, ih]
        · simp [putEntry, he, hp, ih]
  simp only [remove, put, hput]

end FileTree

end Captioning
