import Captioning.Catalog.Entry
import Captioning.Catalog.Fault
import Captioning.Files.Change
import Captioning.Item
import Captioning.Json.Reader
/-!
# Manifests

A manifest is a JSON file that names a source and lists the media in its directory, with what has become of
each. Members that have no meaning here are kept and written back, sorted by name and behind the others.

A manifest is replaced as a whole: the new text is written beside it and then moved over it, so that at
any time the directory holds either the old text or the new one.

Main statement: `Manifest.mark?_eq_none_iff` (an identity can be marked exactly when an entry has it).
-/

namespace Captioning

/-- One medium in the directory of a manifest. -/
structure ManifestEntry where
  id : String
  originUrl : String
  pageUrl : Option String
  title : Option String
  localFile : Option String
  format : Option String
  downloaded : Bool
  described : Bool
  extra : List (String × Json.Value)

/-- A source and its media. -/
structure Manifest where
  source : String
  items : List ManifestEntry
  extra : List (String × Json.Value)

/-! ## Reading -/

namespace ManifestEntry

/-- An entry under construction. -/
structure Draft where
  id : Option String
  originUrl : Option String
  pageUrl : Option (Option String)
  title : Option (Option String)
  localFile : Option (Option String)
  format : Option (Option String)
  downloaded : Option Bool
  described : Option Bool
  extra : List (String × Json.Value)

/-- Nothing read yet. -/
def Draft.empty : Draft := ⟨none, none, none, none, none, none, none, none, []⟩

/-- Reads a text or null. -/
def readText? : Json.Reader (Option String) :=
  Json.readOptional Json.readString

/-- The fields of an entry in order. -/
def fields : List (Json.Field Draft) := [
  ⟨"id", (·.id.isSome), fun depth v r => do return { r with id := some (← Json.readString depth v) }, false⟩,
  ⟨"original_url", (·.originUrl.isSome),
    fun depth v r => do return { r with originUrl := some (← Json.readString depth v) }, true⟩,
  ⟨"page_url", (·.pageUrl.isSome),
    fun depth v r => do return { r with pageUrl := some (← readText? depth v) }, true⟩,
  ⟨"title", (·.title.isSome),
    fun depth v r => do return { r with title := some (← readText? depth v) }, true⟩,
  ⟨"local_file", (·.localFile.isSome),
    fun depth v r => do return { r with localFile := some (← readText? depth v) }, true⟩,
  ⟨"format", (·.format.isSome),
    fun depth v r => do return { r with format := some (← readText? depth v) }, true⟩,
  ⟨"downloaded", (·.downloaded.isSome),
    fun depth v r => do return { r with downloaded := some (← Json.readBool depth v) }, true⟩,
  ⟨"described", (·.described.isSome),
    fun depth v r => do return { r with described := some (← Json.readBool depth v) }, true⟩]

/-- How an entry is read. -/
def shape : Json.Shape Draft :=
  ⟨"ManifestEntry", fields, .keep fun k v r => { r with extra := Json.putMember k v r.extra }, false⟩

/-- The entry, if what it needs has been read. -/
def Draft.finish (r : Draft) : Except Json.Fault ManifestEntry := do
  let id ← Json.require "id" r.id
  return {
    id := id
    originUrl := r.originUrl.getD ""
    pageUrl := r.pageUrl.getD none
    title := r.title.getD none
    localFile := r.localFile.getD none
    format := r.format.getD none
    downloaded := r.downloaded.getD false
    described := r.described.getD false
    extra := r.extra }

/-- Reads an entry. -/
def read : Json.Reader ManifestEntry := fun depth d => do
  (← shape.read Draft.empty depth d).finish

/-- A member for a text, if there is one. -/
def textMember (name : String) : Option String → List (String × Json.Value)
  | some s => [(name, .string s)]
  | none => []

/-- The value of an entry. -/
def toValue (e : ManifestEntry) : Json.Value :=
  .object ([("id", .string e.id), ("original_url", .string e.originUrl)]
    ++ textMember "page_url" e.pageUrl ++ textMember "title" e.title
    ++ textMember "local_file" e.localFile ++ textMember "format" e.format
    ++ [("downloaded", .bool e.downloaded), ("described", .bool e.described)] ++ e.extra)

/-- The item of an entry. Without a file there is nothing to sample, so its media is not there. -/
def item (dir : String) (e : ManifestEntry) : Item where
  id := e.id
  source := .local_ (Path.join dir (e.localFile.getD ""))
  format := .ofTag (e.format.getD "gif").toList
  originUrl := e.originUrl
  caption := e.title.getD ""
  attribution := e.pageUrl
  located := e.downloaded && e.localFile.isSome
  described := e.described

end ManifestEntry

namespace Manifest

/-- A manifest under construction. -/
structure Draft where
  source : Option String
  items : Option (List ManifestEntry)
  extra : List (String × Json.Value)

/-- Nothing read yet. -/
def Draft.empty : Draft := ⟨none, none, []⟩

/-- The fields of a manifest in order. -/
def fields : List (Json.Field Draft) := [
  ⟨"source", (·.source.isSome),
    fun depth v r => do return { r with source := some (← Json.readString depth v) }, false⟩,
  ⟨"items", (·.items.isSome),
    fun depth v r => do return { r with items := some (← Json.readList ManifestEntry.read depth v) }, true⟩]

/-- How a manifest is read. -/
def shape : Json.Shape Draft :=
  ⟨"Manifest", fields, .keep fun k v r => { r with extra := Json.putMember k v r.extra }, false⟩

/-- The manifest, if what it needs has been read. -/
def Draft.finish (r : Draft) : Except Json.Fault Manifest := do
  let source ← Json.require "source" r.source
  return ⟨source, r.items.getD [], r.extra⟩

/-- Reads a text that holds a manifest. -/
def ofText (s : String) : Except Json.Fault Manifest :=
  Json.readText (fun depth d => do (← shape.read Draft.empty depth d).finish) s

/-- The value of a manifest. -/
def toValue (m : Manifest) : Json.Value :=
  .object ([("source", .string m.source), ("items", .array (m.items.map ManifestEntry.toValue))] ++ m.extra)

/-- The text of a manifest. -/
def text (m : Manifest) : String :=
  m.toValue.pretty

/-- The manifest with the entry of an identity described. -/
def mark? (id : String) (m : Manifest) : Option Manifest :=
  (Catalog.changeFirst? (fun e => e.id == id) (fun e => { e with described := true }) m.items).map
    fun items => { m with items := items }

theorem mark?_eq_none_iff {id : String} {m : Manifest} :
    m.mark? id = none ↔ ∀ e ∈ m.items, e.id ≠ id := by
  simp [mark?, Catalog.changeFirst?_eq_none_iff]

end Manifest

/-! ## In a directory -/

/-- A manifest in the directory that it describes. -/
structure SourceDir where
  dir : String
  manifest : Manifest

namespace SourceDir

/-- The file of the manifest. -/
def manifestName : String := "manifest.json"

/-- The file of the records. -/
def recordsName : String := "descriptions.jsonl"

/-- The path of the manifest. -/
def manifestPath (dir : String) : String :=
  Path.join dir manifestName

/-- The path of the records. -/
def recordsPath (dir : String) : String :=
  Path.join dir recordsName

/-- The source in a directory. -/
def load (t : FileTree) (dir : String) : Except CatalogFault SourceDir :=
  match t.readText (manifestPath dir) with
  | .error f => .error (.read (manifestPath dir) f)
  | .ok text => match Manifest.ofText text with
    | .ok m => .ok ⟨dir, m⟩
    | .error f => .error (.form (manifestPath dir) f)

/-- The items of a source. -/
def items (s : SourceDir) : List Item :=
  s.manifest.items.map (ManifestEntry.item s.dir)

/-- A name in a directory that nothing has yet. -/
def freshName (t : FileTree) (dir : String) : String :=
  let taken := (t.list (Path.directory dir)).toOption.getD []
  let names := (List.range (taken.length + 1)).map fun n => ".manifest-" ++ toString n
  (names.find? fun n => !taken.contains n).getD ".manifest"

/-- The changes that replace a manifest by a new text: its pieces are written to another file, which then takes the
place of the manifest. -/
def replacement (temporary path : String) (pieces : List Bytes) : List FileTree.Change :=
  .create temporary :: (pieces.map (.extend temporary) ++ [.sync temporary, .rename temporary path])

/-- The path of the file that the manifest is written to. -/
def temporaryPath (t : FileTree) (s : SourceDir) : String :=
  Path.join s.dir (freshName t s.dir)

/-- The changes that write the manifest back. -/
def savingChanges (disk : Disk) (t : FileTree) (s : SourceDir) : List FileTree.Change :=
  replacement (s.temporaryPath t) (manifestPath s.dir) (disk.pieces (Utf8.ofString s.manifest.text))

/-- Writes the manifest back to a disk. When that fails the other file is removed again. -/
def saveOn (disk : Disk) (t : FileTree) (s : SourceDir) : FileTree × Except CatalogFault Unit :=
  match t.performOn disk.refuses (s.savingChanges disk t) with
  | (u, none) => (u, .ok ())
  | (u, some f) => (u.discard (s.temporaryPath t), .error (.write (manifestPath s.dir) f))

/-- Writes the manifest back. -/
def save (t : FileTree) (s : SourceDir) : FileTree × Except CatalogFault Unit :=
  s.saveOn .sound t

/-- How many media a source lists, how many of them are there, and how many are described. -/
structure Stats where
  total : Nat
  downloaded : Nat
  described : Nat
deriving Repr, DecidableEq

/-- Counts the media of a source. -/
def stats (s : SourceDir) : Stats where
  total := s.manifest.items.length
  downloaded := s.manifest.items.countP (·.downloaded)
  described := s.manifest.items.countP (·.described)

/-- What is reported about a source. -/
def statsNotice (s : SourceDir) : String :=
  let n := s.stats
  "=== " ++ s.manifest.source ++ " === (" ++ toString n.total ++ " items, " ++ toString n.downloaded
    ++ " downloaded, " ++ toString n.described ++ " described)"

end SourceDir

end Captioning
