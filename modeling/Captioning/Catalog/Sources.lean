import Captioning.Catalog.Manifest
/-!
# Finding sources

The directories below a root that hold a manifest, sorted by name. A name that starts with an underscore
marks a directory that is no source. A root that does not exist has no sources.
-/

namespace Captioning.SourceDir

/-- Whether a directory below the root is a source that is wanted. -/
def isWanted (t : FileTree) (root : String) (only : Option String) (name : String) : Bool :=
  let path := Path.join root name
  t.isDirectory path && !name.startsWith "_" && (match only with
    | some wanted => wanted == name
    | none => true) && t.isFile (manifestPath path)

/-- The paths of the sources that are listed below a root, whatever the order of the listing is. One name
that cannot be listed spoils the listing. -/
def choose (t : FileTree) (root : String) (only : Option String) (listing : List (Except FileFault String)) :
    Except CatalogFault (List String) := do
  let names ← (listing.mapM id).mapError fun f => .read root f
  let wanted := names.filter (isWanted t root only)
  return (wanted.mergeSort fun a b => decide (a ≤ b)).map (Path.join root)

/-- The paths of the sources below a root, from the answer to the question what is in it: names in some order, or why
the root cannot be listed. -/
def findListed (t : FileTree) (root : String) (only : Option String) :
    Except FileFault (List (Except FileFault String)) → Except CatalogFault (List String)
  | .error f => if f == .noEntry then .ok [] else .error (.read root f)
  | .ok listing => choose t root only listing

/-- The paths of the sources below a root. -/
def find (t : FileTree) (root : String) (only : Option String) : Except CatalogFault (List String) :=
  match t.list root with
  | .error f => if f == .noEntry then .ok [] else .error (.read root f)
  | .ok names => choose t root only (names.map .ok)

theorem find_eq_findListed (t : FileTree) (root : String) (only : Option String) :
    find t root only = findListed t root only ((t.list root).map (·.map .ok)) := by
  unfold find
  cases t.list root <;> rfl

end Captioning.SourceDir
