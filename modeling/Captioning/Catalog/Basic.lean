import Captioning.Catalog.Manifest
import Captioning.Catalog.Table
/-!
# Catalogs

A catalog lists items and remembers which of them have been described. It is either a table of addresses,
whose marks are not stored, or a source with a manifest, whose marks are.

Main statement: `mark?_eq_none_iff` (an identity can be marked exactly when an item has it).
-/

namespace Captioning

/-- A list of items that remembers which are described. -/
inductive Catalog
  | table (t : Table)
  | source (s : SourceDir)

namespace Catalog

/-- The name of a catalog. -/
def name : Catalog → String
  | .table t => t.name
  | .source s => s.manifest.source

/-- The items of a catalog, in order. -/
def items : Catalog → List Item
  | .table t => t.items
  | .source s => s.items

/-- The catalog with the item of an identity described; none if no item has that identity. -/
def mark? (id : String) : Catalog → Option Catalog
  | .table t => (t.mark? id).map .table
  | .source s => (s.manifest.mark? id).map fun m => .source { s with manifest := m }

/-- The catalog after an attempt to mark an identity. -/
def mark (id : String) (c : Catalog) : Catalog :=
  (c.mark? id).getD c

/-- Stores the marks. -/
def save (t : FileTree) : Catalog → FileTree × Except CatalogFault Unit
  | .table _ => (t, .ok ())
  | .source s => s.save t

/-- The items that are to be described now. -/
def pending (force : Bool) (c : Catalog) : List Item :=
  c.items.filter (·.isPending force)

theorem mark?_eq_none_iff {id : String} {c : Catalog} :
    c.mark? id = none ↔ ∀ i ∈ c.items, i.id ≠ id := by
  cases c with
  | table t => simp [mark?, Table.mark?, items, changeFirst?_eq_none_iff]
  | source s =>
    simp [mark?, Manifest.mark?_eq_none_iff, items, SourceDir.items, ManifestEntry.item]

end Catalog

end Captioning
