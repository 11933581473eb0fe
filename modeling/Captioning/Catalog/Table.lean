import Captioning.Catalog.Entry
import Captioning.Catalog.Fault
import Captioning.Files.Tree
import Captioning.Item
import Captioning.Locate.Address
import Captioning.Text.Lines
/-!
# Tables of addresses

A table is a text with an address, a tab and a caption on each line. The address, once relocated, is the
identity of the item. Lines without an address and a caption are skipped and counted. What becomes of an
item is remembered only as long as the table is.

Main statement: `parseLine?_eq_none_iff` (a line is skipped exactly when no tab follows an address).
-/

namespace Captioning

/-- The items of a table, under the name of the table. -/
structure Table where
  name : String
  items : List Item
deriving Repr, DecidableEq

namespace Table

/-- The item of an address, with its caption. -/
def item (relocations : List Relocation) (url caption : List Char) : Item :=
  let address := String.ofList (Address.relocateChars relocations url)
  { Item.new address (.ofText address) (.ofReference address) with caption := String.ofList caption }

/-- The item of a line. -/
def parseLine? (relocations : List Relocation) (line : List Char) : Option Item :=
  let line := Text.trim line
  let url := line.takeWhile (· != '\t')
  match line.dropWhile (· != '\t') with
  | _ :: caption => if url.isEmpty then none else some (item relocations url caption)
  | [] => none

/-- The table of a text, and how many of its lines were skipped. -/
def parse (name : String) (text : List Char) (relocations : List Relocation) : Table × Nat :=
  let lines := Text.lines text
  let items := lines.filterMap (parseLine? relocations)
  (⟨name, items⟩, lines.length - items.length)

/-- The name of the table in a file. -/
def nameOfPath (path : String) : String :=
  ((Path.stem? path.toList).map String.ofList).getD path

/-- The table in a file. -/
def load (t : FileTree) (path : String) (relocations : List Relocation) : Except CatalogFault (Table × Nat) :=
  match t.readText path with
  | .ok text => .ok (parse (nameOfPath path) text.toList relocations)
  | .error f => .error (.read path f)

/-- What is reported about skipped lines. -/
def skippedNotice (skipped : Nat) : List String :=
  if 0 < skipped then ["Skipped " ++ toString skipped ++ " TSV lines without a url and caption"] else []

/-- The table with the item of an identity described. -/
def mark? (id : String) (t : Table) : Option Table :=
  (Catalog.changeFirst? (fun i => i.id == id) (fun i => { i with described := true }) t.items).map
    fun items => { t with items := items }

/-! ## Small facts -/

theorem dropWhile_ne_eq_nil_iff {c : Char} {s : List Char} : s.dropWhile (· != c) = [] ↔ c ∉ s := by
  induction s with
  | nil => simp
  | cons d s ih =>
    by_cases h : d = c
    · simp [h]
    · simp [h, ih, Ne.symm h]

theorem parseLine?_eq_none_iff {relocations : List Relocation} {line : List Char} :
    parseLine? relocations line = none ↔ '\t' ∉ Text.trim line ∨ (Text.trim line).head? = some '\t' := by
  unfold parseLine?
  generalize Text.trim line = s
  cases s with
  | nil => simp
  | cons c s =>
    by_cases hc : c = '\t'
    · simp [hc]
    · have hb : (c != '\t') = true := by simp [hc]
      simp only [List.takeWhile_cons, List.dropWhile_cons, hb, if_true, List.isEmpty_cons, List.head?_cons,
        Option.some.injEq, hc, or_false, List.mem_cons, not_or, Ne.symm hc, not_false_iff, true_and]
      rw [← dropWhile_ne_eq_nil_iff]
      cases s.dropWhile (· != '\t') <;> simp

end Table

end Captioning
