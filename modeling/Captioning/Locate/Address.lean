import Captioning.Text.Replace
/-!
# Addresses

Media that has moved to another host keeps its old address in catalogs, so addresses are relocated before
they are used. Media that was taken down leads to a notice, which is recognised by its address.
-/

namespace Captioning

/-- An old host and the one in its place. -/
structure Relocation where
  old : String
  new : String
deriving Repr, DecidableEq

namespace Address

/-- An address with every relocation applied in order. -/
def relocateChars (relocations : List Relocation) (url : List Char) : List Char :=
  relocations.foldl (fun u r => Text.replaceAll r.old.toList r.new.toList u) url

/-- An address with every relocation applied in order. -/
def relocate (relocations : List Relocation) (url : String) : String :=
  String.ofList (relocateChars relocations url.toList)

/-- Whether an address is that of a notice that media was taken down: it holds one of the markers. -/
def isRemovalNotice (markers : List String) (location : String) : Bool :=
  markers.any fun m => Text.occursIn m.toList location.toList

end Address

end Captioning
