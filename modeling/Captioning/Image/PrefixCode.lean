import Captioning.Image.Bits
/-!
# Prefix codes

A prefix code is a binary tree with symbols at its leaves. It is given by the length of each symbol's code:
shorter codes come before longer ones, and codes of one length are in the order of their symbols. So the
tree is built level by level from the longest codes upwards: on each level the symbols of that length come
first, and pairs of what lies one level deeper follow.
-/

namespace Captioning.Image

/-- A tree of codes. An empty branch stands for codes that no symbol has. -/
inductive PrefixCode
  | empty
  | leaf (symbol : Nat)
  | node (zero one : PrefixCode)
deriving Repr

namespace PrefixCode

instance : Inhabited PrefixCode := ⟨empty⟩

/-- The trees of one level, joined in pairs to those of the level above. -/
def pairUp : List PrefixCode → List PrefixCode
  | a :: b :: more => .node a b :: pairUp more
  | [a] => [.node a .empty]
  | [] => []

/-- The symbols whose codes have some length. -/
def leaves (lengths : List Nat) (length : Nat) : List PrefixCode :=
  (lengths.zipIdx.filter fun p => p.1 == length).map fun p => .leaf p.2

/-- Moves up from `below`, the trees one level under `depth`, to the top. -/
def climb (lengths : List Nat) : Nat → List PrefixCode → List PrefixCode
  | 0, below => pairUp below
  | depth + 1, below => climb lengths depth (leaves lengths (depth + 1) ++ pairUp below)

/-- Whether every code has a symbol. -/
def isComplete : PrefixCode → Bool
  | .empty => false
  | .leaf _ => true
  | .node a b => a.isComplete && b.isComplete

/-- The code in which symbols have the given lengths; a symbol of length 0 has no code. Lengths that leave
no room for each other are refused. -/
def ofLengths (lengths : List Nat) : Except Fault PrefixCode :=
  match climb lengths (lengths.foldl max 0) [] with
  | [] => .ok .empty
  | [tree] => .ok tree
  | _ => .error (.malformed "prefix code")

/-- The code in which symbols have the given lengths and no code is left over. -/
def ofLengthsComplete (lengths : List Nat) : Except Fault PrefixCode := do
  let tree ← ofLengths lengths
  if tree.isComplete then return tree else throw (.malformed "prefix code")

/-- Reads the code of a symbol. -/
def read : PrefixCode → BitReader Nat
  | .empty => throw (.malformed "code")
  | .leaf symbol => return symbol
  | .node zero one => do if (← BitReader.bit) == 0 then zero.read else one.read

end PrefixCode

end Captioning.Image
