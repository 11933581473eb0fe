import Captioning.Files.Tree
/-!
# Changes of a tree

What is written to a disk is a list of changes, made one after the other up to the first that fails. A disk may
take the bytes of a file in several pieces, and it may refuse any change for reasons of its own. A program that is
stopped leaves the tree as a front of its changes has made it.
-/

namespace Captioning

/-- How a disk takes what is written to it. -/
structure Disk where
  /-- The pieces in which bytes reach a file. -/
  pieces : Bytes → List Bytes
  flatten_pieces : ∀ b, (pieces b).flatten = b
  /-- Why a change is refused, by its number from zero. -/
  refuses : Nat → Option FileFault

/-- A disk that takes everything at once and refuses nothing. -/
def Disk.sound : Disk where
  pieces b := [b]
  flatten_pieces b := by simp
  refuses _ := none

namespace FileTree

/-- One change of a tree. -/
inductive Change
  /-- A new file without contents. -/
  | create (path : String)
  /-- More bytes at the end of a file. -/
  | extend (path : String) (content : Bytes)
  /-- A file as it is, brought to the disk. -/
  | sync (path : String)
  /-- A file in the place of another. -/
  | rename (old new : String)
deriving Repr, DecidableEq

/-- Makes one change. -/
def Change.apply (t : FileTree) : Change → Except FileFault FileTree
  | .create path => if t.holds path then .error .exists_ else t.write path []
  | .extend path content => t.append path content
  | .sync _ => .ok t
  | .rename old new => t.rename old new

/-- Makes changes up to the first that is refused or fails. -/
def performOn (refuses : Nat → Option FileFault) (t : FileTree) : List Change → FileTree × Option FileFault
  | [] => (t, none)
  | c :: more =>
    match refuses 0 with
    | some f => (t, some f)
    | none =>
      match c.apply t with
      | .ok u => performOn (fun n => refuses (n + 1)) u more
      | .error f => (t, some f)

/-! ## Small facts -/

@[simp] theorem performOn_nil (refuses : Nat → Option FileFault) (t : FileTree) :
    t.performOn refuses [] = (t, none) := rfl

/-- What was made was not refused. -/
theorem refuses_of_performOn {refuses : Nat → Option FileFault} {t : FileTree} {cs : List Change}
    (h : (t.performOn refuses cs).2 = none) {n : Nat} (hn : n < cs.length) : refuses n = none := by
  induction cs generalizing t refuses n with
  | nil => cases hn
  | cons c cs ih =>
    rw [performOn] at h
    split at h
    · cases h
    · next h0 =>
      split at h
      · cases n with
        | zero => exact h0
        | succ n => exact ih h (Nat.lt_of_succ_lt_succ hn)
      · cases h

end FileTree

end Captioning
