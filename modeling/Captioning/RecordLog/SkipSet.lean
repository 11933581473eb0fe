/-!
# Identities to skip

A set of identities. The order of insertion has no meaning.

Main statements: `contains_insert` (an inserted identity is in the set, beside what was), `size_insert`.
-/

namespace Captioning

/-- Identities that have a record already. -/
structure SkipSet where
  ids : List String
  nodup : ids.Nodup
deriving Repr, DecidableEq

namespace SkipSet

/-- No identities. -/
def empty : SkipSet := ⟨[], List.nodup_nil⟩

/-- Whether an identity is in the set. -/
def contains (s : SkipSet) (id : String) : Bool :=
  s.ids.contains id

/-- How many identities there are. -/
def size (s : SkipSet) : Nat :=
  s.ids.length

/-- Whether there is none. -/
def isEmpty (s : SkipSet) : Bool :=
  s.ids.isEmpty

/-- The set with one more identity. -/
def insert (s : SkipSet) (id : String) : SkipSet :=
  if h : id ∈ s.ids then s else ⟨id :: s.ids, List.nodup_cons.2 ⟨h, s.nodup⟩⟩

/-- The set of some identities. -/
def ofList (ids : List String) : SkipSet :=
  ids.foldl insert empty

/-! ## Small facts -/

@[simp] theorem contains_empty (id : String) : empty.contains id = false := rfl

@[simp] theorem contains_insert (s : SkipSet) (id x : String) :
    (s.insert id).contains x = (x == id || s.contains x) := by
  unfold insert contains
  split
  · by_cases hx : x = id <;> simp [*]
  · by_cases hx : x = id <;> simp [*]

theorem size_insert (s : SkipSet) (id : String) :
    (s.insert id).size = s.size + if s.contains id then 0 else 1 := by
  unfold insert contains size
  split <;> simp [*]

theorem contains_foldl_insert (s : SkipSet) (ids : List String) (x : String) :
    (ids.foldl insert s).contains x = (ids.contains x || s.contains x) := by
  induction ids generalizing s with
  | nil => simp
  | cons id ids ih =>
    simp only [List.foldl_cons, ih, contains_insert, List.contains_cons]
    cases ids.contains x <;> cases x == id <;> rfl

@[simp] theorem contains_ofList (ids : List String) (x : String) :
    (ofList ids).contains x = ids.contains x := by
  simp [ofList, contains_foldl_insert]

end SkipSet

end Captioning
