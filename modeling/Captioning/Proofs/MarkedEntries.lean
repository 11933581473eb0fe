import Captioning.Proofs.CatalogMarks
/-!
# Where marks go

To mark an identity flags one place of the catalog, the first one that has the identity (`mark_eq_flagAt`). So it is
known beforehand which places are flagged by some marks (`getElem?_marks`), and marks can be made in any order
(`mark_comm`, `marks_perm`).
-/

namespace Captioning.Catalog

/-! ## Places -/

/-- The first place of an identity. It is behind the end when no item has the identity. -/
def place (id : String) (c : Catalog) : Nat :=
  c.items.findIdx fun i => i.id == id

/-- A catalog with the item at a place described. -/
def flagAt (n : Nat) : Catalog → Catalog
  | .table t => .table { t with items := t.items.modify n fun i => { i with described := true } }
  | .source s => .source { s with manifest := { s.manifest with
      items := s.manifest.items.modify n fun e => { e with described := true } } }

theorem items_flagAt (n : Nat) (c : Catalog) :
    (c.flagAt n).items = c.items.modify n fun i => { i with described := true } := by
  cases c with
  | table t => rfl
  | source s =>
    refine List.ext_getElem (by simp [flagAt, items, SourceDir.items]) fun m _ _ => ?_
    simp only [flagAt, items, SourceDir.items, List.getElem_map, List.getElem_modify]
    split
    · exact item_described s.dir _
    · rfl

theorem place_eq (id : String) (c : Catalog) : c.place id = (c.items.map (·.id)).findIdx (· == id) := by
  rw [List.findIdx_map]
  rfl

theorem id_of_place {id : String} {c : Catalog} {i : Item} (h : c.items[c.place id]? = some i) : i.id = id := by
  obtain ⟨hlt, rfl⟩ := List.getElem?_eq_some_iff.1 h
  exact eq_of_beq (List.findIdx_getElem (p := fun i : Item => i.id == id) (w := hlt))

/-- No item in front of the first place of an identity has it. -/
theorem place_le {c : Catalog} {n : Nat} {i : Item} (h : c.items[n]? = some i) : c.place i.id ≤ n := by
  obtain ⟨hlt, rfl⟩ := List.getElem?_eq_some_iff.1 h
  refine Nat.le_of_not_lt fun hn => ?_
  have := List.not_of_lt_findIdx hn
  simp at this

/-- Where no identity is repeated, each item is at the first place of its identity. -/
theorem place_eq_of_nodup {c : Catalog} (hc : (c.items.map (·.id)).Nodup) {n : Nat} {i : Item}
    (h : c.items[n]? = some i) : c.place i.id = n := by
  obtain ⟨hn, -⟩ := List.getElem?_eq_some_iff.1 h
  have hp : c.place i.id < c.items.length := Nat.lt_of_le_of_lt (place_le h) hn
  have hid : c.items[c.place i.id].id = i.id := id_of_place (List.getElem?_eq_getElem hp)
  refine (List.getElem?_inj (by simpa using hp) hc).1 ?_
  rw [List.getElem?_map, List.getElem?_map, h, List.getElem?_eq_getElem hp]
  exact congrArg some hid

/-- The order in which places are flagged does not matter. -/
theorem flagAt_comm (m n : Nat) (c : Catalog) : (c.flagAt m).flagAt n = (c.flagAt n).flagAt m := by
  by_cases h : m = n
  · rw [h]
  · cases c with
    | table t => simp only [flagAt, List.modify_modify_ne _ _ t.items h]
    | source s => simp only [flagAt, List.modify_modify_ne _ _ s.manifest.items h]

/-! ## Marks -/

theorem getD_changeFirst? {α : Type} (p : α → Bool) (f : α → α) (xs : List α) :
    (changeFirst? p f xs).getD xs = xs.modify (xs.findIdx p) f := by
  induction xs with
  | nil => rfl
  | cons x xs ih =>
    by_cases hx : p x = true
    · simp [changeFirst?, hx, List.findIdx_cons]
    · have hx : p x = false := by simpa using hx
      rw [List.findIdx_cons, hx, cond_false, List.modify_succ_cons, ← ih]
      cases h : changeFirst? p f xs <;> simp [changeFirst?, hx, h]

/-- A mark flags the first place of its identity. -/
theorem mark_eq_flagAt (id : String) (c : Catalog) : c.mark id = c.flagAt (c.place id) := by
  cases c with
  | table t =>
    have h := getD_changeFirst? (fun i : Item => i.id == id) (fun i => { i with described := true }) t.items
    have hplace : (Catalog.table t).place id = t.items.findIdx fun i => i.id == id := rfl
    rw [hplace, flagAt, ← h]
    simp only [mark, mark?, Table.mark?]
    cases changeFirst? _ _ t.items <;> rfl
  | source s =>
    have h := getD_changeFirst? (fun e : ManifestEntry => e.id == id) (fun e => { e with described := true })
      s.manifest.items
    have hplace : (Catalog.source s).place id = s.manifest.items.findIdx fun e => e.id == id :=
      List.findIdx_map ..
    rw [hplace, flagAt, ← h]
    simp only [mark, mark?, Manifest.mark?]
    cases changeFirst? _ _ s.manifest.items <;> rfl

@[simp] theorem place_mark (id id' : String) (c : Catalog) : (c.mark id').place id = c.place id := by
  rw [place_eq, place_eq, (mark_changes id' c).ids_eq]

theorem place_marks (id : String) (ids : List String) (c : Catalog) : (c.marks ids).place id = c.place id := by
  rw [place_eq, place_eq, ids_marks]

theorem mark_comm (id id' : String) (c : Catalog) : (c.mark id).mark id' = (c.mark id').mark id := by
  rw [mark_eq_flagAt id' (c.mark id), place_mark, mark_eq_flagAt id c, flagAt_comm, mark_eq_flagAt id (c.mark id'),
    place_mark, mark_eq_flagAt id' c]

/-- Marks can be made in any order. -/
theorem marks_perm {ids ids' : List String} (h : ids.Perm ids') (c : Catalog) : c.marks ids = c.marks ids' :=
  h.foldl_eq' (fun id _ id' _ d => mark_comm id id' d) c

/-- An item of a catalog after a mark. -/
theorem getElem?_mark (id : String) (c : Catalog) (n : Nat) : (c.mark id).items[n]? = c.items[n]?.map
    fun i => if c.place id = n then { i with described := true } else i := by
  rw [mark_eq_flagAt, items_flagAt, List.getElem?_modify, Option.map_eq_map]

/-- An item of a catalog after some marks: it is described if its identity is marked and this is the first place
of it. -/
theorem getElem?_marks (ids : List String) (c : Catalog) (n : Nat) : (c.marks ids).items[n]? = c.items[n]?.map
    fun i => if i.id ∈ ids ∧ c.place i.id = n then { i with described := true } else i := by
  induction ids generalizing c with
  | nil => simp
  | cons id ids ih =>
    show ((c.mark id).marks ids).items[n]? = _
    rw [ih, getElem?_mark, Option.map_map]
    refine Option.map_congr fun i hi => ?_
    by_cases hp : c.place id = n
    · obtain rfl : i.id = id := id_of_place (hp.symm ▸ hi)
      simp [hp]
    · have hid : i.id = id → ¬ c.place i.id = n := by
        rintro rfl
        exact hp
      by_cases hi : i.id = id
      · simp [hp, hid hi]
      · simp [hp, hi]

/-- Where no identity is repeated, every item becomes described whose identity is marked. -/
theorem exists_marks_of_nodup {c : Catalog} (hc : (c.items.map (·.id)).Nodup) (ids : List String) {n : Nat} {i : Item}
    (hi : c.items[n]? = some i) : ∃ j, (c.marks ids).items[n]? = some j ∧ j.id = i.id
      ∧ (j.described = true ↔ i.described = true ∨ i.id ∈ ids) := by
  rw [getElem?_marks, hi, Option.map_some]
  refine ⟨_, rfl, ?_⟩
  by_cases hm : i.id ∈ ids
  · rw [if_pos ⟨hm, place_eq_of_nodup hc hi⟩]
    simp [hm]
  · rw [if_neg fun h => hm h.1]
    simp [hm]

end Captioning.Catalog
