import Captioning.Catalog.Basic
/-!
# What marks change

To mark an identity touches one item at most, and of that only whether it is described (`mark_changes`). So
after any marks the items are the same but for some that have become described, and whose identities were
marked (`marks_change`, `ids_marks`).
-/

namespace Captioning.Catalog

/-- Each element of a changed list is what it was, or a changed element that has the property. -/
theorem getElem?_changeFirst? {α : Type} {p : α → Bool} {f : α → α} {xs ys : List α}
    (h : changeFirst? p f xs = some ys) (n : Nat) :
    ys[n]? = xs[n]? ∨ ∃ x, xs[n]? = some x ∧ p x = true ∧ ys[n]? = some (f x) := by
  induction xs generalizing ys n with
  | nil => simp [changeFirst?] at h
  | cons x xs ih =>
    by_cases hx : p x = true
    · obtain rfl : f x :: xs = ys := by simpa [changeFirst?, hx] using h
      cases n with
      | zero => exact .inr ⟨x, rfl, hx, rfl⟩
      | succ n => exact .inl rfl
    · simp only [changeFirst?, hx] at h
      obtain ⟨zs, hz, rfl⟩ := Option.map_eq_some_iff.1 h
      cases n with
      | zero => exact .inl rfl
      | succ n => exact ih hz n

/-- An item after some identities have been marked: what it was, or described if its identity is one of them. -/
def MarkedBy (ids : List String) (i j : Item) : Prop :=
  j = i ∨ i.id ∈ ids ∧ j = { i with described := true }

theorem MarkedBy.id_eq {ids : List String} {i j : Item} (h : MarkedBy ids i j) : j.id = i.id := by
  rcases h with rfl | ⟨-, rfl⟩ <;> rfl

theorem MarkedBy.described {ids : List String} {i j : Item} (h : MarkedBy ids i j) (hj : j.described = true) :
    i.described = true ∨ i.id ∈ ids := by
  rcases h with rfl | ⟨hm, rfl⟩
  · exact .inl hj
  · exact .inr hm

theorem MarkedBy.of_described {ids : List String} {i j : Item} (h : MarkedBy ids i j)
    (hi : i.described = true) : j.described = true := by
  rcases h with rfl | ⟨-, rfl⟩
  · exact hi
  · rfl

theorem MarkedBy.trans {ids ids' : List String} {i j k : Item} (h : MarkedBy ids i j) (h' : MarkedBy ids' j k) :
    MarkedBy (ids ++ ids') i k := by
  rcases h with rfl | ⟨hm, rfl⟩
  · rcases h' with rfl | ⟨hm', rfl⟩
    · exact .inl rfl
    · exact .inr ⟨List.mem_append_right _ hm', rfl⟩
  · refine .inr ⟨List.mem_append_left _ hm, ?_⟩
    rcases h' with rfl | ⟨-, rfl⟩ <;> rfl

/-- Two catalogs list the same items, but for some that have been marked. -/
def Marked (ids : List String) (c d : Catalog) : Prop :=
  d.items.length = c.items.length
    ∧ ∀ (n : Nat) i, c.items[n]? = some i → ∃ j, d.items[n]? = some j ∧ MarkedBy ids i j

theorem marked_refl (ids : List String) (c : Catalog) : Marked ids c c :=
  ⟨rfl, fun _ i hi => ⟨i, hi, .inl rfl⟩⟩

theorem Marked.trans {ids ids' : List String} {c d e : Catalog} (h : Marked ids c d) (h' : Marked ids' d e) :
    Marked (ids ++ ids') c e := by
  refine ⟨h'.1.trans h.1, fun n i hi => ?_⟩
  obtain ⟨j, hj, hij⟩ := h.2 n i hi
  obtain ⟨k, hk, hjk⟩ := h'.2 n j hj
  exact ⟨k, hk, hij.trans hjk⟩

theorem item_described (dir : String) (e : ManifestEntry) :
    ManifestEntry.item dir { e with described := true } = { ManifestEntry.item dir e with described := true } := by
  simp only [ManifestEntry.item]

/-- A mark changes nothing but that an item of its identity becomes described. -/
theorem mark_changes (id : String) (c : Catalog) : Marked [id] c (c.mark id) := by
  unfold mark
  cases hm : c.mark? id with
  | none => exact marked_refl _ c
  | some d =>
    rw [Option.getD_some]
    cases c with
    | table t =>
      obtain ⟨t', ht, rfl⟩ := Option.map_eq_some_iff.1 hm
      obtain ⟨items, hi, rfl⟩ := Option.map_eq_some_iff.1 ht
      refine ⟨length_of_changeFirst? hi, fun n i hn => ?_⟩
      have hn : t.items[n]? = some i := hn
      show ∃ j, items[n]? = some j ∧ _
      rcases getElem?_changeFirst? hi n with he | ⟨x, hx, hp, he⟩
      · exact ⟨i, he.trans hn, .inl rfl⟩
      · obtain rfl : i = x := Option.some.inj (hn.symm.trans hx)
        exact ⟨_, he, .inr ⟨by simpa using hp, rfl⟩⟩
    | source s =>
      obtain ⟨m, ht, rfl⟩ := Option.map_eq_some_iff.1 hm
      obtain ⟨entries, hi, rfl⟩ := Option.map_eq_some_iff.1 ht
      refine ⟨?_, fun n i hn => ?_⟩
      · simp [items, SourceDir.items, length_of_changeFirst? hi]
      · have hn : (s.manifest.items.map (ManifestEntry.item s.dir))[n]? = some i := hn
        rw [List.getElem?_map] at hn
        obtain ⟨e, he, rfl⟩ := Option.map_eq_some_iff.1 hn
        show ∃ j, (entries.map (ManifestEntry.item s.dir))[n]? = some j ∧ _
        rw [List.getElem?_map]
        rcases getElem?_changeFirst? hi n with hc | ⟨x, hx, hp, hc⟩
        · exact ⟨_, by rw [hc, he]; rfl, .inl rfl⟩
        · obtain rfl : e = x := Option.some.inj (he.symm.trans hx)
          refine ⟨{ ManifestEntry.item s.dir e with described := true }, ?_, .inr ⟨?_, rfl⟩⟩
          · rw [hc, Option.map_some, item_described]
          · simpa [ManifestEntry.item] using hp

/-- A catalog with some identities marked, one after another. -/
def marks (ids : List String) (c : Catalog) : Catalog :=
  ids.foldl (fun c id => c.mark id) c

@[simp] theorem marks_nil (c : Catalog) : c.marks [] = c := rfl

theorem marks_append (ids ids' : List String) (c : Catalog) : c.marks (ids ++ ids') = (c.marks ids).marks ids' := by
  simp [marks]

/-- A table stays a table. -/
theorem exists_table_marks (ids : List String) (t : Table) : ∃ t', (Catalog.table t).marks ids = .table t' := by
  induction ids generalizing t with
  | nil => exact ⟨t, rfl⟩
  | cons id ids ih =>
    show ∃ t', ((Catalog.table t).mark id).marks ids = .table t'
    unfold mark
    cases hm : (Catalog.table t).mark? id with
    | none => exact ih t
    | some d =>
      obtain ⟨t', -, rfl⟩ := Option.map_eq_some_iff.1 hm
      exact ih t'

/-- Marks change nothing but that items of their identities become described. -/
theorem marks_change (ids : List String) (c : Catalog) : Marked ids c (c.marks ids) := by
  induction ids generalizing c with
  | nil => exact marked_refl [] c
  | cons id ids ih => exact (mark_changes id c).trans (ih (c.mark id))

theorem Marked.ids_eq {ids : List String} {c d : Catalog} (h : Marked ids c d) :
    d.items.map (·.id) = c.items.map (·.id) := by
  refine List.ext_getElem? fun n => ?_
  rw [List.getElem?_map, List.getElem?_map]
  cases hc : c.items[n]? with
  | some i =>
    obtain ⟨j, hj, hij⟩ := h.2 n i hc
    rw [hj]
    exact congrArg some hij.id_eq
  | none =>
    have hn : d.items.length ≤ n := by
      rw [h.1]
      exact List.getElem?_eq_none_iff.1 hc
    rw [List.getElem?_eq_none_iff.2 hn]

theorem ids_marks (ids : List String) (c : Catalog) : (c.marks ids).items.map (·.id) = c.items.map (·.id) :=
  (marks_change ids c).ids_eq

/-- An identity of the catalog can be marked at any time. -/
theorem mark?_marks_isSome {id : String} {c : Catalog} (h : id ∈ c.items.map (·.id)) (ids : List String) :
    ((c.marks ids).mark? id).isSome = true := by
  rw [Option.isSome_iff_ne_none, ne_eq, mark?_eq_none_iff]
  intro hn
  rw [← ids_marks ids c] at h
  obtain ⟨i, hi, rfl⟩ := List.mem_map.1 h
  exact hn i hi rfl

theorem exists_of_changeFirst? {α : Type} {p : α → Bool} {f : α → α} {xs ys : List α}
    (h : changeFirst? p f xs = some ys) : ∃ x, p x = true ∧ f x ∈ ys := by
  induction xs generalizing ys with
  | nil => simp [changeFirst?] at h
  | cons x xs ih =>
    by_cases hx : p x = true
    · obtain rfl : f x :: xs = ys := by simpa [changeFirst?, hx] using h
      exact ⟨x, hx, List.mem_cons_self⟩
    · simp only [changeFirst?, hx] at h
      obtain ⟨zs, hz, rfl⟩ := Option.map_eq_some_iff.1 h
      obtain ⟨y, hy, hm⟩ := ih hz
      exact ⟨y, hy, List.mem_cons_of_mem x hm⟩

/-- Once an identity is marked, an item of it is described. -/
theorem described_of_mark? {id : String} {c d : Catalog} (h : c.mark? id = some d) :
    ∃ j ∈ d.items, j.id = id ∧ j.described = true := by
  cases c with
  | table t =>
    obtain ⟨t', ht, rfl⟩ := Option.map_eq_some_iff.1 h
    obtain ⟨items, hi, rfl⟩ := Option.map_eq_some_iff.1 ht
    obtain ⟨i, hid, hm⟩ := exists_of_changeFirst? hi
    exact ⟨_, hm, by simpa using hid, rfl⟩
  | source s =>
    obtain ⟨m, ht, rfl⟩ := Option.map_eq_some_iff.1 h
    obtain ⟨entries, hi, rfl⟩ := Option.map_eq_some_iff.1 ht
    obtain ⟨e, hid, hm⟩ := exists_of_changeFirst? hi
    exact ⟨ManifestEntry.item s.dir { e with described := true }, List.mem_map_of_mem hm,
      by simpa [ManifestEntry.item] using hid, rfl⟩

/-- Marks are never taken back. -/
theorem Marked.described {ids : List String} {c d : Catalog} (h : Marked ids c d) {i : Item} (hi : i ∈ c.items)
    (hd : i.described = true) : ∃ j ∈ d.items, j.id = i.id ∧ j.described = true := by
  obtain ⟨n, hn⟩ := List.mem_iff_getElem?.1 hi
  obtain ⟨j, hj, hij⟩ := h.2 n i hn
  exact ⟨j, List.mem_of_getElem? hj, hij.id_eq, hij.of_described hd⟩

/-- After some marks, each of their identities that the catalog has is that of a described item. -/
theorem described_of_mem_marks {id : String} {ids : List String} {c : Catalog} (hid : id ∈ ids)
    (hc : id ∈ c.items.map (·.id)) : ∃ j ∈ (c.marks ids).items, j.id = id ∧ j.described = true := by
  obtain ⟨front, behind, rfl⟩ := List.append_of_mem hid
  obtain ⟨d, hd⟩ := Option.isSome_iff_exists.1 (mark?_marks_isSome hc front)
  have hsplit : c.marks (front ++ id :: behind) = d.marks behind := by
    rw [marks_append]
    show ((c.marks front).mark id).marks behind = d.marks behind
    rw [mark, hd, Option.getD_some]
  obtain ⟨i, hi, rfl, hdesc⟩ := described_of_mark? hd
  rw [hsplit]
  exact (marks_change behind d).described hi hdesc

/-- A described item of a catalog after marks was described before, or its identity has been marked. -/
theorem described_of_marks {ids : List String} {c : Catalog} {n : Nat} {j : Item}
    (h : (c.marks ids).items[n]? = some j) (hj : j.described = true) :
    ∃ i, c.items[n]? = some i ∧ i.id = j.id ∧ (i.described = true ∨ i.id ∈ ids) := by
  obtain ⟨hl, hm⟩ := marks_change ids c
  cases hc : c.items[n]? with
  | none =>
    have hn := List.getElem?_eq_none_iff.1 hc
    rw [List.getElem?_eq_none_iff.2 (by rw [hl]; exact hn)] at h
    cases h
  | some i =>
    obtain ⟨j', hj', hij⟩ := hm n i hc
    obtain rfl : j' = j := Option.some.inj (hj'.symm.trans h)
    exact ⟨i, rfl, hij.id_eq.symm, hij.described hj⟩

end Captioning.Catalog
