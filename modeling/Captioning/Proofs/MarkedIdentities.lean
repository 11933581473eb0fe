import Captioning.Proofs.StoredMarks
import Mathlib.Data.List.Dedup
/-!
# What is marked

A catalog that is marked often finds the positions of its identities once, when it is loaded (`Catalog.Indexed`), and
marks by them. Marks do not move anything, so the positions stay right, and what is marked by them is what would be
found by a search at each mark (`Indexed.mark_eq`, `Indexed.markAll_eq`).

What some marks come to depends only on which identities are marked, and is nothing but that some items become
described. What is due, and how many items are described, follows from that (`marks_by_identity`).
-/

namespace Captioning

/-- An item apart from whether it is described. -/
def Item.unflagged (i : Item) : Item :=
  { i with described := false }

namespace Catalog

/-! ## Positions -/

/-- The position of each identity of a list. An identity that is repeated keeps its first position. -/
def firstPositions (ids : List String) : Std.HashMap String Nat :=
  ids.zipIdx.foldl (fun positions p => positions.insertIfNew p.1 p.2) ∅

theorem getElem?_foldl_insertIfNew (ids : List String) (k : Nat) (positions : Std.HashMap String Nat) (id : String) :
    ((ids.zipIdx k).foldl (fun positions p => positions.insertIfNew p.1 p.2) positions)[id]?
      = positions[id]?.or ((ids.findIdx? (· == id)).map (· + k)) := by
  induction ids generalizing k positions with
  | nil => simp
  | cons first ids ih =>
    rw [List.zipIdx_cons, List.foldl_cons, ih, List.findIdx?_cons, Std.HashMap.getElem?_insertIfNew]
    by_cases hid : first = id
    · subst hid
      by_cases hm : first ∈ positions
      · simp [hm]
      · simp [hm]
    · have hne : (first == id) = false := beq_false_of_ne hid
      simp [hne, Function.comp_def, Nat.add_assoc, Nat.add_comm 1 k]

/-- The position of an identity is where a search from the front finds it. -/
theorem getElem?_firstPositions (ids : List String) (id : String) :
    (firstPositions ids)[id]? = ids.findIdx? (· == id) := by
  simp [firstPositions, getElem?_foldl_insertIfNew]

/-- The first place of an identity is where no item in front has it. -/
theorem place_eq_iff {c : Catalog} {n : Nat} {i : Item} (h : c.items[n]? = some i) :
    c.place i.id = n ↔ ∀ (k : Nat) (j : Item), k < n → c.items[k]? = some j → j.id ≠ i.id := by
  obtain ⟨hn, rfl⟩ := List.getElem?_eq_some_iff.1 h
  rw [place, List.findIdx_eq hn]
  constructor
  · rintro ⟨-, hfront⟩ k j hk hj
    obtain ⟨hlt, rfl⟩ := List.getElem?_eq_some_iff.1 hj
    simpa using hfront k hk
  · intro hfront
    refine ⟨by simp, fun k hk => ?_⟩
    simpa using hfront k _ hk (List.getElem?_eq_getElem (Nat.lt_trans hk hn))

theorem place_lt_iff {id : String} {c : Catalog} : c.place id < c.items.length ↔ id ∈ c.items.map (·.id) := by
  simp [place, List.findIdx_lt_length]

/-- An identity can be marked exactly when an item has it. -/
theorem mark?_isSome (id : String) (c : Catalog) : (c.mark? id).isSome = decide (id ∈ c.items.map (·.id)) := by
  rw [Bool.eq_iff_iff, decide_eq_true_iff, Option.isSome_iff_ne_none, ne_eq, mark?_eq_none_iff]
  simp

theorem place_flagAt (n : Nat) (id : String) (c : Catalog) : (c.flagAt n).place id = c.place id := by
  have hids : (c.flagAt n).items.map (·.id) = c.items.map (·.id) := by
    refine List.ext_getElem (by simp [items_flagAt]) fun m _ _ => ?_
    simp only [items_flagAt, List.getElem_map, List.getElem_modify]
    split <;> rfl
  rw [place_eq, place_eq, hids]

/-- A catalog with the positions of its identities. -/
@[ext]
structure Indexed where
  catalog : Catalog
  positions : Std.HashMap String Nat
  /-- An identity has the position of the first item that has it. -/
  leads : ∀ (id : String) (n : Nat), positions[id]? = some n ↔ n < catalog.items.length ∧ catalog.place id = n

/-- A catalog as it is loaded: the positions of its identities are found. -/
def index (c : Catalog) : Indexed where
  catalog := c
  positions := firstPositions (c.items.map (·.id))
  leads id n := by
    rw [getElem?_firstPositions, List.findIdx?_map, List.findIdx?_eq_some_iff_findIdx_eq]
    rfl

namespace Indexed

/-- Marks an identity by its position, and says whether there was one. The positions are left as they are. -/
def mark (id : String) (x : Indexed) : Indexed × Bool :=
  match x.positions[id]? with
  | none => (x, false)
  | some n => (⟨x.catalog.flagAt n, x.positions, fun id m => by
      rw [place_flagAt, items_flagAt, List.length_modify, x.leads]⟩, true)

/-- Marks identities one after another, with the answer to each. -/
def markAll : List String → Indexed → Indexed × List Bool
  | [], x => (x, [])
  | id :: ids, x =>
    let (y, found) := x.mark id
    let (z, founds) := y.markAll ids
    (z, found :: founds)

/-- A mark by positions comes to what a search comes to. -/
theorem mark_eq (id : String) (x : Indexed) : (x.mark id).1.catalog = x.catalog.mark id
    ∧ (x.mark id).1.positions = x.positions ∧ (x.mark id).2 = (x.catalog.mark? id).isSome := by
  rw [mark]
  split
  · next hnone =>
    -- no position, so no item
    have hsearch : x.catalog.mark? id = none := by
      rw [← Option.not_isSome_iff_eq_none, mark?_isSome, decide_eq_true_iff, ← place_lt_iff]
      intro hlt
      rw [(x.leads id _).2 ⟨hlt, rfl⟩] at hnone
      cases hnone
    refine ⟨?_, rfl, ?_⟩
    · rw [Catalog.mark, hsearch, Option.getD_none]
    · rw [hsearch, Option.isSome_none]
  · next n hn =>
    obtain ⟨hlt, rfl⟩ := (x.leads id n).1 hn
    refine ⟨(mark_eq_flagAt id x.catalog).symm, rfl, ?_⟩
    rw [mark?_isSome, decide_eq_true (place_lt_iff.1 hlt)]

/-- Marks by positions come to what searches come to. Each is answered by whether the catalog has the identity. -/
theorem markAll_eq (ids : List String) (x : Indexed) : (x.markAll ids).1.catalog = x.catalog.marks ids
    ∧ (x.markAll ids).1.positions = x.positions
    ∧ (x.markAll ids).2 = ids.map fun id => decide (id ∈ x.catalog.items.map (·.id)) := by
  induction ids generalizing x with
  | nil => exact ⟨rfl, rfl, rfl⟩
  | cons id ids ih =>
    obtain ⟨hcatalog, hpositions, hfound⟩ := x.mark_eq id
    obtain ⟨ihcatalog, ihpositions, ihfounds⟩ := ih (x.mark id).1
    refine ⟨?_, ihpositions.trans hpositions, ?_⟩
    · show ((x.mark id).1.markAll ids).1.catalog = (x.catalog.mark id).marks ids
      rw [ihcatalog, hcatalog]
    · show (x.mark id).2 :: ((x.mark id).1.markAll ids).2 = _
      rw [hcatalog, (mark_changes id x.catalog).ids_eq] at ihfounds
      rw [ihfounds, hfound, mark?_isSome, List.map_cons]

end Indexed

/-! ## Only the set of identities matters -/

/-- To mark twice changes nothing more. -/
theorem mark_mark (id : String) (c : Catalog) : (c.mark id).mark id = c.mark id := by
  rw [mark_eq_flagAt id (c.mark id), place_mark, mark_eq_flagAt id c]
  cases c with
  | table t => simp only [flagAt, List.modify_modify_eq, Function.comp_def]
  | source s => simp only [flagAt, List.modify_modify_eq, Function.comp_def]

theorem marks_cons_of_mem {id : String} {ids : List String} (h : id ∈ ids) (c : Catalog) :
    c.marks (id :: ids) = c.marks ids := by
  have hfront : ids.Perm (id :: ids.erase id) := List.perm_cons_erase h
  calc c.marks (id :: ids)
      = c.marks (id :: id :: ids.erase id) := marks_perm (hfront.cons id) c
    _ = ((c.mark id).mark id).marks (ids.erase id) := rfl
    _ = (c.mark id).marks (ids.erase id) := by rw [mark_mark]
    _ = c.marks ids := (marks_perm hfront c).symm

theorem marks_dedup (ids : List String) (c : Catalog) : c.marks ids.dedup = c.marks ids := by
  induction ids generalizing c with
  | nil => rfl
  | cons id ids ih =>
    by_cases h : id ∈ ids
    · rw [List.dedup_cons_of_mem h, ih, marks_cons_of_mem h]
    · rw [List.dedup_cons_of_notMem h]
      exact ih (c.mark id)

/-- Marks come to the same in every order, and with every repetition. -/
theorem marks_congr {ids ids' : List String} (h : ∀ id, id ∈ ids ↔ id ∈ ids') (c : Catalog) :
    c.marks ids = c.marks ids' := by
  have hperm : ids.dedup.Perm ids'.dedup :=
    (List.perm_ext_iff_of_nodup ids.nodup_dedup ids'.nodup_dedup).2 fun id => by simp [h id]
  rw [← marks_dedup ids, ← marks_dedup ids', marks_perm hperm]

/-! ## What changes -/

/-- A table after some identities have been marked: the same but for items that have become described, each of them the
first one of its identity. -/
structure FlaggedTable (ids : List String) (t t' : Table) : Prop where
  name : t'.name = t.name
  length : t'.items.length = t.items.length
  item : ∀ (n : Nat) (i i' : Item), t.items[n]? = some i → t'.items[n]? = some i' →
    i' = { i with described := i'.described }
      ∧ (i'.described = true
        ↔ i.described = true ∨ i.id ∈ ids ∧ ∀ (k : Nat) (j : Item), k < n → t.items[k]? = some j → j.id ≠ i.id)

/-- A catalog after some identities have been marked: a table, or a source in its directory. -/
inductive Flagged (ids : List String) : Catalog → Catalog → Prop
  | table {t t' : Table} (h : FlaggedTable ids t t') : Flagged ids (.table t) (.table t')
  | source {dir : String} {m m' : Manifest} (h : Manifest.Flagged ids m m') :
      Flagged ids (.source ⟨dir, m⟩) (.source ⟨dir, m'⟩)

theorem name_marks (ids : List String) (c : Catalog) : (c.marks ids).name = c.name := by
  induction ids generalizing c with
  | nil => rfl
  | cons id ids ih =>
    refine (ih (c.mark id)).trans ?_
    rw [mark_eq_flagAt]
    cases c <;> rfl

theorem marks_flagged (ids : List String) (c : Catalog) : Flagged ids c (c.marks ids) := by
  cases c with
  | source s =>
    obtain ⟨m, hm, hflagged⟩ := Manifest.flagged_marks s ids
    rw [hm]
    exact .source hflagged
  | table t =>
    obtain ⟨t', ht'⟩ := exists_table_marks ids t
    have hname := name_marks ids (.table t)
    have hlength := (marks_change ids (.table t)).1
    have hitem := getElem?_marks ids (.table t)
    rw [ht'] at hname hlength hitem ⊢
    refine .table ⟨hname, hlength, fun n i i' hi hi' => ?_⟩
    have hi : (Catalog.table t).items[n]? = some i := hi
    have hi' : (Catalog.table t').items[n]? = some i' := hi'
    have hfirst : (Catalog.table t).place i.id = n
        ↔ ∀ (k : Nat) (j : Item), k < n → t.items[k]? = some j → j.id ≠ i.id := place_eq_iff hi
    have hsame : i' = if i.id ∈ ids ∧ (Catalog.table t).place i.id = n then { i with described := true } else i := by
      rw [← Option.some.injEq, ← hi', hitem, hi, Option.map_some]
    rw [← hfirst, hsame]
    split
    · next h => exact ⟨rfl, by simpa using .inr h⟩
    · next h => exact ⟨rfl, fun hd => .inl hd, fun hor => hor.resolve_right h⟩

/-! ## What is due, and what is counted -/

/-- The items that are to be described now, each with its place. -/
def due (force : Bool) (c : Catalog) : List (Item × Nat) :=
  c.items.zipIdx.filter fun p => p.1.isPending force

/-- The items that become described when some identities are marked, each with its place. -/
def newlyMarked (ids : List String) (c : Catalog) : List (Item × Nat) :=
  c.items.zipIdx.filter fun p => !p.1.described && decide (p.1.id ∈ ids ∧ c.place p.1.id = p.2)

theorem mem_newlyMarked {ids : List String} {c : Catalog} {p : Item × Nat} : p ∈ c.newlyMarked ids
    ↔ p ∈ c.items.zipIdx ∧ p.1.described = false ∧ p.1.id ∈ ids ∧ c.place p.1.id = p.2 := by
  simp [newlyMarked]

theorem map_due (force : Bool) (c : Catalog) : (c.due force).map (·.1) = c.pending force := by
  rw [pending, ← List.zipIdx_map_fst 0 c.items, List.filter_map]
  rfl

/-- An item at its place after some marks. -/
def marking (ids : List String) (c : Catalog) (p : Item × Nat) : Item × Nat :=
  (if p.1.id ∈ ids ∧ c.place p.1.id = p.2 then { p.1 with described := true } else p.1, p.2)

theorem zipIdx_marks (ids : List String) (c : Catalog) :
    (c.marks ids).items.zipIdx = c.items.zipIdx.map (c.marking ids) := by
  refine List.ext_getElem? fun n => ?_
  rw [List.getElem?_map, List.getElem?_zipIdx, List.getElem?_zipIdx, getElem?_marks]
  cases c.items[n]? <;> simp [marking]

/-- What is due when everything is described again stays due. -/
theorem due_true_marks (ids : List String) (c : Catalog) :
    ((c.marks ids).due true).map (Prod.map Item.unflagged id) = (c.due true).map (Prod.map Item.unflagged id) := by
  have hdue : ∀ d : Catalog, (d.due true).map (Prod.map Item.unflagged id)
      = (d.items.zipIdx.map (Prod.map Item.unflagged id)).filter fun p => p.1.located := by
    intro d
    rw [List.filter_map]
    exact congrArg _ (List.filter_congr fun p _ => by simp [Item.isPending, Item.unflagged])
  rw [hdue, hdue, zipIdx_marks, List.map_map]
  congr 1
  refine List.map_congr_left fun p _ => ?_
  obtain ⟨i, n⟩ := p
  by_cases h : i.id ∈ ids ∧ c.place i.id = n <;> simp [h, marking, Item.unflagged]

/-- What is due otherwise stays so until it is marked. -/
theorem due_false_marks (ids : List String) (c : Catalog) :
    (c.marks ids).due false = (c.due false).filter fun p => decide (p ∉ c.newlyMarked ids) := by
  have hkeep : ∀ p ∈ c.items.zipIdx,
      (c.marking ids p).1.isPending false = (decide (p ∉ c.newlyMarked ids) && p.1.isPending false) := by
    intro p hp
    by_cases h : p.1.id ∈ ids ∧ c.place p.1.id = p.2
    · cases hd : p.1.described <;> simp [h, hd, hp, marking, mem_newlyMarked, Item.isPending]
    · simp [h, marking, mem_newlyMarked]
  -- an item that is due afterwards has not been touched
  have hsame : ∀ p : Item × Nat, (c.marking ids p).1.isPending false = true → c.marking ids p = p := by
    intro p hp
    by_cases h : p.1.id ∈ ids ∧ c.place p.1.id = p.2
    · simp [h, marking, Item.isPending] at hp
    · simp [h, marking]
  calc (c.marks ids).due false
      = (c.items.zipIdx.filter fun p => (c.marking ids p).1.isPending false).map (c.marking ids) := by
        rw [due, zipIdx_marks, List.filter_map]
        rfl
    _ = c.items.zipIdx.filter fun p => (c.marking ids p).1.isPending false := by
        rw [List.map_congr_left fun p hp => hsame p (List.mem_filter.1 hp).2, List.map_id']
    _ = (c.due false).filter fun p => decide (p ∉ c.newlyMarked ids) := by
        rw [due, List.filter_filter, List.filter_congr hkeep]

/-- The items that are described become more by those that are newly marked. -/
theorem countP_described_marks (ids : List String) (c : Catalog) :
    (c.marks ids).items.countP (·.described) = c.items.countP (·.described) + (c.newlyMarked ids).length := by
  have hpairs : ∀ d : Catalog, d.items.countP (·.described) = d.items.zipIdx.countP fun p => p.1.described := by
    intro d
    rw [← List.zipIdx_map_fst 0 d.items, List.countP_map]
    simp [Function.comp_def]
  rw [hpairs, hpairs, zipIdx_marks, List.countP_map, newlyMarked, ← List.countP_eq_length_filter,
    List.countP_eq_countP_filter_add _ _ fun p => p.1.described, List.countP_filter, List.countP_filter]
  congr 1
  · refine List.countP_congr fun p _ => ?_
    by_cases h : p.1.id ∈ ids ∧ c.place p.1.id = p.2 <;> simp [h, marking]
  · refine List.countP_congr fun p _ => ?_
    by_cases h : p.1.id ∈ ids ∧ c.place p.1.id = p.2 <;> simp [h, marking]

end Catalog

namespace SourceDir

/-- What is counted of a source, from its items. -/
theorem described_stats (s : SourceDir) : s.stats.described = s.items.countP (·.described) := by
  rw [stats, items, List.countP_map]
  rfl

/-- Of what is counted in a source only those described become more. -/
theorem stats_marks (s : SourceDir) (ids : List String) : ∃ m, (Catalog.source s).marks ids = .source ⟨s.dir, m⟩
    ∧ stats ⟨s.dir, m⟩ = { s.stats with
        described := s.stats.described + ((Catalog.source s).newlyMarked ids).length } := by
  obtain ⟨m, hm, -, -, hitems⟩ := Manifest.unflagged_marks s ids
  have hdescribed : (stats ⟨s.dir, m⟩).described
      = s.stats.described + ((Catalog.source s).newlyMarked ids).length := by
    have hcount := Catalog.countP_described_marks ids (.source s)
    rw [hm] at hcount
    rw [described_stats, described_stats]
    exact hcount
  have htotal : m.items.length = s.manifest.items.length := by simpa using congrArg List.length hitems
  have hdownloaded : m.items.countP (·.downloaded) = s.manifest.items.countP (·.downloaded) := by
    have hflag : ∀ es : List ManifestEntry,
        es.countP (·.downloaded) = (es.map Manifest.unflagged).countP (·.downloaded) := by
      intro es
      rw [List.countP_map]
      rfl
    rw [hflag, hitems, ← hflag]
  refine ⟨m, hm, ?_⟩
  rw [← hdescribed]
  simp only [stats, htotal, hdownloaded]

end SourceDir

namespace Catalog

open SourceDir (stats)

/-- What marks by positions come to. Each mark is answered by whether the catalog has its identity, as a search answers,
and the positions and the catalog are those that searches leave. Items are described that were, and the first ones of
the identities that were marked; nothing else has changed. So marks of the same identities, in whatever order and however
often, leave the same. What is due when everything is described again stays due, what is due otherwise stays so
but for what is newly marked, and of what is counted in a source those described become more by just that. -/
theorem marks_by_identity (c : Catalog) (ids : List String) : ∃ x : Indexed,
    c.index.markAll ids = (x, ids.map fun id => decide (id ∈ c.items.map (·.id)))
    ∧ (∀ front id behind, ids = front ++ id :: behind →
      ((c.marks front).mark? id).isSome = decide (id ∈ c.items.map (·.id)))
    ∧ x.positions = c.index.positions ∧ x.catalog = c.marks ids
    ∧ Flagged ids c x.catalog
    ∧ (∀ ids', (∀ id, id ∈ ids' ↔ id ∈ ids) → (c.index.markAll ids').1 = x)
    ∧ (∀ force, c.pending force = (c.due force).map (·.1) ∧ x.catalog.pending force = (x.catalog.due force).map (·.1))
    ∧ (x.catalog.due true).map (Prod.map Item.unflagged id) = (c.due true).map (Prod.map Item.unflagged id)
    ∧ x.catalog.due false = (c.due false).filter (fun p => decide (p ∉ c.newlyMarked ids))
    ∧ ∀ s, c = .source s → ∃ m, x.catalog = .source ⟨s.dir, m⟩
      ∧ stats ⟨s.dir, m⟩ = { stats s with described := (stats s).described + (c.newlyMarked ids).length } := by
  obtain ⟨hcatalog, hpositions, hfounds⟩ := c.index.markAll_eq ids
  refine ⟨(c.index.markAll ids).1, Prod.ext rfl hfounds, fun front id _ _ => ?_, hpositions, hcatalog, ?_,
    fun ids' h => ?_, fun force => ⟨(map_due force c).symm, (map_due force _).symm⟩, ?_, ?_, ?_⟩
  · rw [mark?_isSome, ids_marks]
  · rw [hcatalog]
    exact marks_flagged ids c
  · obtain ⟨hcatalog', hpositions', -⟩ := c.index.markAll_eq ids'
    refine Indexed.ext ?_ (hpositions'.trans hpositions.symm)
    rw [hcatalog', hcatalog, marks_congr h]
  · rw [hcatalog]
    exact due_true_marks ids c
  · rw [hcatalog]
    exact due_false_marks ids c
  · rintro s rfl
    rw [hcatalog]
    exact s.stats_marks ids

end Catalog

end Captioning
