import Captioning.Proofs.MarkedEntries
import Captioning.Proofs.Sessions
/-!
# The entry that was worked on

A run works on the first entry of an identity that is due (`getElem?_duePlace_of_mem_queue`), and when a record of it
has been stored, the first entry of the identity is flagged, due or not. These are the same entry exactly when the
first entry is due (`duePlace_eq_iff`). When they are not, what was worked on stays due (`stored_entry`).
-/

namespace Captioning

open RunState (History)
open RunEvent (launchedIn storedIn)

/-! ## The first entry that is due -/

/-- A queue takes the first of the items that share an identity. -/
theorem Queue.find?_distinct {seen : SkipSet} {due : List Item} {i : Item} (h : i ∈ distinct seen due) :
    due.find? (fun j => j.id == i.id) = some i := by
  induction due generalizing seen with
  | nil => cases h
  | cons j due ih =>
    unfold distinct at h
    rw [List.find?_cons]
    split at h
    · next hseen =>
      -- what has been seen does not come again
      have hi : seen.contains i.id = false := (mem_distinct.1 (List.mem_map_of_mem h)).2
      have hne : j.id ≠ i.id := by
        intro he
        rw [he, hi] at hseen
        cases hseen
      rw [beq_false_of_ne hne]
      exact ih h
    · rcases List.mem_cons.1 h with rfl | h
      · simp
      · have hi := (mem_distinct.1 (List.mem_map_of_mem h)).2
        have hne : j.id ≠ i.id := by
          intro he
          simp [he] at hi
        rw [beq_false_of_ne hne]
        exact ih h

namespace Catalog

/-- The first place at which an item of an identity is due. -/
def duePlace (force : Bool) (id : String) (c : Catalog) : Nat :=
  c.items.findIdx fun i => i.isPending force && i.id == id

theorem find?_pending (force : Bool) (id : String) (c : Catalog) :
    (c.pending force).find? (fun i => i.id == id) = c.items[c.duePlace force id]? := by
  rw [pending, List.find?_filter, duePlace, ← List.find?_eq_getElem?_findIdx]
  congr 1
  funext i
  rw [Bool.decide_and, Bool.decide_eq_true, Bool.decide_eq_true]

/-- What is due at all is due first where its identity comes first, or behind that. -/
theorem duePlace_spec {force : Bool} {id : String} {c : Catalog} {i : Item}
    (h : c.items[c.duePlace force id]? = some i) :
    i.id = id ∧ i.isPending force = true ∧ c.place id ≤ c.duePlace force id := by
  have hi := h
  rw [duePlace, ← List.find?_eq_getElem?_findIdx] at hi
  have hp := List.find?_some hi
  simp only [Bool.and_eq_true, beq_iff_eq] at hp
  refine ⟨hp.2, hp.1, ?_⟩
  rw [← hp.2]
  exact place_le (hp.2 ▸ h)

/-- The first entry that is due is the first entry exactly if that one is due. -/
theorem duePlace_eq_iff {force : Bool} {id : String} {c : Catalog} {i : Item}
    (h : c.items[c.duePlace force id]? = some i) :
    c.duePlace force id = c.place id ↔ ∃ j, c.items[c.place id]? = some j ∧ j.isPending force = true := by
  obtain ⟨hid, hdue, hle⟩ := duePlace_spec h
  constructor
  · intro he
    exact ⟨i, he ▸ h, hdue⟩
  · rintro ⟨j, hj, hd⟩
    obtain ⟨hlt, rfl⟩ := List.getElem?_eq_some_iff.1 hj
    refine Nat.le_antisymm (Nat.le_of_not_lt fun hn => ?_) hle
    have hno := List.not_of_lt_findIdx hn
    have hsame : c.items[c.place id].id = id := id_of_place hj
    simp [hd, hsame] at hno

end Catalog

/-! ## What a run works on -/

namespace RunPlan

variable {p : RunPlan} {c : Catalog} {skip : SkipSet} {stopped : Bool} {es : List RunEvent} {s s' : RunState}
  {e : RunEvent}

theorem getElem?_duePlace_of_mem_queue {i : Item} (h : i ∈ p.queue c skip) :
    c.items[c.duePlace p.force i.id]? = some i := by
  rw [← Catalog.find?_pending]
  exact Queue.find?_distinct ((Queue.schedule_sublist _ _ _).subset h)

theorem accounted (h : History (p.start c skip stopped) es s) : RunState.Accounted (p.queue c skip) c es s :=
  h.accounted (RunState.accounted_start _ _ _ stopped c)

/-- A record is stored for an item that was launched. -/
theorem exists_launched {id : String} {record : Record} (h : History (p.start c skip stopped) es s)
    (hs : RunState.Step s e s') (he : e.stored? = some (id, record)) : ∃ i ∈ launchedIn es, i.id = id := by
  cases hs with
  | launch hl => cases he
  | stop => cases he
  | @settle i r hi hr fault =>
    obtain ⟨r', hr', hid, -⟩ := RunEvent.report_of_stored? he
    obtain rfl : r = r' := Option.some.inj hr'
    exact ⟨i, (accounted h).running i hi, hr.symm.trans hid⟩

/-- A record that is stored in a run belongs to the first entry of its identity that is due, and the first entry of
the identity is flagged for it, due or not. If these are not the same, and what was worked on was not described before,
it stays due. -/
theorem stored_entry {id : String} {record : Record} (h : History (p.start c skip stopped) es s)
    (hs : RunState.Step s e s') (he : e.stored? = some (id, record)) :
    ∃ i ∈ launchedIn es, i.id = id ∧ c.items[c.duePlace p.force id]? = some i
      ∧ s'.account.catalog = s.account.catalog.flagAt (c.place id)
      ∧ (c.duePlace p.force id = c.place id
        ↔ ∃ j, c.items[c.place id]? = some j ∧ j.isPending p.force = true)
      ∧ ∃ j, s'.account.catalog.items[c.duePlace p.force id]? = some j
        ∧ (j.isPending false = true ↔ c.duePlace p.force id ≠ c.place id ∧ i.described = false) := by
  obtain ⟨i, hi, rfl⟩ := exists_launched h hs he
  have hacc := accounted h
  have hacc' := hacc.step hs
  have hqueue : i ∈ p.queue c skip := by
    rw [← hacc.order]
    exact List.mem_append_left _ hi
  have hplace := getElem?_duePlace_of_mem_queue hqueue
  have hstored : storedIn (es ++ [e]) = storedIn es ++ [(i.id, record)] := by
    rw [RunEvent.storedIn_append, storedIn, storedIn, List.filterMap_cons_some he, List.filterMap_nil]
  refine ⟨i, hi, rfl, hplace, ?_, Catalog.duePlace_eq_iff hplace, ?_⟩
  · rw [hacc'.catalog, hacc.catalog, hstored, List.map_append, Catalog.marks_append]
    show (c.marks _).mark i.id = _
    rw [Catalog.mark_eq_flagAt, Catalog.place_marks]
  · have hlocated : i.located = true := ((Item.isPending_iff _ i).1 (Catalog.duePlace_spec hplace).2.1).1
    have hmem : i.id ∈ (storedIn (es ++ [e])).map Prod.fst := by simp [hstored]
    rw [hacc'.catalog, Catalog.getElem?_marks, hplace, Option.map_some]
    refine ⟨_, rfl, ?_⟩
    by_cases hsame : c.place i.id = c.duePlace p.force i.id
    · rw [if_pos ⟨hmem, hsame⟩]
      simp [hsame, Item.isPending]
    · rw [if_neg fun h => hsame h.2]
      simp [Ne.symm hsame, Item.isPending, hlocated]

/-! ## An entry that stays due -/

namespace RepeatedEntry

/-- A source that lists an identity twice, first without its media. -/
def source : Catalog :=
  .source ⟨"clips", ⟨"clips", [⟨"a", "https://example.com/a.gif", none, none, none, none, false, false, []⟩,
    ⟨"a", "https://example.com/a.gif", none, none, some "a.gif", none, true, false, []⟩], []⟩⟩

def plan : RunPlan := ⟨.default "", none, none, false⟩

/-- The second entry, which is due. -/
def item : Item := (source.pending false).headD (.new "a" (.remote "a") .imageSequence)

def record : Record :=
  .ofItem item ⟨"A cat falls.", "unknown", .one "funny", .one "falling", "fail", ["cat"]⟩ ⟨⟨2024, 1, 1⟩, 0, 0⟩

def success : Report := ⟨"a", .success record, .zero⟩

/-- The run when the entry is worked on. -/
def running : RunState :=
  { plan.start source .empty false with held := none, running := [item] }

theorem history : History (plan.start source .empty false) [.launched item] running :=
  History.start.step (.launch rfl)

end RepeatedEntry

open RepeatedEntry in
/-- The first entry is flagged, and the second one is still due. -/
theorem stored_entry_repeated : (running.finish none success).account.catalog = running.account.catalog.flagAt 0
    ∧ ∃ j, (running.finish none success).account.catalog.items[1]? = some j ∧ j.isPending false = true := by
  have hstep : RunState.Step running (.settled success none) (running.finish none success) :=
    .settle (List.mem_singleton_self item) rfl none
  obtain ⟨i, hi, -, -, hflag, -, j, hj, hdue⟩ := stored_entry history hstep rfl
  obtain rfl : i = item := List.mem_singleton.1 hi
  -- the second entry is not the first one, and it was not described
  exact ⟨hflag, j, hj, hdue.2 (by decide)⟩

end RunPlan

end Captioning
