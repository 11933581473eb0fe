import Captioning.Proofs.RunAccounts
/-!
# What is scheduled

The items that are scheduled are those at the first places of the identities that are not to be skipped, in the order of
these places (`exists_places`). A limit takes the first of them and does not change how many are reported as left out
(`schedule_firsts`).
-/

namespace Captioning

/-- What is in a set already changes nothing when it is inserted. -/
theorem SkipSet.insert_of_contains {s : SkipSet} {id : String} (h : s.contains id = true) : s.insert id = s := by
  have hid : id ∈ s.ids := by simpa [contains] using h
  exact dif_pos hid

namespace Queue

/-! ## First places -/

/-- The place of an item that is not to be skipped and whose identity no item in front of it has. -/
def FirstAt (due : List Item) (skip : SkipSet) (n : Nat) : Prop :=
  ∃ i, due[n]? = some i ∧ skip.contains i.id = false ∧ ∀ j ∈ due.take n, j.id ≠ i.id

theorem not_firstAt_nil (skip : SkipSet) (n : Nat) : ¬ FirstAt [] skip n := by
  rintro ⟨i, hi, -⟩
  cases hi

theorem firstAt_zero (i : Item) (due : List Item) (skip : SkipSet) :
    FirstAt (i :: due) skip 0 ↔ skip.contains i.id = false := by
  constructor
  · rintro ⟨j, hj, hskip, -⟩
    obtain rfl : i = j := Option.some.inj hj
    exact hskip
  · intro h
    exact ⟨i, rfl, h, by simp⟩

/-- Behind an item the places are those that are first when its identity is to be skipped, too. -/
theorem firstAt_succ (i : Item) (due : List Item) (skip : SkipSet) (n : Nat) :
    FirstAt (i :: due) skip (n + 1) ↔ FirstAt due (skip.insert i.id) n := by
  refine exists_congr fun j => and_congr_right fun _ => ?_
  rw [List.take_succ_cons, List.forall_mem_cons, SkipSet.contains_insert, Bool.or_eq_false_iff, beq_eq_false_iff_ne,
    ← and_assoc, and_comm (a := skip.contains j.id = false), ne_comm]

/-- What is left of some items without those that are to be skipped or repeat an identity: the items at the first
places, in ascending order. -/
theorem exists_places (skip : SkipSet) (due : List Item) : ∃ places : List Nat, places.Pairwise (· < ·)
    ∧ (∀ n, n ∈ places ↔ FirstAt due skip n) ∧ (distinct skip due).map some = places.map (due[·]?) := by
  induction due generalizing skip with
  | nil => exact ⟨[], .nil, fun n => by simp [not_firstAt_nil], rfl⟩
  | cons i due ih =>
    obtain ⟨places, hsorted, hmem, hitems⟩ := ih (skip.insert i.id)
    have hsucc : (places.map (· + 1)).Pairwise (· < ·) := hsorted.map _ fun _ _ h => Nat.succ_lt_succ h
    have hbehind : (places.map (· + 1)).map ((i :: due)[·]?) = places.map (due[·]?) := by
      rw [List.map_map]
      rfl
    have hmem' : ∀ n, n + 1 ∈ places.map (· + 1) ↔ FirstAt (i :: due) skip (n + 1) := by
      intro n
      rw [firstAt_succ, ← hmem]
      simp
    rw [distinct]
    by_cases hi : skip.contains i.id = true
    · rw [if_pos hi, ← SkipSet.insert_of_contains hi, hitems]
      refine ⟨places.map (· + 1), hsucc, fun n => ?_, hbehind.symm⟩
      rw [SkipSet.insert_of_contains hi]
      cases n with
      | zero => simp [firstAt_zero, hi]
      | succ n => exact hmem' n
    · rw [if_neg hi, List.map_cons, hitems]
      refine ⟨0 :: places.map (· + 1), List.pairwise_cons.2 ⟨?_, hsucc⟩, fun n => ?_, ?_⟩
      · intro n hn
        obtain ⟨m, -, rfl⟩ := List.mem_map.1 hn
        exact Nat.succ_pos m
      · cases n with
        | zero => simpa [firstAt_zero] using hi
        | succ n => simpa using hmem' n
      · rw [List.map_cons, hbehind]
        rfl

/-! ## Limits -/

/-- What is scheduled with a limit stands in front of what is scheduled without one. -/
theorem prefix_limited (limit : Option Nat) (items : List Item) : limited limit items <+: items := by
  unfold limited
  split
  · exact List.take_prefix _ _
  · exact List.prefix_rfl

/-- The items at the first places of the identities that are not to be skipped are scheduled, in their order; with a
limit above zero the first ones of them, up to the limit. How many items are reported as left out does not depend on
the limit: they and what is scheduled without one are all that is due. -/
theorem schedule_firsts (due : List Item) (skip : SkipSet) :
    (∃ places : List Nat, places.Pairwise (· < ·) ∧ (∀ n, n ∈ places ↔ FirstAt due skip n)
      ∧ (schedule due skip none).1.map some = places.map (due[·]?)
      ∧ ∀ limit, ∃ taken, taken <+: places ∧ (schedule due skip limit).1.map some = taken.map (due[·]?))
    ∧ (∀ id, id ∈ (schedule due skip none).1.map (·.id) ↔ id ∈ due.map (·.id) ∧ skip.contains id = false)
    ∧ schedule due skip (some 0) = schedule due skip none
    ∧ (∀ n, (schedule due skip (some (n + 1))).1 = (schedule due skip none).1.take (n + 1))
    ∧ ∀ limit, (schedule due skip limit).1.Sublist due
      ∧ ((schedule due skip limit).1.map (·.id)).Nodup
      ∧ (∀ i ∈ (schedule due skip limit).1, skip.contains i.id = false)
      ∧ (schedule due skip limit).2 + (schedule due skip none).1.length = due.length := by
  obtain ⟨places, hsorted, hmem, hitems⟩ := exists_places skip due
  refine ⟨⟨places, hsorted, hmem, hitems, fun limit => ?_⟩, fun id => mem_distinct, rfl, fun n => rfl, fun limit => ?_⟩
  · have hp : (limited limit (distinct skip due)).map some <+: places.map (due[·]?) :=
      hitems ▸ (prefix_limited limit _).map some
    obtain ⟨taken, htaken, he⟩ := List.prefix_map_iff.1 hp
    exact ⟨taken, htaken, he⟩
  · have hall : (distinct skip due).length ≤ due.length := (distinct_sublist skip due).length_le
    refine ⟨(schedule_sublist due skip limit).trans (distinct_sublist skip due), nodup_schedule due skip limit,
      fun i hi => ?_, Nat.sub_add_cancel hall⟩
    exact (mem_distinct.1 (List.mem_map_of_mem ((schedule_sublist due skip limit).subset hi))).2

end Queue

end Captioning
