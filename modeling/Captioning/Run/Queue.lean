import Captioning.Item
import Captioning.RecordLog.SkipSet
/-!
# What a run works on

Of the items that are due, a run works on those without a record, each identity once, up to a limit.

Main statements: `mem_distinct` (which identities are worked on), `nodup_distinct` (each of them once).
-/

namespace Captioning.Queue

/-- The items whose identity is not in `seen`, without those that repeat an identity. -/
def distinct (seen : SkipSet) : List Item → List Item
  | [] => []
  | i :: more => if seen.contains i.id then distinct seen more else i :: distinct (seen.insert i.id) more

/-- The first items; a limit of zero is none. -/
def limited (limit : Option Nat) (items : List Item) : List Item :=
  match limit with
  | some (n + 1) => items.take (n + 1)
  | _ => items

/-- The items to work on, and how many of the items that are due were left out before the limit. -/
def schedule (due : List Item) (skip : SkipSet) (limit : Option Nat) : List Item × Nat :=
  let queue := distinct skip due
  (limited limit queue, due.length - queue.length)

/-! ## Small facts -/

theorem distinct_sublist (seen : SkipSet) (items : List Item) : (distinct seen items).Sublist items := by
  induction items generalizing seen with
  | nil => exact .slnil
  | cons i items ih =>
    unfold distinct
    split
    · exact (ih seen).cons i
    · exact (ih _).cons_cons i

theorem mem_distinct {seen : SkipSet} {items : List Item} {x : String} :
    x ∈ (distinct seen items).map (·.id) ↔ x ∈ items.map (·.id) ∧ seen.contains x = false := by
  induction items generalizing seen with
  | nil => simp [distinct]
  | cons i items ih =>
    unfold distinct
    by_cases h : seen.contains i.id
    · rw [if_pos h, ih, List.map_cons, List.mem_cons]
      constructor
      · exact fun ⟨a, b⟩ => ⟨.inr a, b⟩
      · rintro ⟨rfl | a, b⟩
        · simp [h] at b
        · exact ⟨a, b⟩
    · rw [if_neg h, List.map_cons, List.mem_cons, ih, List.map_cons, List.mem_cons, SkipSet.contains_insert]
      by_cases hx : x = i.id
      · simp [hx, h]
      · simp [hx]

theorem nodup_distinct (seen : SkipSet) (items : List Item) : ((distinct seen items).map (·.id)).Nodup := by
  induction items generalizing seen with
  | nil => simp [distinct]
  | cons i items ih =>
    unfold distinct
    split
    · exact ih seen
    · rw [List.map_cons, List.nodup_cons, mem_distinct]
      exact ⟨by simp, ih _⟩

end Captioning.Queue
