/-!
# The first entry of an identity

Identities may be repeated in a catalog; what is said about an identity concerns its first entry.

Main statement: `changeFirst?_eq_none_iff` (there is no change exactly when no entry has the property).
-/

namespace Captioning.Catalog

/-- Changes the first element with a property; none if there is no such element. -/
def changeFirst? {α : Type} (p : α → Bool) (f : α → α) : List α → Option (List α)
  | [] => none
  | x :: xs => if p x then some (f x :: xs) else (changeFirst? p f xs).map (x :: ·)

theorem changeFirst?_eq_none_iff {α : Type} {p : α → Bool} {f : α → α} {xs : List α} :
    changeFirst? p f xs = none ↔ ∀ x ∈ xs, p x = false := by
  induction xs with
  | nil => simp [changeFirst?]
  | cons x xs ih =>
    by_cases h : p x
    · simp [changeFirst?, h]
    · simp [changeFirst?, h, ih]

theorem length_of_changeFirst? {α : Type} {p : α → Bool} {f : α → α} {xs ys : List α}
    (h : changeFirst? p f xs = some ys) : ys.length = xs.length := by
  induction xs generalizing ys with
  | nil => simp [changeFirst?] at h
  | cons x xs ih =>
    by_cases hx : p x
    · simp only [changeFirst?, hx, if_true, Option.some.injEq] at h
      simp [← h]
    · simp only [changeFirst?, hx] at h
      obtain ⟨zs, hz, rfl⟩ := Option.map_eq_some_iff.1 h
      simp [ih hz]

end Captioning.Catalog
