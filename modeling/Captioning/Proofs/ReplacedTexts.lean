import Captioning.Text.Replace
import Mathlib.Data.List.Basic
/-!
# What a replacement leaves

A replacement goes over a text from its front: where the pattern stands it puts the replacement, and any other character
it keeps (`Replaces`, `replaces_iff`). A text that never meets the replacement (`NeverMeets`) occurs afterwards only
where it has occurred before (`Replaces.occurs_of_occurs`), and the pattern itself, if it is such a text, does not occur at
all (`Replaces.not_occurs`). At a character that is not in the pattern a text may be cut, and each side replaced by itself
(`replaceAll_append_cons`).
-/

namespace Captioning.Text

/-- What a replacement makes of a text. -/
inductive Replaces (pattern replacement : List Char) : List Char → List Char → Prop
  | finished : Replaces pattern replacement [] []
  | found {s t : List Char} (h : Replaces pattern replacement s t) :
    Replaces pattern replacement (pattern ++ s) (replacement ++ t)
  | kept {c : Char} {s t : List Char} (hc : ¬ pattern <+: c :: s) (h : Replaces pattern replacement s t) :
    Replaces pattern replacement (c :: s) (c :: t)

section

variable {p r q s t s' t' : List Char} {c : Char}

/-! ## Occurrences -/

theorem occursIn_eq_true_iff : occursIn p s = true ↔ p <:+: s := by
  rw [occursIn_iff]
  exact exists_congr fun _ => exists_congr fun _ => eq_comm

theorem replaceAll_of_not_occurs (h : ¬ p <:+: s) : replaceAll p r s = s :=
  replaceAll_of_not_occursIn (Bool.eq_false_iff.2 fun hocc => h (occursIn_eq_true_iff.1 hocc))

/-! ## One replacement -/

theorem replaceFrom_append (u s : List Char) : replaceFrom p r u.length (u ++ s) = replaceFrom p r 0 s := by
  induction u with
  | nil => rfl
  | cons c u ih => exact ih

theorem replaceFrom_pattern_append (hp : p ≠ []) (s : List Char) :
    replaceFrom p r 0 (p ++ s) = r ++ replaceFrom p r 0 s := by
  obtain ⟨c, p, rfl⟩ := List.exists_cons_of_ne_nil hp
  have hfront : (c :: p).isPrefixOf (c :: (p ++ s)) = true :=
    List.isPrefixOf_iff_prefix.2 (List.prefix_append (c :: p) s)
  rw [List.cons_append, replaceFrom, if_pos hfront, List.length_cons, Nat.add_sub_cancel, replaceFrom_append]

theorem replaceFrom_of_not_begins (h : ¬ p <+: c :: s) : replaceFrom p r 0 (c :: s) = c :: replaceFrom p r 0 s := by
  rw [replaceFrom, if_neg fun hc => h <| List.isPrefixOf_iff_prefix.1 hc]

theorem replaces_replaceFrom (hp : p ≠ []) (s : List Char) : Replaces p r s (replaceFrom p r 0 s) := by
  -- an occurrence takes several characters at once, so the induction is on the length
  induction hn : s.length using Nat.strongRecOn generalizing s with
  | _ n ih =>
    cases s with
    | nil => exact .finished
    | cons c s =>
      by_cases hc : p <+: c :: s
      · obtain ⟨u, hu⟩ := hc
        have hlt : u.length < n := by
          have := List.length_pos_of_ne_nil hp
          rw [← hn, ← hu, List.length_append]
          omega
        rw [← hu, replaceFrom_pattern_append hp]
        exact .found (ih u.length hlt u rfl)
      · rw [replaceFrom_of_not_begins hc]
        exact .kept hc (ih s.length (by rw [← hn]; exact Nat.lt_succ_self _) s rfl)

theorem Replaces.eq_replaceFrom (hp : p ≠ []) (h : Replaces p r s t) : t = replaceFrom p r 0 s := by
  induction h with
  | finished => rfl
  | found _ ih => rw [replaceFrom_pattern_append hp, ih]
  | kept hc _ ih => rw [replaceFrom_of_not_begins hc, ih]

/-- A replacement of a text that is not empty goes over the text in just one way. -/
theorem replaces_iff (hp : p ≠ []) : Replaces p r s t ↔ t = replaceAll p r s := by
  have hne : ¬ p.isEmpty = true := by simpa using hp
  rw [replaceAll, if_neg hne]
  refine ⟨fun h => h.eq_replaceFrom hp, ?_⟩
  rintro rfl
  exact replaces_replaceFrom hp s

theorem Replaces.length_eq (h : Replaces p r s t) (hl : r.length = p.length) : t.length = s.length := by
  induction h with
  | finished => rfl
  | found _ ih => rw [List.length_append, List.length_append, hl, ih]
  | kept _ _ ih => rw [List.length_cons, List.length_cons, ih]

theorem length_replaceAll (hp : p ≠ []) (hl : r.length = p.length) (s : List Char) :
    (replaceAll p r s).length = s.length :=
  ((replaces_iff hp).2 rfl).length_eq hl

/-- A text of the same length is replaced as a whole, if at all. -/
theorem replaceAll_of_length_eq (hp : p ≠ []) (hl : s.length = p.length) :
    replaceAll p r s = if s = p then r else s := by
  split
  · rename_i h
    have hfound : Replaces p r (p ++ []) (r ++ []) := .found .finished
    rw [List.append_nil, List.append_nil] at hfound
    rw [h]
    exact ((replaces_iff hp).1 hfound).symm
  · rename_i h
    exact replaceAll_of_not_occurs fun hocc => h (hocc.eq_of_length hl.symm).symm

/-! ## What occurs afterwards -/

/-- A text `q` begins with a character that is not in `r`, and `r` with one that is not in `q`. So no occurrence of `q`
begins inside of `r`, or in front of it and reaches into it. -/
structure NeverMeets (q r : List Char) : Prop where
  head : ∃ c, q.head? = some c ∧ c ∉ r
  front : ∃ c, r.head? = some c ∧ c ∉ q

theorem NeverMeets.ne_nil (h : NeverMeets q r) : q ≠ [] := by
  rintro rfl
  obtain ⟨c, hc, -⟩ := h.head
  cases hc

/-- An occurrence that cannot begin in front begins behind. -/
theorem occurs_of_occurs_append (hq : ∃ c, q.head? = some c ∧ c ∉ r) (h : q <:+: r ++ t) : q <:+: t := by
  obtain ⟨x, hx, hr⟩ := hq
  obtain ⟨q, rfl⟩ := List.head?_eq_some_iff.1 hx
  induction r with
  | nil => exact h
  | cons c r ih =>
    rw [List.mem_cons, not_or] at hr
    rcases List.infix_cons_iff.1 h with h | h
    · exact absurd (List.cons_prefix_cons.1 h).1 hr.1
    · exact ih hr.2 h

/-- Where a text begins that the replacement does not reach into, it has begun before. -/
theorem Replaces.begins_of_begins (h : Replaces p r s t) (hr : ∃ c, r.head? = some c ∧ c ∉ q) (hq : q <+: t) :
    q <+: s := by
  obtain ⟨y, hy, hyq⟩ := hr
  obtain ⟨r, rfl⟩ := List.head?_eq_some_iff.1 hy
  induction h generalizing q with
  | finished => exact hq
  | found _ _ =>
    cases q with
    | nil => exact List.nil_prefix
    | cons x q =>
      obtain ⟨rfl, -⟩ := List.cons_prefix_cons.1 hq
      exact absurd List.mem_cons_self hyq
  | kept _ _ ih =>
    cases q with
    | nil => exact List.nil_prefix
    | cons x q =>
      obtain ⟨rfl, hmore⟩ := List.cons_prefix_cons.1 hq
      exact List.cons_prefix_cons.2 ⟨rfl, ih hmore fun hm => hyq (List.mem_cons_of_mem _ hm)⟩

/-- What occurs afterwards, and never meets the replacement, has occurred before. -/
theorem Replaces.occurs_of_occurs (h : Replaces p r s t) (hm : NeverMeets q r) (hq : q <:+: t) : q <:+: s := by
  induction h with
  | finished => exact hq
  | found _ ih => exact List.infix_append_of_infix_right (ih (occurs_of_occurs_append hm.head hq))
  | kept hc h ih =>
    rcases List.infix_cons_iff.1 hq with hq | hq
    · exact ((Replaces.kept hc h).begins_of_begins hm.front hq).isInfix
    · exact List.infix_cons (ih hq)

/-- The pattern does not occur afterwards, if it never meets the replacement. -/
theorem Replaces.not_occurs (h : Replaces p r s t) (hm : NeverMeets p r) : ¬ p <:+: t := by
  intro hp
  induction h with
  | finished => exact hm.ne_nil (List.eq_nil_of_infix_nil hp)
  | found _ ih => exact ih (occurs_of_occurs_append hm.head hp)
  | kept hc h ih =>
    rcases List.infix_cons_iff.1 hp with hp | hp
    · exact hc ((Replaces.kept hc h).begins_of_begins hm.front hp)
    · exact ih hp

/-! ## Cutting a text -/

/-- What a text begins with ends in front of a character that is not in it. -/
theorem begins_of_begins_append_cons (hc : c ∉ p) (h : p <+: s ++ c :: t) : p <+: s := by
  rcases List.prefix_or_prefix_of_prefix h (List.prefix_append s (c :: t)) with hp | ⟨u, rfl⟩
  · exact hp
  · cases u with
    | nil => simp
    | cons x u =>
      rw [List.prefix_append_right_inj] at h
      obtain ⟨rfl, -⟩ := List.cons_prefix_cons.1 h
      exact absurd (List.mem_append_right _ List.mem_cons_self) hc

theorem Replaces.append_cons (hc : c ∉ p) (hp : p ≠ []) (h : Replaces p r s s') (ht : Replaces p r t t') :
    Replaces p r (s ++ c :: t) (s' ++ c :: t') := by
  induction h with
  | finished =>
    refine .kept (fun h => ?_) ht
    exact hp (List.prefix_nil.1 (begins_of_begins_append_cons (s := []) hc h))
  | found _ ih =>
    rw [List.append_assoc, List.append_assoc]
    exact .found ih
  | kept hd _ ih => exact .kept (fun h => hd (begins_of_begins_append_cons hc h)) ih

theorem replaceAll_append_cons (hc : c ∉ p) (hp : p ≠ []) (s t : List Char) :
    replaceAll p r (s ++ c :: t) = replaceAll p r s ++ c :: replaceAll p r t :=
  ((replaces_iff hp).1 (((replaces_iff hp).2 rfl).append_cons hc hp ((replaces_iff hp).2 rfl))).symm

end

end Captioning.Text
