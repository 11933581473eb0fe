import Captioning.Proofs.JsonSteps
/-!
# Reading a longer text

What was read to its end is read alike whatever follows, and by any budget that suffices (`readDraft_append`,
`readDraft_fuel`). A text that breaks off has no value (`readValue_of_broken`), and gets none from an object
or the end of a line behind it, except that a string may end inside of the object (`readDraft_broken`). So
the end of a line is neither here nor there (`readWhole_append_lineEnd`).
-/

namespace Captioning.Json

/-! ## The three readers -/

section
variable {fuel : Nat} {t rest : List Char} {d : Draft}

theorem itemAt_of_some (h : readDraft fuel t = (d, some rest)) :
    itemAt fuel t = (d :: (readItems fuel false rest).1, (readItems fuel false rest).2) := by
  simp [itemAt, h]

theorem memberAt_of_some (k : Except Fault (List Char)) (h : readDraft fuel t = (d, some rest)) :
    memberAt fuel k (.ok t)
      = ((k, d) :: (readMembers fuel false rest).1, (readMembers fuel false rest).2) := by
  simp [memberAt, h]

end

/-- Every reader leaves less than it was given. -/
theorem length_of_read (fuel : Nat) :
    (∀ s, ∀ r ∈ (readDraft fuel s).2, r.length < s.length)
      ∧ (∀ first s, ∀ r ∈ (readItems fuel first s).2.2, r.length < s.length)
      ∧ (∀ first s, ∀ r ∈ (readMembers fuel first s).2.2, r.length < s.length) := by
  induction fuel with
  | zero => simp [readDraft, readItems, readMembers]
  | succ fuel ih =>
    obtain ⟨ihd, ihi, ihm⟩ := ih
    refine ⟨fun s r hr => ?_, fun first s r hr => ?_, fun first s r hr => ?_⟩
    · rcases hs : skipSpace s with _ | ⟨c, q⟩
      · simp [readDraft_blank _ hs] at hr
      have hq := length_of_skipSpace hs
      by_cases ha : c = '['
      · subst ha
        rw [readDraft_array _ hs] at hr
        exact Nat.lt_trans (ihi true q r hr) hq
      by_cases ho : c = '{'
      · subst ho
        rw [readDraft_object _ hs] at hr
        exact Nat.lt_trans (ihm true q r hr) hq
      · rw [readDraft_leaf _ hs ha ho] at hr
        exact Nat.lt_of_le_of_lt (leafDraft_length (d := (leafDraft c q).1) (Prod.ext rfl hr)) hq
    · rw [readItems_succ] at hr
      have hw := itemEntry_within first s
      rcases he : itemEntry first s with ⟨c, x⟩ | t <;> rw [he] at hr hw
      · obtain rfl : x = some r := hr
        exact hw.2
      · rcases hd : readDraft fuel t with ⟨d, _ | rest⟩
        · simp [Entry.read, itemAt, hd] at hr
        · simp only [Entry.read, itemAt_of_some hd] at hr
          have := ihd t rest (by rw [hd]; rfl)
          have := ihi false rest r hr
          have := hw.1
          omega
    · rw [readMembers_succ] at hr
      have hw := memberEntry_within first s
      rcases he : memberEntry first s with ⟨c, x⟩ | t <;> rw [he] at hr hw
      · obtain rfl : x = some r := hr
        exact hw.2
      · rcases hn : (memberName t).2 with d | v
        · simp [Entry.read, hn, memberAt] at hr
        rcases hd : readDraft fuel v with ⟨d, _ | rest⟩
        · simp [Entry.read, hn, memberAt, hd] at hr
        · simp only [Entry.read, hn, memberAt_of_some _ hd] at hr
          have := ihd v rest (by rw [hd]; rfl)
          have := ihm false rest r hr
          have := memberName_length hn
          have := hw.1
          omega

theorem readDraft_length {fuel : Nat} {s r : List Char} {d : Draft} (h : readDraft fuel s = (d, some r)) :
    r.length < s.length :=
  (length_of_read fuel).1 s r (by rw [h]; rfl)

/-- Any two budgets that allow for the length of the text read the same. -/
theorem read_of_budget (fuel fuel' : Nat) :
    (∀ s, 2 * s.length + 2 ≤ fuel → 2 * s.length + 2 ≤ fuel' → readDraft fuel s = readDraft fuel' s)
      ∧ (∀ first s, 2 * s.length + 3 ≤ fuel → 2 * s.length + 3 ≤ fuel' →
        readItems fuel first s = readItems fuel' first s)
      ∧ (∀ first s, 2 * s.length + 3 ≤ fuel → 2 * s.length + 3 ≤ fuel' →
        readMembers fuel first s = readMembers fuel' first s) := by
  induction fuel generalizing fuel' with
  | zero => refine ⟨fun s h _ => ?_, fun _ s h _ => ?_, fun _ s h _ => ?_⟩ <;> omega
  | succ fuel ih =>
    cases fuel' with
    | zero => refine ⟨fun s _ h => ?_, fun _ s _ h => ?_, fun _ s _ h => ?_⟩ <;> omega
    | succ fuel' =>
      obtain ⟨ihd, ihi, ihm⟩ := ih fuel'
      refine ⟨fun s h h' => ?_, fun first s h h' => ?_, fun first s h h' => ?_⟩
      · rcases hs : skipSpace s with _ | ⟨c, q⟩
        · simp [readDraft, hs]
        have hq := length_of_skipSpace hs
        by_cases ha : c = '['
        · subst ha
          rw [readDraft_array _ hs, readDraft_array _ hs, ihi true q (by omega) (by omega)]
        by_cases ho : c = '{'
        · subst ho
          rw [readDraft_object _ hs, readDraft_object _ hs, ihm true q (by omega) (by omega)]
        · rw [readDraft_leaf _ hs ha ho, readDraft_leaf _ hs ha ho]
      · rw [readItems_succ, readItems_succ]
        have hw := itemEntry_within first s
        rcases he : itemEntry first s with ⟨c, x⟩ | t <;> rw [he] at hw
        · rfl
        · have ht := hw.1
          have he := ihd t (by omega) (by omega)
          simp only [Entry.read, itemAt, he]
          rcases hd : readDraft fuel' t with ⟨d, _ | rest⟩
          · rfl
          · have := readDraft_length hd
            simp only [ihi false rest (by omega) (by omega)]
      · rw [readMembers_succ, readMembers_succ]
        have hw := memberEntry_within first s
        rcases he : memberEntry first s with ⟨c, x⟩ | t <;> rw [he] at hw
        · rfl
        · have ht := hw.1
          rcases hn : (memberName t).2 with d | v
          · simp only [Entry.read, hn, memberAt]
          have hv := memberName_length hn
          have he := ihd v (by omega) (by omega)
          simp only [Entry.read, hn, memberAt, he]
          rcases hd : readDraft fuel' v with ⟨d, _ | rest⟩
          · rfl
          · have := readDraft_length hd
            simp only [ihm false rest (by omega) (by omega)]

/-- The budget of a whole text is as good as any larger one. -/
theorem readDraft_fuel {fuel : Nat} {s : List Char} (h : 2 * s.length + 2 ≤ fuel) :
    readDraft fuel s = Draft.ofText s :=
  (read_of_budget fuel (2 * s.length + 2)).1 s h (Nat.le_refl _)

/-- A reader that comes to an end does so by one more step of budget as well. -/
theorem read_succ (fuel : Nat) :
    (∀ s d r, readDraft fuel s = (d, some r) → readDraft (fuel + 1) s = (d, some r))
      ∧ (∀ first s ds c r, readItems fuel first s = (ds, c, some r) →
        readItems (fuel + 1) first s = (ds, c, some r))
      ∧ (∀ first s ms c r, readMembers fuel first s = (ms, c, some r) →
        readMembers (fuel + 1) first s = (ms, c, some r)) := by
  induction fuel with
  | zero => simp [readDraft, readItems, readMembers]
  | succ fuel ih =>
    obtain ⟨ihd, ihi, ihm⟩ := ih
    refine ⟨fun s d r h => ?_, fun first s ds c r h => ?_, fun first s ms c r h => ?_⟩
    · rcases hs : skipSpace s with _ | ⟨c, q⟩
      · have := readDraft_blank (fuel + 1) hs
        simp [h] at this
      by_cases ha : c = '['
      · subst ha
        rw [readDraft_array _ hs] at h ⊢
        obtain ⟨rfl, hr⟩ := Prod.mk.inj h
        rw [ihi true q _ _ r (Prod.ext rfl (Prod.ext rfl hr))]
      by_cases ho : c = '{'
      · subst ho
        rw [readDraft_object _ hs] at h ⊢
        obtain ⟨rfl, hr⟩ := Prod.mk.inj h
        rw [ihm true q _ _ r (Prod.ext rfl (Prod.ext rfl hr))]
      · rw [readDraft_leaf _ hs ha ho] at h ⊢
        exact h
    · rw [readItems_succ] at h ⊢
      rcases he : itemEntry first s with ⟨c', x⟩ | t <;> rw [he] at h
      · exact h
      · rcases hd : readDraft fuel t with ⟨d, _ | rest⟩
        · simp [Entry.read, itemAt, hd] at h
        · rw [Entry.read, itemAt_of_some hd] at h
          obtain ⟨rfl, hr⟩ := Prod.mk.inj h
          rw [Entry.read, itemAt_of_some (ihd t d rest hd), ihi false rest _ c r (Prod.ext rfl hr)]
    · rw [readMembers_succ] at h ⊢
      rcases he : memberEntry first s with ⟨c', x⟩ | t <;> rw [he] at h
      · exact h
      · rcases hn : (memberName t).2 with d | v
        · simp [Entry.read, hn, memberAt] at h
        rcases hd : readDraft fuel v with ⟨d, _ | rest⟩
        · simp [Entry.read, hn, memberAt, hd] at h
        · simp only [Entry.read, hn, memberAt_of_some _ hd] at h
          obtain ⟨rfl, hr⟩ := Prod.mk.inj h
          simp only [Entry.read, hn]
          rw [memberAt_of_some _ (ihd v d rest hd), ihm false rest _ c r (Prod.ext rfl hr)]

/-- What comes to an end by some budget is what a whole text is read as. -/
theorem ofText_of_readDraft {fuel : Nat} {s r : List Char} {d : Draft} (h : readDraft fuel s = (d, some r)) :
    Draft.ofText s = (d, some r) := by
  have more : ∀ k, readDraft (fuel + k) s = (d, some r) := by
    intro k
    induction k with
    | zero => exact h
    | succ k ih => exact (read_succ (fuel + k)).1 s d r ih
  rw [← @readDraft_fuel (fuel + (2 * s.length + 2)) s (by omega)]
  exact more _

/-! ## What was read to its end -/

/-- Every reader that comes to an end does so alike whatever follows; a value that ends with the text might
be a numeral, with which `u` must not go on. -/
theorem append_of_read (fuel : Nat) (u : List Char) :
    (∀ s d r, readDraft fuel s = (d, some r) → Apart r u → readDraft fuel (s ++ u) = (d, some (r ++ u)))
      ∧ (∀ first s ds c r, readItems fuel first s = (ds, c, some r) →
        readItems fuel first (s ++ u) = (ds, c, some (r ++ u)))
      ∧ (∀ first s ms c r, readMembers fuel first s = (ms, c, some r) →
        readMembers fuel first (s ++ u) = (ms, c, some (r ++ u))) := by
  induction fuel with
  | zero => simp [readDraft, readItems, readMembers]
  | succ fuel ih =>
    obtain ⟨ihd, ihi, ihm⟩ := ih
    -- a list that goes on behind a value has at least its closing bracket there
    have apart : ∀ {x rest : List Char}, x.length < rest.length → Apart rest u := by
      intro x rest h
      exact .inl (by rintro rfl; simp at h)
    refine ⟨fun s d r h hu => ?_, fun first s ds c r h => ?_, fun first s ms c r h => ?_⟩
    · rcases hs : skipSpace s with _ | ⟨c, q⟩
      · have := readDraft_blank (fuel + 1) hs
        simp [h] at this
      have hsu := skipSpace_append hs u
      by_cases ha : c = '['
      · subst ha
        rw [readDraft_array _ hs] at h
        obtain ⟨rfl, hr⟩ := Prod.mk.inj h
        rw [readDraft_array _ hsu, ihi true q _ _ r (Prod.ext rfl (Prod.ext rfl hr))]
      by_cases ho : c = '{'
      · subst ho
        rw [readDraft_object _ hs] at h
        obtain ⟨rfl, hr⟩ := Prod.mk.inj h
        rw [readDraft_object _ hsu, ihm true q _ _ r (Prod.ext rfl (Prod.ext rfl hr))]
      · rw [readDraft_leaf _ hs ha ho] at h
        rw [readDraft_leaf _ hsu ha ho]
        exact leafDraft_append h hu
    · rw [readItems_succ] at h ⊢
      have hx := itemEntry_append first s u
      rcases he : itemEntry first s with ⟨c', x⟩ | t <;> rw [he] at h hx
      · obtain ⟨rfl, rfl, rfl⟩ : [] = ds ∧ c' = c ∧ x = some r := by simpa [Entry.read] using h
        have hx : itemEntry first (s ++ u) = .done c' (some (r ++ u)) := hx
        rw [hx]
        rfl
      · have hx : itemEntry first (s ++ u) = .part (t ++ u) := hx
        rw [hx]
        rcases hd : readDraft fuel t with ⟨d, _ | rest⟩
        · simp [Entry.read, itemAt, hd] at h
        · simp only [Entry.read, itemAt_of_some hd] at h
          obtain ⟨rfl, hr⟩ := Prod.mk.inj h
          have hi : readItems fuel false rest = ((readItems fuel false rest).1, c, some r) := Prod.ext rfl hr
          have hl := (length_of_read fuel).2.1 false rest r (by rw [hi]; rfl)
          rw [Entry.read, itemAt_of_some (ihd t d rest hd (apart hl)), ihi false rest _ c r hi]
    · rw [readMembers_succ] at h ⊢
      have hx := memberEntry_append first s u
      rcases he : memberEntry first s with ⟨c', x⟩ | t <;> rw [he] at h hx
      · obtain ⟨rfl, rfl, rfl⟩ : [] = ms ∧ c' = c ∧ x = some r := by simpa [Entry.read] using h
        have hx : memberEntry first (s ++ u) = .done c' (some (r ++ u)) := hx
        rw [hx]
        rfl
      · have hx : memberEntry first (s ++ u) = .part (t ++ u) := hx
        rw [hx]
        rcases hn : (memberName t).2 with d | v
        · simp [Entry.read, hn, memberAt] at h
        rcases hd : readDraft fuel v with ⟨d, _ | rest⟩
        · simp [Entry.read, hn, memberAt, hd] at h
        · simp only [Entry.read, hn, memberAt_of_some _ hd] at h
          obtain ⟨rfl, hr⟩ := Prod.mk.inj h
          have hi : readMembers fuel false rest = ((readMembers fuel false rest).1, c, some r) :=
            Prod.ext rfl hr
          have hl := (length_of_read fuel).2.2 false rest r (by rw [hi]; rfl)
          simp only [Entry.read, memberName_append hn u]
          rw [memberAt_of_some _ (ihd v d rest hd (apart hl)), ihm false rest _ c r hi]

/-- A value that was read is read alike if `u` follows, unless it is a numeral and `u` goes on with it. -/
theorem readDraft_append {fuel : Nat} {s r u : List Char} {d : Draft} (h : readDraft fuel s = (d, some r))
    (hu : Apart r u) : readDraft fuel (s ++ u) = (d, some (r ++ u)) :=
  (append_of_read fuel u).1 s d r h hu

/-- An object that was read is read alike whatever follows. -/
theorem readDraft_object_append {fuel : Nat} {s r : List Char} {d : Draft}
    (h : readDraft fuel ('{' :: s) = (d, some r)) (u : List Char) :
    readDraft fuel ('{' :: s ++ u) = (d, some (r ++ u)) := by
  cases fuel with
  | zero => simp [readDraft] at h
  | succ fuel =>
    have hs : skipSpace ('{' :: s) = '{' :: s := by simp [skipSpace, isSpace]
    rw [readDraft_object _ hs] at h
    obtain ⟨rfl, hr⟩ := Prod.mk.inj h
    rw [readDraft_object _ (skipSpace_append hs u),
      (append_of_read fuel u).2.2 true s _ _ r (Prod.ext rfl (Prod.ext rfl hr))]

/-! ## What breaks off -/

/-- What may follow a text that breaks off: its first character starts the end of a line or an object, it
goes on with no list, and where a string or a value is read from it, `P` holds of what is left. -/
structure Follows (P : List Char → Prop) (u : List Char) : Prop where
  opens : Opens u
  stray : Stray u
  literal : ∀ r ∈ (scanLiteral none u).rest.toOption, P r
  value : ∀ fuel, ∀ r ∈ (readDraft fuel u).2, P r
  stray_of : ∀ r, P r → Stray r

theorem readItems_stray (fuel : Nat) {r : List Char} (h : Stray r) : (readItems fuel false r).2.2 = none := by
  cases fuel with
  | zero => rfl
  | succ fuel =>
    rw [readItems_succ, itemEntry]
    rcases hr : skipSpace r with _ | ⟨c, q⟩
    · rfl
    · have := h c (by simp [hr])
      simp [this, Entry.read]

theorem readMembers_stray (fuel : Nat) {r : List Char} (h : Stray r) :
    (readMembers fuel false r).2.2 = none := by
  cases fuel with
  | zero => rfl
  | succ fuel =>
    rw [readMembers_succ, memberEntry]
    rcases hr : skipSpace r with _ | ⟨c, q⟩
    · rfl
    · have := h c (by simp [hr])
      simp [this, Entry.read]

theorem itemAt_stray (fuel : Nat) {t : List Char} (h : ∀ r ∈ (readDraft fuel t).2, Stray r) :
    (itemAt fuel t).2.2 = none := by
  rcases hd : readDraft fuel t with ⟨d, _ | rest⟩
  · simp [itemAt, hd]
  · rw [itemAt_of_some hd]
    exact readItems_stray fuel (h rest (by rw [hd]; rfl))

theorem memberAt_stray (fuel : Nat) (k : Except Fault (List Char)) {t : List Char}
    (h : ∀ r ∈ (readDraft fuel t).2, Stray r) : (memberAt fuel k (.ok t)).2.2 = none := by
  rcases hd : readDraft fuel t with ⟨d, _ | rest⟩
  · simp [memberAt, hd]
  · rw [memberAt_of_some _ hd]
    exact readMembers_stray fuel (h rest (by rw [hd]; rfl))

theorem readDraft_skipSpace (fuel : Nat) (u : List Char) : readDraft fuel (skipSpace u) = readDraft fuel u := by
  cases fuel with
  | zero => rfl
  | succ fuel => rw [readDraft, readDraft, skipSpace_skipSpace]

section
variable {P : List Char → Prop} {u : List Char} (hu : Follows P u)
include hu

/-- No reader that breaks off comes to an end because `u` follows, except that a string or a blank text
takes from `u` what it lacks. -/
theorem broken_of_read (fuel : Nat) :
    (∀ s, (readDraft fuel s).2 = none → ∀ r ∈ (readDraft fuel (s ++ u)).2, P r)
      ∧ (∀ first s, (readItems fuel first s).2.2 = none → (readItems fuel first (s ++ u)).2.2 = none)
      ∧ (∀ first s, (readMembers fuel first s).2.2 = none → (readMembers fuel first (s ++ u)).2.2 = none) := by
  induction fuel with
  | zero => simp [readDraft, readItems, readMembers]
  | succ fuel ih =>
    obtain ⟨ihd, ihi, ihm⟩ := ih
    refine ⟨fun s h => ?_, fun first s h => ?_, fun first s h => ?_⟩
    · rcases hs : skipSpace s with _ | ⟨c, q⟩
      · rw [← readDraft_skipSpace, skipSpace_append_of_nil hs, readDraft_skipSpace]
        exact hu.value (fuel + 1)
      have hsu := skipSpace_append hs u
      by_cases ha : c = '['
      · subst ha
        rw [readDraft_array _ hs] at h
        rw [readDraft_array _ hsu, ihi true q h]
        simp
      by_cases ho : c = '{'
      · subst ho
        rw [readDraft_object _ hs] at h
        rw [readDraft_object _ hsu, ihm true q h]
        simp
      · rw [readDraft_leaf _ hs ha ho] at h
        rw [readDraft_leaf _ hsu ha ho]
        exact leafDraft_broken h hu.opens hu.literal
    · rw [readItems_succ] at h ⊢
      have hx := itemEntry_append first s u
      rcases he : itemEntry first s with ⟨c, x⟩ | t <;> rw [he] at h hx
      · obtain rfl : x = none := h
        rcases itemEntry_broken he hu.stray with ⟨c', hc⟩ | hp
        · rw [hc]; rfl
        · rw [hp, Entry.read]
          refine itemAt_stray fuel fun r hr => hu.stray_of r (hu.value fuel r ?_)
          rwa [readDraft_skipSpace] at hr
      · have hx : itemEntry first (s ++ u) = .part (t ++ u) := hx
        rw [hx, Entry.read]
        rcases hd : readDraft fuel t with ⟨d, _ | rest⟩
        · exact itemAt_stray fuel fun r hr => hu.stray_of r (ihd t (by rw [hd]) r hr)
        · rw [Entry.read, itemAt_of_some hd] at h
          rw [itemAt_of_some (readDraft_append hd (.inr hu.opens.undigit))]
          exact ihi false rest h
    · rw [readMembers_succ] at h ⊢
      have hx := memberEntry_append first s u
      rcases he : memberEntry first s with ⟨c, x⟩ | t <;> rw [he] at h hx
      · obtain rfl : x = none := h
        obtain ⟨c', hc⟩ := memberEntry_broken he hu.stray
        rw [hc]; rfl
      · have hx : memberEntry first (s ++ u) = .part (t ++ u) := hx
        rw [hx, Entry.read]
        rcases hn : (memberName t).2 with d | v
        · obtain ⟨d', hd⟩ := memberName_broken hn hu.opens hu.stray fun r hr => hu.stray_of r (hu.literal r hr)
          rw [hd]; rfl
        rw [memberName_append hn u]
        rcases hd : readDraft fuel v with ⟨d, _ | rest⟩
        · exact memberAt_stray fuel _ fun r hr => hu.stray_of r (ihd v (by rw [hd]) r hr)
        · simp only [Entry.read, hn, memberAt_of_some _ hd] at h
          rw [memberAt_of_some _ (readDraft_append hd (.inr hu.opens.undigit))]
          exact ihm false rest h

theorem readDraft_broken {fuel : Nat} {s : List Char} (h : (readDraft fuel s).2 = none) :
    ∀ r ∈ (readDraft fuel (s ++ u)).2, P r :=
  (broken_of_read hu fuel).1 s h

/-- An object that breaks off stays broken. -/
theorem readDraft_object_broken {fuel : Nat} {s : List Char} (h : (readDraft fuel ('{' :: s)).2 = none) :
    (readDraft fuel ('{' :: s ++ u)).2 = none := by
  cases fuel with
  | zero => rfl
  | succ fuel =>
    have hs : skipSpace ('{' :: s) = '{' :: s := by simp [skipSpace, isSpace]
    rw [readDraft_object _ hs] at h
    rw [readDraft_object _ (skipSpace_append hs u)]
    exact (broken_of_read hu fuel).2.2 true s h

end

/-! ## Whole texts -/

theorem closing_of_read (fuel : Nat) :
    (∀ first s, (readItems fuel first s).2.2 = none → (readItems fuel first s).2.1 ≠ .closed)
      ∧ (∀ first s, (readMembers fuel first s).2.2 = none → (readMembers fuel first s).2.1 ≠ .closed) := by
  induction fuel with
  | zero => simp [readItems, readMembers]
  | succ fuel ih =>
    obtain ⟨ihi, ihm⟩ := ih
    refine ⟨fun first s h => ?_, fun first s h => ?_⟩
    · rw [readItems_succ] at h ⊢
      have hw := itemEntry_within first s
      rcases he : itemEntry first s with ⟨c, x⟩ | t <;> rw [he] at h hw
      · obtain rfl : x = none := h
        exact hw
      · rcases hd : readDraft fuel t with ⟨d, _ | rest⟩
        · simp [Entry.read, itemAt, hd]
        · rw [Entry.read, itemAt_of_some hd] at h ⊢
          exact ihi false rest h
    · rw [readMembers_succ] at h ⊢
      have hw := memberEntry_within first s
      rcases he : memberEntry first s with ⟨c, x⟩ | t <;> rw [he] at h hw
      · obtain rfl : x = none := h
        exact hw
      · rcases hn : (memberName t).2 with d | v
        · simp [Entry.read, hn, memberAt]
        rcases hd : readDraft fuel v with ⟨d, _ | rest⟩
        · simp [Entry.read, hn, memberAt, hd]
        · simp only [Entry.read, hn, memberAt_of_some _ hd] at h ⊢
          exact ihm false rest h

theorem wantingItems_of_ne {c : Closing} (h : c ≠ .closed) : ∃ f, c.wantingItems = .error f := by
  cases c with
  | closed => exact absurd rfl h
  | _ => exact ⟨_, rfl⟩

theorem wantingMembers_of_ne {c : Closing} (h : c ≠ .closed) : ∃ f, c.wantingMembers = .error f := by
  cases c with
  | closed => exact absurd rfl h
  | _ => exact ⟨_, rfl⟩

/-- A text that breaks off has no value. -/
theorem readValue_of_broken {fuel : Nat} {s : List Char} (h : (readDraft fuel s).2 = none) (depth : Nat) :
    ∃ f, readValue depth (readDraft fuel s).1 = .error f := by
  cases fuel with
  | zero => exact ⟨.valueWanted, rfl⟩
  | succ fuel =>
    rcases hs : skipSpace s with _ | ⟨c, q⟩
    · exact ⟨.endInValue, by simp [readDraft, hs, readValue]⟩
    by_cases ha : c = '['
    · subst ha
      rw [readDraft_array _ hs] at h ⊢
      obtain ⟨f, hf⟩ := wantingItems_of_ne ((closing_of_read fuel).1 true q h)
      cases hb : openBracket depth with
      | error g => exact ⟨g, by simp [readValue, hb, bind, Except.bind]⟩
      | ok n =>
        cases hv : readValues n (readItems fuel true q).1 with
        | error g => exact ⟨g, by simp [readValue, hb, hv, bind, Except.bind]⟩
        | ok vs => exact ⟨f, by simp [readValue, hb, hv, hf, bind, Except.bind]⟩
    by_cases ho : c = '{'
    · subst ho
      rw [readDraft_object _ hs] at h ⊢
      obtain ⟨f, hf⟩ := wantingMembers_of_ne ((closing_of_read fuel).2 true q h)
      cases hb : openBracket depth with
      | error g => exact ⟨g, by simp [readValue, hb, bind, Except.bind]⟩
      | ok n =>
        cases hv : readPairs n (readMembers fuel true q).1 [] with
        | error g => exact ⟨g, by simp [readValue, hb, hv, bind, Except.bind]⟩
        | ok vs => exact ⟨f, by simp [readValue, hb, hv, hf, bind, Except.bind]⟩
    · rw [readDraft_leaf _ hs ha ho] at h ⊢
      obtain ⟨f, g, e⟩ := leafDraft_value h
      exact ⟨f, by rw [e]; rfl⟩

theorem readWhole_of_broken {fuel : Nat} {s : List Char} (h : (readDraft fuel s).2 = none) :
    ∃ f, readWhole readValue (readDraft fuel s) = .error f := by
  obtain ⟨f, hf⟩ := readValue_of_broken h maxDepth
  exact ⟨f, by simp [readWhole, hf, bind, Except.bind]⟩

/-- The end of a line follows everything, and nothing is read from it. -/
theorem follows_lineEnd {c : Char} (hc : c = '\n' ∨ c = '\r') : Follows (fun _ => False) [c] where
  opens := opens_cons.2 (by rcases hc with rfl | rfl <;> simp)
  stray := by rcases hc with rfl | rfl <;> simp [Stray, skipSpace, isSpace]
  literal := by rcases hc with rfl | rfl <;> simp [scanLiteral, Literal.settle, Except.toOption]
  value fuel := by rcases hc with rfl | rfl <;> simp [readDraft_blank fuel, skipSpace, isSpace]
  stray_of := by simp

/-- Nothing at all follows everything. -/
theorem follows_nil : Follows (fun _ => False) [] where
  opens := by simp [Opens]
  stray := stray_nil
  literal := by simp [scanLiteral, Except.toOption]
  value fuel := by simp [readDraft_blank fuel (show skipSpace [] = [] from rfl)]
  stray_of := by simp

theorem Follows.toStray {P : List Char → Prop} {u : List Char} (h : Follows P u) : Follows Stray u where
  opens := h.opens
  stray := h.stray
  literal r hr := h.stray_of r (h.literal r hr)
  value fuel r hr := h.stray_of r (h.value fuel r hr)
  stray_of _ hr := hr

theorem isEmpty_skipSpace_concat {c : Char} (hc : isSpace c = true) (r : List Char) :
    (skipSpace (r ++ [c])).isEmpty = (skipSpace r).isEmpty := by
  rcases hr : skipSpace r with _ | ⟨d, q⟩
  · rw [skipSpace_append_of_nil hr]
    simp [skipSpace, hc]
  · rw [skipSpace_append hr]; rfl

/-- A text has the same value with the end of a line behind it. -/
theorem readWhole_append_lineEnd {c : Char} (hc : c = '\n' ∨ c = '\r') (s : List Char) (v : Value) :
    readWhole readValue (Draft.ofText (s ++ [c])) = .ok v ↔ readWhole readValue (Draft.ofText s) = .ok v := by
  have hf : 2 * s.length + 2 ≤ 2 * (s ++ [c]).length + 2 := by
    rw [List.length_append]
    omega
  have hfollows := follows_lineEnd hc
  have hspace : isSpace c = true := by rcases hc with rfl | rfl <;> rfl
  rw [← readDraft_fuel hf, Draft.ofText]
  generalize 2 * (s ++ [c]).length + 2 = fuel
  rcases hd : readDraft fuel s with ⟨d, _ | r⟩
  · have hb : (readDraft fuel s).2 = none := by rw [hd]
    have hb' : (readDraft fuel (s ++ [c])).2 = none :=
      Option.eq_none_iff_forall_not_mem.2 (readDraft_broken hfollows hb)
    obtain ⟨f, he⟩ := readWhole_of_broken hb
    obtain ⟨f', he'⟩ := readWhole_of_broken hb'
    rw [hd] at he
    simp [he, he']
  · rw [readDraft_append hd (.inr hfollows.opens.undigit)]
    simp only [readWhole, isEmpty_skipSpace_concat hspace]

end Captioning.Json
