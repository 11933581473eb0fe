import Captioning.Description
import Captioning.Proofs.JsonValues
/-!
# Reading back what was written

An object whose members are phrases or lists of phrases is read back as its members (`ofText_compact`,
`readValue_phrases`). No shorter front of its text is read to an end (`readDraft_front`).
-/

namespace Captioning.Json

/-! ## Phrases -/

/-- What a phrase or a list of phrases is read as. -/
def phraseDraft : OneOrMany → Draft
  | .one s => .string (.ok s.toList)
  | .many ss => .array (ss.map fun s => .string (.ok s.toList)) .closed

theorem draft_phrase (x : OneOrMany) : x.toValue.draft = phraseDraft x := by
  cases x with
  | one s => rfl
  | many ss =>
    simp only [OneOrMany.toValue, Value.draft, phraseDraft, itemDrafts_eq_map, List.map_map]
    rfl

theorem integral_phrase (x : OneOrMany) : x.toValue.Integral := by
  cases x with
  | one s => trivial
  | many ss =>
    refine integralItems_iff.2 fun v hv => ?_
    obtain ⟨s, -, rfl⟩ := List.mem_map.1 hv
    trivial

theorem fits_phrase (x : OneOrMany) {depth : Nat} (h : 1 < depth) : x.toValue.Fits depth := by
  cases x with
  | one s => trivial
  | many ss =>
    refine ⟨h, ?_⟩
    induction ss with
    | nil => trivial
    | cons s ss ih => exact ⟨trivial, ih⟩

theorem readValue_phrase (x : OneOrMany) {depth : Nat} (h : 1 < depth) :
    readValue depth (phraseDraft x) = .ok x.toValue := by
  rw [← draft_phrase]
  exact readValue_draft x.toValue depth (fits_phrase x h) (integral_phrase x)

/-! ## Objects -/

/-- The value of an object whose members are phrases or lists of phrases. -/
def phrasesValue (ps : List (String × OneOrMany)) : Value :=
  .object (ps.map fun p => (p.1, p.2.toValue))

/-- The text of members, in front of the closing brace and what follows it. -/
def membersText (ps : List (String × OneOrMany)) (r : List Char) : List Char :=
  compactMembers (ps.map fun p => (p.1, p.2.toValue)) ++ '}' :: r

theorem membersText_one (k : String) (x : OneOrMany) (r : List Char) :
    membersText [(k, x)] r
      = '"' :: (k.toList.flatMap escapeChar ++ '"' :: ':' :: (x.toValue.compact ++ '}' :: r)) := by
  simp [membersText, compactMembers, stringText]

theorem membersText_cons (k : String) (x : OneOrMany) (p : String × OneOrMany) (ps : List (String × OneOrMany))
    (r : List Char) : membersText ((k, x) :: p :: ps) r
      = '"' :: (k.toList.flatMap escapeChar ++ '"' :: ':' :: (x.toValue.compact ++ ',' ::
        membersText (p :: ps) r)) := by
  simp [membersText, compactMembers, stringText]

/-- What an object of phrases is read as. -/
def phrasesDraft (ps : List (String × OneOrMany)) : Draft :=
  .object (ps.map fun p => (.ok p.1.toList, phraseDraft p.2)) .closed

theorem compact_phrasesValue (ps : List (String × OneOrMany)) (r : List Char) :
    (phrasesValue ps).compact ++ r = '{' :: membersText ps r := by
  simp [phrasesValue, Value.compact, membersText]

theorem draft_phrases (ps : List (String × OneOrMany)) : (phrasesValue ps).draft = phrasesDraft ps := by
  simp only [phrasesValue, Value.draft, phrasesDraft, memberDrafts_eq_map, List.map_map, Function.comp_def, draft_phrase]

theorem integral_phrases (ps : List (String × OneOrMany)) : (phrasesValue ps).Integral := by
  refine integralMembers_iff.2 fun m hm => ?_
  obtain ⟨p, -, rfl⟩ := List.mem_map.1 hm
  exact integral_phrase p.2

/-- An object of phrases is read to its end. -/
theorem ofText_compact (ps : List (String × OneOrMany)) (r : List Char) :
    Draft.ofText ((phrasesValue ps).compact ++ r) = (phrasesDraft ps, some r) := by
  have ht := compact_phrasesValue ps []
  rw [List.append_nil] at ht
  have hd := Value.ofText_spell .compact (phrasesValue ps) 0 [] (integral_phrases ps) (by simp [Undigit])
  rw [spell_compact, draft_phrases, List.append_nil, ht] at hd
  rw [ht]
  exact ofText_of_readDraft (readDraft_object_append hd r)

/-- The members of an object as a reader of any value finds them: sorted, and of one name the last. -/
def sortedPhrases (ps : List (String × OneOrMany)) (found : List (String × Value)) : List (String × Value) :=
  ps.foldl (fun found p => putMember p.1 p.2.toValue found) found

theorem readPairs_phrases (ps : List (String × OneOrMany)) (found : List (String × Value)) {depth : Nat}
    (h : 1 < depth) :
    readPairs depth (ps.map fun p => (.ok p.1.toList, phraseDraft p.2)) found = .ok (sortedPhrases ps found) := by
  induction ps generalizing found with
  | nil => simp [readPairs, sortedPhrases]
  | cons p ps ih => simp [readPairs, readValue_phrase p.2 h, ih, sortedPhrases, bind, Except.bind]

theorem readValue_phrases (ps : List (String × OneOrMany)) :
    readValue maxDepth (phrasesDraft ps) = .ok (.object (sortedPhrases ps [])) := by
  have hb : openBracket maxDepth = .ok 127 := rfl
  simp [phrasesDraft, readValue, hb, readPairs_phrases ps [] (show 1 < 127 by decide), Closing.wantingMembers, bind,
    Except.bind, pure, Except.pure]

/-! ## Members by name -/

theorem member?_cons (k j : String) (v : Value) (ms : List (String × Value)) :
    member? k ((j, v) :: ms) = if j == k then some v else member? k ms := by
  unfold member?
  rw [List.find?_cons]
  by_cases h : (j == k) = true <;> simp [h]

theorem member?_putMember (k j : String) (v : Value) (ms : List (String × Value)) :
    member? k (putMember j v ms) = if j == k then some v else member? k ms := by
  induction ms with
  | nil => exact member?_cons k j v []
  | cons m ms ih =>
    obtain ⟨i, w⟩ := m
    rw [putMember]
    by_cases hi : (j == i) = true
    · obtain rfl : j = i := eq_of_beq hi
      rw [if_pos hi, member?_cons, member?_cons]
      by_cases hk : (j == k) = true <;> simp [hk]
    · rw [if_neg hi]
      by_cases hl : j < i
      · rw [if_pos hl, member?_cons]
      · rw [if_neg hl, member?_cons, member?_cons, ih]
        by_cases hk : (i == k) = true
        · have hj : (j == k) = false := by
            rw [← eq_of_beq hk]
            simpa using hi
          simp [hk, hj]
        · simp [hk]

theorem member?_sortedPhrases {k : String} {ps : List (String × OneOrMany)} (h : k ∉ ps.map Prod.fst)
    (found : List (String × Value)) : member? k (sortedPhrases ps found) = member? k found := by
  induction ps generalizing found with
  | nil => rfl
  | cons p ps ih =>
    simp only [List.map_cons, List.mem_cons, not_or] at h
    have hp : (p.1 == k) = false := by simpa using fun e => h.1 e.symm
    have := ih h.2 (putMember p.1 p.2.toValue found)
    rw [member?_putMember, hp] at this
    simpa [sortedPhrases] using this

/-! ## Fronts of an object's text -/

/-- A front of the text of an object is read to an end only if it is all of the text. -/
theorem readDraft_front {ps : List (String × OneOrMany)} {p q r : List Char} {fuel : Nat} {d : Draft}
    (h : p ++ q = (phrasesValue ps).compact) (hr : readDraft fuel p = (d, some r)) : r = [] ∧ q = [] := by
  rcases p with _ | ⟨c, s⟩
  · have := readDraft_blank fuel (show skipSpace [] = [] from rfl)
    simp [hr] at this
  · have hc := compact_phrasesValue ps []
    rw [List.append_nil, ← h] at hc
    obtain ⟨rfl, -⟩ := List.cons.inj hc
    have ht := ofText_of_readDraft (readDraft_object_append hr q)
    have hd := ofText_compact ps []
    rw [List.append_nil, ← h] at hd
    have he : r ++ q = [] := by simpa using (Prod.mk.inj (ht.symm.trans hd)).2
    exact List.append_eq_nil_iff.1 he

/-- A front of the text of an object may follow a text that breaks off, if the first name in it does not
start like a separator. -/
theorem follows_front {ps : List (String × OneOrMany)} {p q u t : List Char} {c : Char}
    (h : p ++ q = (phrasesValue ps).compact) (hp : p ≠ []) (ht : (phrasesValue ps).compact = '{' :: '"' :: c :: t)
    (hc : ∀ s, Stray (c :: s)) (hu : Follows Stray u) : Follows Stray (p ++ u) := by
  obtain ⟨x, s, rfl⟩ := List.exists_cons_of_ne_nil hp
  obtain ⟨rfl, hs⟩ := List.cons.inj (h.trans ht)
  refine ⟨opens_cons.2 (.inr (.inr rfl)), ?_, ?_, ?_, fun _ hr => hr⟩
  · intro c hc
    rw [List.cons_append, skipSpace_cons rfl] at hc
    obtain rfl : '{' = c := by simpa using hc
    decide
  · rw [List.cons_append, scanLiteral_plain none (by decide) (by decide) (by decide)]
    rcases s with _ | ⟨y, s⟩
    · exact hu.literal
    · obtain ⟨rfl, hs'⟩ := List.cons.inj hs
      rw [List.cons_append, scanLiteral_quote]
      intro r hr
      obtain rfl : s ++ u = r := by simpa [Literal.settle, Literal.push, Except.toOption] using hr
      rcases s with _ | ⟨z, s⟩
      · exact hu.stray
      · obtain ⟨rfl, -⟩ := List.cons.inj hs'
        exact hc (s ++ u)
  · intro fuel r hr
    rcases hd : readDraft fuel ('{' :: s) with ⟨d, _ | rest⟩
    · rw [readDraft_object_broken hu (by rw [hd])] at hr
      simp at hr
    · obtain ⟨rfl, -⟩ := readDraft_front h hd
      rw [readDraft_object_append hd] at hr
      obtain rfl : u = r := by simpa using hr
      exact hu.stray

/-! ## No line feeds -/

theorem feed_notMem_escapeChar (c : Char) : '\n' ∉ escapeChar c := by
  have hx : ∀ n, n < 0x20 → '\n' ≠ (n / 16).digitChar ∧ '\n' ≠ (n % 16).digitChar := by decide
  unfold escapeChar
  split
  · decide
  split
  · decide
  split
  · decide
  split
  · decide
  split
  · decide
  split
  · decide
  split
  · decide
  split
  · next hc =>
    obtain ⟨h, h'⟩ := hx c.toNat hc
    simp only [List.mem_cons, List.not_mem_nil, or_false, not_or]
    exact ⟨by decide, by decide, by decide, by decide, h, h'⟩
  · next h _ _ _ _ _ =>
    intro hc
    exact h (beq_iff_eq.2 (List.mem_singleton.1 hc).symm)

theorem feed_notMem_stringText (s : String) : '\n' ∉ stringText s := by
  simp [stringText, feed_notMem_escapeChar]

theorem feed_notMem_phrase (x : OneOrMany) : '\n' ∉ x.toValue.compact := by
  have items : ∀ ss : List String, '\n' ∉ compactItems (ss.map .string) := by
    intro ss
    induction ss with
    | nil => simp [compactItems]
    | cons s ss ih =>
      cases ss with
      | nil => simpa [compactItems, Value.compact, Value.leafText] using feed_notMem_stringText s
      | cons s' ss =>
        have := feed_notMem_stringText s
        simp_all [compactItems, Value.compact, Value.leafText]
  cases x with
  | one s => exact feed_notMem_stringText s
  | many ss => simpa [OneOrMany.toValue, Value.compact] using items ss

/-- The text of an object of phrases is one line. -/
theorem feed_notMem_compact (ps : List (String × OneOrMany)) : '\n' ∉ (phrasesValue ps).compact := by
  have members : ∀ ps, '\n' ∉ membersText ps [] := by
    intro ps
    induction ps with
    | nil => simp [membersText, compactMembers]
    | cons p ps ih =>
      obtain ⟨k, x⟩ := p
      have := feed_notMem_phrase x
      cases ps with
      | nil => simp [membersText_one, feed_notMem_escapeChar, this]
      | cons p' ps => simp [membersText_cons, feed_notMem_escapeChar, this, ih]
  have := compact_phrasesValue ps []
  rw [List.append_nil] at this
  simp [this, members ps]

end Captioning.Json
