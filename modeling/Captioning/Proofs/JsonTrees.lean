import Captioning.Proofs.JsonGrammar
/-!
# Reading the texts of trees

A text that has the tokens of a value is read to its end, and what it is read as depends on the tokens alone, not on the
blanks between them (`Tree.ofText_laid`). Whatever is read to its end has the tokens of a value (`ReadsLaid`).
-/

namespace Captioning.Json

/-! ## Leaves and names -/

section
variable {s r : List Char}

theorem leafDraft_quote (q : List Char) : leafDraft '"' q = literalDraft (scanLiteral none q) := by
  simp [leafDraft, Char.isDigit]

theorem IsNumeral.start (h : IsNumeral s) : ∃ c q, s = c :: q ∧ (c = '-' ∨ c.isDigit = true) := by
  cases h with
  | plain hw =>
    obtain ⟨c, q, rfl⟩ := List.exists_cons_of_ne_nil hw.digits.ne_nil
    exact ⟨c, _, rfl, .inr (hw.digits.digit c List.mem_cons_self)⟩
  | negative => exact ⟨'-', _, rfl, .inl rfl⟩

/-- A value without parts is read alike, whatever follows that does not go on with it. -/
theorem IsLeaf.exists_draft (h : IsLeaf s) : ∃ d, Draft.ofText s = (d, some []) := by
  cases h with
  | word hw =>
    simp only [List.mem_cons, List.not_mem_nil, or_false] at hw
    rcases hw with rfl | rfl | rfl <;> exact ⟨_, rfl⟩
  | numeral hn =>
    obtain ⟨n, hscan⟩ := hn.scanNumeral (r := []) (by simp [Undigit])
    obtain ⟨c, q, rfl, hc⟩ := hn.start
    exact ⟨.number n, by simpa using ofText_numeral hc hscan⟩
  | @string s hi =>
    refine ⟨.string (scanLiteral none (s ++ ['"'])).content, ?_⟩
    rw [ofText_leaf (skipSpace_cons rfl _) (by decide) (by decide), leafDraft_quote]
    exact literalDraft_eq_some.2 ⟨hi.rest_scanLiteral [], rfl⟩

/-- What a value without parts is read as. -/
def Leaf.draft (l : Leaf) : Draft := (Draft.ofText l.text).1

theorem Leaf.ofText (l : Leaf) (hr : Undigit r) : Draft.ofText (l.text ++ r) = (l.draft, some r) := by
  obtain ⟨d, hd⟩ := l.isLeaf.exists_draft
  have happend := ofText_of_readDraft (readDraft_append hd (.inr hr))
  rw [happend, draft, hd]
  rfl

/-- What a name is read as. -/
def Name.draft (k : Name) : Except Fault (List Char) := (scanLiteral none (k.inside ++ ['"'])).content

theorem Name.scanLiteral (k : Name) (r : List Char) :
    Json.scanLiteral none (k.inside ++ '"' :: r) = ⟨k.draft, .ok r⟩ := by
  have h := scanLiteral_append (k.isInside.rest_scanLiteral []) r
  rwa [List.append_assoc] at h

/-- A name is read as the text that it spells, and as no other. -/
theorem Name.draft_eq_ok {k : Name} {t : List Char} : k.draft = .ok t ↔ Spells k.inside t := by
  constructor
  · intro h
    obtain ⟨inside, hi, heq⟩ := spelledBehind_of_scanLiteral (k.isInside.rest_scanLiteral []) h
    rwa [← List.append_cancel_right heq] at hi
  · intro h
    rw [draft, h.scanLiteral_eq []]

end

/-! ## Trees -/

mutual

/-- What a value is read as. -/
def Tree.draft : Tree → Draft
  | .leaf l => l.draft
  | .array items => .array (Tree.itemDrafts items) .closed
  | .object members => .object (Tree.memberDrafts members) .closed

/-- What items are read as. -/
def Tree.itemDrafts : List Tree → List Draft
  | [] => []
  | t :: more => t.draft :: Tree.itemDrafts more

/-- What members are read as. -/
def Tree.memberDrafts : List (Name × Tree) → List (Except Fault (List Char) × Draft)
  | [] => []
  | (k, t) :: more => (k.draft, t.draft) :: Tree.memberDrafts more

end

theorem Tree.memberDrafts_eq_map (ms : List (Name × Tree)) :
    Tree.memberDrafts ms = ms.map fun m => (m.1.draft, m.2.draft) := by
  induction ms with
  | nil => rfl
  | cons m ms ih => rw [Tree.memberDrafts, ih, List.map_cons]

section
variable {first : Bool} {c s rest r : List Char} {d : Draft} {ds : List Draft}
variable {ms : List (Except Fault (List Char) × Draft)} {token : List Char} {tokens : List (List Char)}

theorem laid_comma_true : Laid (comma true) c ↔ c = [] := laid_nil

theorem laid_comma_false : Laid (comma false) c ↔ ∃ gap, Blank gap ∧ c = gap ++ [','] := laid_singleton

theorem skipSpace_comma (h : Laid (comma false) c) (s : List Char) : skipSpace (c ++ s) = ',' :: s := by
  obtain ⟨gap, hg, rfl⟩ := laid_comma_false.1 h
  rw [List.append_assoc, skipSpace_blank_append hg]
  exact skipSpace_cons rfl s

/-- No numeral goes on behind a token that starts with none of its characters. -/
theorem Laid.undigit (h : Laid (token :: tokens) s) (ht : Undigit token) (hne : token ≠ []) : Undigit (s ++ r) := by
  obtain ⟨gap, q, hg, -, rfl⟩ := laid_cons.1 h
  obtain ⟨x, q', rfl⟩ := List.exists_cons_of_ne_nil hne
  rw [List.append_assoc]
  exact undigit_blank_append hg (undigit_cons (ht x rfl) _)

theorem undigit_bracket {gap : List Char} {b : Char} (hg : Blank gap) (hb : b = ']' ∨ b = '}') :
    Undigit (gap ++ b :: r) := by
  refine undigit_blank_append hg (undigit_cons ?_ r)
  rcases hb with rfl | rfl <;> decide

theorem undigit_items {items : List Tree} {gap : List Char} (h : Laid (itemTokens false items) s) (hg : Blank gap) :
    Undigit (s ++ (gap ++ ']' :: r)) := by
  cases items with
  | nil =>
    obtain rfl := laid_nil.1 h
    exact undigit_bracket hg (.inl rfl)
  | cons t items => exact Laid.undigit h (undigit_cons (by decide) []) (by simp)

theorem undigit_members {members : List (Name × Tree)} {gap : List Char} (h : Laid (memberTokens false members) s)
    (hg : Blank gap) : Undigit (s ++ (gap ++ '}' :: r)) := by
  cases members with
  | nil =>
    obtain rfl := laid_nil.1 h
    exact undigit_bracket hg (.inr rfl)
  | cons m members => exact Laid.undigit h (undigit_cons (by decide) []) (by simp)

/-- A value that is read does not start like the end of a list. -/
theorem exists_start (h : Draft.ofText s = (d, some r)) : ∃ x q, skipSpace s = x :: q ∧ x ≠ ']'
    ∧ Draft.ofText (x :: q) = (d, some r) := by
  have hskip : Draft.ofText (skipSpace s) = (d, some r) :=
    @ofText_of_readDraft (2 * s.length + 2) _ _ _ (by rw [readDraft_skipSpace]; exact h)
  rcases hs : skipSpace s with _ | ⟨x, q⟩
  · have hnone := readDraft_blank (2 * s.length + 2) hs
    rw [show readDraft _ s = _ from h] at hnone
    cases hnone
  · refine ⟨x, q, rfl, ?_, hs ▸ hskip⟩
    rintro rfl
    rw [ofText_leaf hs (by decide) (by decide)] at h
    cases h

/-- One more item in front, behind its comma. -/
theorem ItemsTo.laid (hc : Laid (comma first) c) (hd : Draft.ofText s = (d, some rest)) (h : ItemsTo false rest ds r) :
    ItemsTo first (c ++ s) (d :: ds) r := by
  obtain ⟨x, q, hs, hx, hd⟩ := exists_start hd
  refine .part ?_ hd h
  cases first with
  | true =>
    obtain rfl := laid_comma_true.1 hc
    simp [itemEntry, hs, hx]
  | false => simp [itemEntry, skipSpace_comma hc, hs, hx]

/-- One more member in front, behind its comma. -/
theorem MembersTo.laid {gap pad : List Char} (hc : Laid (comma first) c) (hg : Blank gap) (hp : Blank pad) (k : Name)
    (hd : Draft.ofText s = (d, some rest)) (h : MembersTo false rest ms r) :
    MembersTo first (c ++ (gap ++ (k.text ++ (pad ++ ':' :: s)))) ((k.draft, d) :: ms) r := by
  have hname : memberName (k.inside ++ '"' :: (pad ++ ':' :: s)) = (k.draft, .ok s) := by
    simp [memberName, k.scanLiteral, skipSpace_blank_append hp, skipSpace_cons (show isSpace ':' = false from rfl)]
  have hquote : skipSpace (gap ++ (k.text ++ (pad ++ ':' :: s))) = '"' :: (k.inside ++ '"' :: (pad ++ ':' :: s)) := by
    rw [skipSpace_blank_append hg, Name.text, List.cons_append, skipSpace_cons rfl, List.append_assoc]
    rfl
  refine .part ?_ hname hd h
  cases first with
  | true =>
    obtain rfl := laid_comma_true.1 hc
    simp [memberEntry, hquote]
  | false => simp [memberEntry, skipSpace_comma hc, hquote]

end

mutual

/-- A text that has the tokens of a value is read as that value, whatever blanks it has. -/
theorem Tree.ofText_laid : ∀ (t : Tree) {s r : List Char}, Laid t.tokens s → Undigit r →
    Draft.ofText (s ++ r) = (t.draft, some r)
  | .leaf l, s, r, h, hr => by
    obtain ⟨gap, hg, rfl⟩ := laid_singleton.1 h
    rw [List.append_assoc]
    exact ofText_blank_append hg (l.ofText hr)
  | .array items, s, r, h, _ => by
    obtain ⟨gap, inner, pad, hg, hi, hp, rfl⟩ := laid_bracketed.1 h
    have hitems := itemsTo_laid true items (r := r) hi hp
    have hd := ofText_blank_append hg (ofText_array (skipSpace_cons (c := '[') rfl _) hitems)
    simpa [Tree.draft] using hd
  | .object members, s, r, h, _ => by
    obtain ⟨gap, inner, pad, hg, hi, hp, rfl⟩ := laid_bracketed.1 h
    have hmembers := membersTo_laid true members (r := r) hi hp
    have hd := ofText_blank_append hg (ofText_object (skipSpace_cons (c := '{') rfl _) hmembers)
    simpa [Tree.draft] using hd

theorem itemsTo_laid (first : Bool) : ∀ (items : List Tree) {s w r : List Char}, Laid (itemTokens first items) s →
    Blank w → ItemsTo first (s ++ (w ++ ']' :: r)) (Tree.itemDrafts items) r
  | [], s, w, r, h, hw => by
    obtain rfl := laid_nil.1 h
    exact itemsTo_close (by rw [List.nil_append, skipSpace_blank_append hw, skipSpace_cons rfl])
  | t :: more, s, w, r, h, hw => by
    obtain ⟨c, s, hc, hs, rfl⟩ := laid_append.1 h
    obtain ⟨a, b, ha, hb, rfl⟩ := laid_append.1 hs
    have hd := t.ofText_laid ha (undigit_items (r := r) hb hw)
    simpa [Tree.itemDrafts] using ItemsTo.laid hc hd (itemsTo_laid false more hb hw)

theorem membersTo_laid (first : Bool) : ∀ (members : List (Name × Tree)) {s w r : List Char},
    Laid (memberTokens first members) s → Blank w →
    MembersTo first (s ++ (w ++ '}' :: r)) (Tree.memberDrafts members) r
  | [], s, w, r, h, hw => by
    obtain rfl := laid_nil.1 h
    exact membersTo_close (by rw [List.nil_append, skipSpace_blank_append hw, skipSpace_cons rfl])
  | (k, t) :: more, s, w, r, h, hw => by
    obtain ⟨c, named, hc, hnamed, rfl⟩ := laid_append.1 h
    obtain ⟨gap, valued, hg, hvalued, rfl⟩ := laid_cons.1 hnamed
    obtain ⟨pad, s, hp, hs, rfl⟩ := laid_cons.1 hvalued
    obtain ⟨a, b, ha, hb, rfl⟩ := laid_append.1 hs
    have hd := t.ofText_laid ha (undigit_members (r := r) hb hw)
    simpa [Tree.memberDrafts] using MembersTo.laid hc hg hp k hd (membersTo_laid false more hb hw)

end

/-! ## Nothing else is read -/

section
variable {first : Bool} {c : Char} {s t v r : List Char} {d : Draft}

theorem exists_gap (s : List Char) : ∃ gap, Blank gap ∧ s = gap ++ skipSpace s :=
  ⟨s.takeWhile isSpace, List.all_eq_true.1 List.all_takeWhile, List.takeWhile_append_dropWhile.symm⟩

theorem exists_gap_of_skipSpace (h : skipSpace s = t) : ∃ gap, Blank gap ∧ s = gap ++ t := h ▸ exists_gap s

/-- Blanks in front of a text belong to its first token. -/
theorem Laid.blank_append {gap : List Char} {tokens : List (List Char)} (h : Laid tokens s) (hne : tokens ≠ [])
    (hg : Blank gap) : Laid tokens (gap ++ s) := by
  cases h with
  | nil => exact absurd rfl hne
  | @cons gap' token tokens q hg' hq =>
    have hblank : Blank (gap ++ gap') := fun c hc => (List.mem_append.1 hc).elim (hg c) (hg' c)
    exact laid_cons.2 ⟨gap ++ gap', q, hblank, hq, (List.append_assoc ..).symm⟩

theorem Tree.tokens_ne_nil (t : Tree) : t.tokens ≠ [] := by
  cases t <;> simp [Tree.tokens]

theorem eq_append_of_scanWord {d d' : Draft} {w : List Char} (h : scanWord d w s = (d', some r)) : s = w ++ r := by
  fun_induction scanWord d w s with
  | case1 => exact Option.some.inj (Prod.mk.inj h).2
  | case2 => simp at h
  | case3 w ws c s hc ih => rw [eq_of_beq hc, ih h, List.cons_append]
  | case4 => simp at h

/-- What is read as a value without parts is one. -/
theorem leaf_of_leafDraft (h : leafDraft c s = (d, some r)) : ∃ l : Leaf, c :: s = l.text ++ r := by
  have word {w : List Char} {e : Draft} (hw : IsLeaf (c :: w)) (h : scanWord e w s = (d, some r)) :
      ∃ l : Leaf, c :: s = l.text ++ r := ⟨⟨c :: w, hw⟩, by rw [eq_append_of_scanWord h, List.cons_append]⟩
  unfold leafDraft at h
  split at h
  · next hc =>
    obtain rfl := eq_of_beq hc
    exact word (.word (by simp)) h
  split at h
  · next hc =>
    obtain rfl := eq_of_beq hc
    exact word (.word (by simp)) h
  split at h
  · next hc =>
    obtain rfl := eq_of_beq hc
    exact word (.word (by simp)) h
  split at h
  · obtain ⟨n, hn, -⟩ := numeralDraft_eq_some.1 h
    obtain ⟨text, ht, hs⟩ := numeral_of_scanNumeral hn
    exact ⟨⟨text, .numeral ht⟩, hs⟩
  split at h
  · next hc =>
    obtain rfl := eq_of_beq hc
    obtain ⟨inside, hi, rfl⟩ := inside_of_scanLiteral (literalDraft_eq_some.1 h).1
    exact ⟨⟨_, .string hi⟩, by simp⟩
  · simp at h

theorem exists_comma {q : List Char} (h : skipSpace s = ',' :: q) : ∃ c, Laid (comma false) c ∧ s = c ++ q := by
  obtain ⟨gap, hg, rfl⟩ := exists_gap_of_skipSpace h
  exact ⟨gap ++ [','], laid_comma_false.2 ⟨gap, hg, rfl⟩, by simp⟩

theorem eq_of_itemEntry_done {closing : Closing} (h : itemEntry first s = .done closing (some r)) :
    ∃ gap, Blank gap ∧ s = gap ++ ']' :: r := by
  obtain ⟨gap, hg, hs⟩ := exists_gap s
  have hskip : skipSpace s = ']' :: r := by
    unfold itemEntry at h
    grind
  exact ⟨gap, hg, hskip ▸ hs⟩

theorem eq_of_itemEntry_part (h : itemEntry first s = .part t) :
    ∃ c gap, Laid (comma first) c ∧ Blank gap ∧ s = c ++ (gap ++ t) := by
  unfold itemEntry at h
  split at h
  · cases h
  · next x q hx =>
    split at h
    · cases h
    split at h
    · next hf =>
      obtain rfl := Entry.part.inj h
      obtain ⟨gap, hg, hs⟩ := exists_gap_of_skipSpace hx
      exact ⟨[], gap, hf ▸ laid_comma_true.2 rfl, hg, hs⟩
    split at h
    · next hf hc =>
      obtain rfl := eq_of_beq hc
      obtain ⟨c, hc, rfl⟩ := exists_comma hx
      split at h
      · cases h
      · next y q' hy =>
        split at h
        · cases h
        · obtain rfl := Entry.part.inj h
          obtain ⟨gap, hg, rfl⟩ := exists_gap_of_skipSpace hy
          exact ⟨c, gap, by simpa [hf] using hc, hg, rfl⟩
    · cases h

theorem eq_of_memberEntry_part (h : memberEntry first s = .part t) :
    ∃ c gap, Laid (comma first) c ∧ Blank gap ∧ s = c ++ (gap ++ '"' :: t) := by
  unfold memberEntry at h
  split at h
  · cases h
  · next x q hx =>
    split at h
    · cases h
    split at h
    · next hf =>
      split at h
      · next hc =>
        obtain rfl := eq_of_beq hc
        obtain rfl := Entry.part.inj h
        obtain ⟨gap, hg, hs⟩ := exists_gap_of_skipSpace hx
        exact ⟨[], gap, hf ▸ laid_comma_true.2 rfl, hg, hs⟩
      · cases h
    split at h
    · next hf hc =>
      obtain rfl := eq_of_beq hc
      obtain ⟨c, hc, rfl⟩ := exists_comma hx
      split at h
      · cases h
      · next y q' hy =>
        split at h
        · next hq =>
          obtain rfl := eq_of_beq hq
          obtain rfl := Entry.part.inj h
          obtain ⟨gap, hg, rfl⟩ := exists_gap_of_skipSpace hy
          exact ⟨c, gap, by simpa [hf] using hc, hg, rfl⟩
        split at h <;> cases h
    · cases h

theorem eq_of_memberEntry_done {closing : Closing} (h : memberEntry first s = .done closing (some r)) :
    ∃ gap, Blank gap ∧ s = gap ++ '}' :: r := by
  obtain ⟨gap, hg, hs⟩ := exists_gap s
  have hskip : skipSpace s = '}' :: r := by
    unfold memberEntry at h
    grind
  exact ⟨gap, hg, hskip ▸ hs⟩

/-- A member starts with its name and a colon. -/
theorem eq_of_memberName (h : (memberName t).2 = .ok v) :
    ∃ (k : Name) (pad : List Char), Blank pad ∧ t = k.inside ++ '"' :: (pad ++ ':' :: v) := by
  unfold memberName at h
  dsimp only at h
  split at h
  · cases h
  · next rest hrest =>
    obtain ⟨inside, hi, rfl⟩ := inside_of_scanLiteral hrest
    split at h
    · cases h
    · next c q hc =>
      split at h
      · next hcolon =>
        obtain rfl := eq_of_beq hcolon
        obtain rfl := Except.ok.inj h
        obtain ⟨pad, hp, rfl⟩ := exists_gap_of_skipSpace hc
        exact ⟨⟨inside, hi⟩, pad, hp, rfl⟩
      · cases h

end

/-- Whatever is read to its end has the tokens of a value, of items or of members. -/
structure ReadsLaid (fuel : Nat) : Prop where
  value (s : List Char) (d : Draft) (r : List Char) : readDraft fuel s = (d, some r) →
    ∃ (t : Tree) (laid : List Char), Laid t.tokens laid ∧ s = laid ++ r
  items (first : Bool) (s : List Char) (ds : List Draft) (c : Closing) (r : List Char) :
    readItems fuel first s = (ds, c, some r) →
    ∃ items laid gap, Laid (itemTokens first items) laid ∧ Blank gap ∧ s = laid ++ (gap ++ ']' :: r)
  members (first : Bool) (s : List Char) (ms : List (Except Fault (List Char) × Draft)) (c : Closing) (r : List Char) :
    readMembers fuel first s = (ms, c, some r) →
    ∃ members laid gap, Laid (memberTokens first members) laid ∧ Blank gap ∧ s = laid ++ (gap ++ '}' :: r)

section
variable {fuel : Nat} {first : Bool} {s r : List Char} {d : Draft}

theorem ReadsLaid.value_succ (ih : ReadsLaid fuel) (h : readDraft (fuel + 1) s = (d, some r)) :
    ∃ (t : Tree) (laid : List Char), Laid t.tokens laid ∧ s = laid ++ r := by
  rcases hs : skipSpace s with _ | ⟨c, q⟩
  · have := readDraft_blank (fuel + 1) hs
    simp [h] at this
  obtain ⟨gap, hg, rfl⟩ := exists_gap_of_skipSpace hs
  by_cases ha : c = '['
  · subst ha
    rw [readDraft_array _ hs] at h
    obtain ⟨items, inner, pad, hi, hp, rfl⟩ := ih.items true q _ _ r (Prod.ext rfl (Prod.ext rfl (Prod.mk.inj h).2))
    exact ⟨.array items, _, laid_bracketed.2 ⟨gap, inner, pad, hg, hi, hp, rfl⟩, by simp⟩
  by_cases ho : c = '{'
  · subst ho
    rw [readDraft_object _ hs] at h
    obtain ⟨members, inner, pad, hi, hp, rfl⟩ :=
      ih.members true q _ _ r (Prod.ext rfl (Prod.ext rfl (Prod.mk.inj h).2))
    exact ⟨.object members, _, laid_bracketed.2 ⟨gap, inner, pad, hg, hi, hp, rfl⟩, by simp⟩
  · rw [readDraft_leaf _ hs ha ho] at h
    obtain ⟨l, hl⟩ := leaf_of_leafDraft h
    exact ⟨.leaf l, gap ++ l.text, laid_singleton.2 ⟨gap, hg, rfl⟩, by rw [hl, List.append_assoc]⟩

theorem ReadsLaid.items_succ (ih : ReadsLaid fuel) {ds : List Draft} {c : Closing}
    (h : readItems (fuel + 1) first s = (ds, c, some r)) :
    ∃ items laid gap, Laid (itemTokens first items) laid ∧ Blank gap ∧ s = laid ++ (gap ++ ']' :: r) := by
  rw [readItems_succ] at h
  rcases he : itemEntry first s with ⟨c', x⟩ | t <;> rw [he] at h
  · obtain ⟨rfl, rfl, rfl⟩ : [] = ds ∧ c' = c ∧ x = some r := by simpa [Entry.read] using h
    obtain ⟨gap, hg, rfl⟩ := eq_of_itemEntry_done he
    exact ⟨[], [], gap, .nil, hg, rfl⟩
  · obtain ⟨front, gap, hc, hg, rfl⟩ := eq_of_itemEntry_part he
    rcases hd : readDraft fuel t with ⟨d, _ | rest⟩
    · simp [Entry.read, itemAt, hd] at h
    rw [Entry.read, itemAt_of_some hd] at h
    obtain ⟨t', laid, hl, rfl⟩ := ih.value t d rest hd
    obtain ⟨items, more, pad, hm, hp, rfl⟩ := ih.items false rest _ c r (Prod.ext rfl (Prod.mk.inj h).2)
    refine ⟨t' :: items, front ++ ((gap ++ laid) ++ more), pad, ?_, hp, by simp⟩
    exact laid_append.2 ⟨_, _, hc, laid_append.2 ⟨_, _, hl.blank_append t'.tokens_ne_nil hg, hm, rfl⟩, rfl⟩

theorem ReadsLaid.members_succ (ih : ReadsLaid fuel) {ms : List (Except Fault (List Char) × Draft)} {c : Closing}
    (h : readMembers (fuel + 1) first s = (ms, c, some r)) :
    ∃ members laid gap, Laid (memberTokens first members) laid ∧ Blank gap ∧ s = laid ++ (gap ++ '}' :: r) := by
  rw [readMembers_succ] at h
  rcases he : memberEntry first s with ⟨c', x⟩ | t <;> rw [he] at h
  · obtain ⟨rfl, rfl, rfl⟩ : [] = ms ∧ c' = c ∧ x = some r := by simpa [Entry.read] using h
    obtain ⟨gap, hg, rfl⟩ := eq_of_memberEntry_done he
    exact ⟨[], [], gap, .nil, hg, rfl⟩
  · obtain ⟨front, gap, hc, hg, rfl⟩ := eq_of_memberEntry_part he
    rcases hn : (memberName t).2 with d | v
    · simp [Entry.read, hn, memberAt] at h
    obtain ⟨k, colon, hk, rfl⟩ := eq_of_memberName hn
    rcases hd : readDraft fuel v with ⟨d, _ | rest⟩
    · simp [Entry.read, hn, memberAt, hd] at h
    simp only [Entry.read, hn, memberAt_of_some _ hd] at h
    obtain ⟨t', laid, hl, rfl⟩ := ih.value v d rest hd
    obtain ⟨members, more, pad, hm, hp, rfl⟩ := ih.members false rest _ c r (Prod.ext rfl (Prod.mk.inj h).2)
    have hcolon : Laid ([':'] :: (t'.tokens ++ _)) _ := .cons hk (laid_append.2 ⟨_, _, hl, hm, rfl⟩)
    have hname : Laid (k.text :: _) _ := .cons hg hcolon
    exact ⟨(k, t') :: members, _, pad, laid_append.2 ⟨_, _, hc, hname, rfl⟩, hp, by simp [Name.text]⟩

theorem readsLaid (fuel : Nat) : ReadsLaid fuel := by
  induction fuel with
  | zero => constructor <;> simp [readDraft, readItems, readMembers]
  | succ fuel ih =>
    exact ⟨fun _ _ _ h => ih.value_succ h, fun _ _ _ _ _ h => ih.items_succ h, fun _ _ _ _ _ h => ih.members_succ h⟩

end

/-! ## Whole texts -/

section
variable {t : Tree} {members : List (Name × Tree)} {s : List Char}

theorem Tree.IsText.ofText (h : t.IsText s) : ∃ gap, Draft.ofText s = (t.draft, some gap) ∧ skipSpace gap = [] := by
  obtain ⟨laid, gap, hl, hg, rfl⟩ := h
  have hend : Undigit gap := by simpa using undigit_blank_append (s := []) hg (by simp [Undigit])
  refine ⟨gap, t.ofText_laid hl hend, ?_⟩
  simpa [skipSpace] using skipSpace_blank_append hg []

/-- Every value has a text, one without blanks. -/
theorem laid_flatten (tokens : List (List Char)) : Laid tokens tokens.flatten := by
  induction tokens with
  | nil => exact .nil
  | cons token tokens ih => exact laid_cons.2 ⟨[], tokens.flatten, blank_nil, ih, rfl⟩

/-- What is read to its end and starts like an object is the text of one. -/
theorem isText_of_ofText {q gap : List Char} {d : Draft} (h : Draft.ofText ('{' :: q) = (d, some gap))
    (hg : skipSpace gap = []) : ∃ members, (Tree.object members).IsText ('{' :: q) := by
  have hs : skipSpace ('{' :: q) = '{' :: q := skipSpace_cons rfl q
  rw [Draft.ofText, readDraft_object _ hs] at h
  obtain ⟨members, inner, pad, hi, hp, rfl⟩ :=
    (readsLaid _).members true q _ _ gap (Prod.ext rfl (Prod.ext rfl (Prod.mk.inj h).2))
  obtain ⟨gap', hg', rfl⟩ := exists_gap_of_skipSpace hg
  exact ⟨members, _, gap', laid_bracketed.2 ⟨[], inner, pad, blank_nil, hi, hp, rfl⟩, hg', by simp⟩

end

end Captioning.Json
