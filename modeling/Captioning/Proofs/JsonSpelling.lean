import Captioning.Proofs.DecimalDigits
import Captioning.Proofs.JsonReading
import Mathlib.Algebra.Group.Int.Defs
/-!
# The texts of values and what they are read as

A value is spelled with blanks in front of its parts and behind its colons, or without (`Layout`, `spell_compact`,
`spell_pretty`). However it is spelled, its text is read to the end as one draft (`Value.ofText_spell`), if its
numbers are integers (`Value.Integral`).
-/

namespace Captioning.Json

/-! ## Strings -/

theorem hexFour?_control : ∀ n, n < 0x20 → hexFour? '0' '0' (n / 16).digitChar (n % 16).digitChar = some n := by
  decide

/-- An escaped character is read as the character. -/
theorem scanLiteral_escapeChar (c : Char) (t : List Char) :
    scanLiteral none (escapeChar c ++ t) = (scanLiteral none t).push c := by
  have plain : ∀ e x, e ≠ 'u' → plainEscape? e = some x →
      scanLiteral none ('\\' :: e :: t) = (scanLiteral none t).push x := by
    intro e x he hx
    exact scanLiteral_escape none (by simpa using he) hx t
  unfold escapeChar
  split
  · next h => rw [eq_of_beq h]; exact plain _ _ (by decide) rfl
  split
  · next h => rw [eq_of_beq h]; exact plain _ _ (by decide) rfl
  split
  · next h => rw [eq_of_beq h]; exact plain _ _ (by decide) rfl
  split
  · next h => rw [eq_of_beq h]; exact plain _ _ (by decide) rfl
  split
  · next h => rw [eq_of_beq h]; exact plain _ _ (by decide) rfl
  split
  · next h => rw [eq_of_beq h]; exact plain _ _ (by decide) rfl
  split
  · next h => rw [eq_of_beq h]; exact plain _ _ (by decide) rfl
  split
  · next hc =>
    have hm : ¬ isTrail c.toNat = true := by simp [isTrail]; omega
    have hl : ¬ isLead c.toNat = true := by simp [isLead]; omega
    simp only [List.cons_append, List.nil_append]
    rw [scanLiteral_number none (hexFour?_control c.toNat hc) hm hl, Char.ofNat_toNat]
    rfl
  · next hq hb _ _ _ _ _ hc => exact scanLiteral_plain none hq hb hc t

/-- The text of a string is read as the string. -/
theorem scanLiteral_escaped (s r : List Char) :
    scanLiteral none (s.flatMap escapeChar ++ '"' :: r) = ⟨.ok s, .ok r⟩ := by
  induction s with
  | nil => exact scanLiteral_quote none r
  | cons c s ih => rw [List.flatMap_cons, List.append_assoc, scanLiteral_escapeChar, ih]; rfl

theorem skipSpace_cons {c : Char} (h : isSpace c = false) (r : List Char) : skipSpace (c :: r) = c :: r := by
  simp [skipSpace, h]

theorem readDraft_stringText (fuel : Nat) (s : String) (r : List Char) :
    readDraft (fuel + 1) (stringText s ++ r) = (.string (.ok s.toList), some r) := by
  have ht : stringText s ++ r = '"' :: (s.toList.flatMap escapeChar ++ '"' :: r) := by simp [stringText]
  rw [ht, readDraft_leaf fuel (skipSpace_cons rfl _) (by decide) (by decide)]
  have hl : leafDraft '"' = fun q => literalDraft (scanLiteral none q) := by
    funext q
    simp [leafDraft, Char.isDigit]
  simp only [hl, scanLiteral_escaped]
  rfl

/-! ## Integers -/

section
variable {r : List Char}

theorem scanWhole_digitsOf (n : Nat) (hr : Undigit r) :
    scanWhole (Decimal.digitsOf n ++ r) = .ok (Decimal.digitsOf n, r) := by
  have hstop : ∀ c ∈ r.head?, c.isDigit = false := fun c hc => (hr c hc).1
  rw [scanWhole_eq_ok]
  rcases Nat.eq_zero_or_pos n with rfl | hn
  · exact .inl ⟨rfl, rfl, hstop⟩
  · obtain ⟨c, ds, hd, hc⟩ := Decimal.digitsOf_head hn
    refine .inr ⟨c, ds ++ r, by rw [hd, List.cons_append], hc, ?_, ?_⟩
    · exact Decimal.isDigit_of_mem_digitsOf (n := n) (by simp [hd])
    · exact Decimal.spanDigits_digits (fun c hc => Decimal.isDigit_of_mem_digitsOf hc) hstop

theorem scanUnsigned_digitsOf (negative : Bool) (n : Nat) (hr : Undigit r) :
    scanUnsigned negative (Decimal.digitsOf n ++ r) = .ok (⟨negative, Decimal.digitsOf n, none, none⟩, r) := by
  have hpart : scanPart r = .ok (none, r) := scanPart_eq_ok.2 (.inl ⟨fun c hc => (hr c hc).2.1, rfl, rfl⟩)
  have hexponent : scanExponent r = .ok (none, r) :=
    scanExponent_eq_ok.2 (.inl ⟨fun c hc => (hr c hc).2.2, rfl, rfl⟩)
  simp [scanUnsigned, scanWhole_digitsOf n hr, hpart, hexponent, bind, Except.bind, pure, Except.pure]

/-- The numeral of an integer. -/
def integerNumeral (n : Int) : Numeral :=
  ⟨n < 0, Decimal.digitsOf n.natAbs, none, none⟩

theorem scanNumeral_integerText (n : Int) (hr : Undigit r) :
    scanNumeral (integerText n ++ r) = .ok (integerNumeral n, r) := by
  by_cases hn : n < 0
  · have ht : integerText n ++ r = '-' :: (Decimal.digitsOf n.natAbs ++ r) := by
      simp [integerText, Decimal.signText, hn]
    rw [ht, integerNumeral, decide_eq_true hn]
    exact scanUnsigned_digitsOf true n.natAbs hr
  · have ht : integerText n ++ r = Decimal.digitsOf n.natAbs ++ r := by
      simp [integerText, Decimal.signText, hn]
    have hhead : ∀ c ∈ (Decimal.digitsOf n.natAbs ++ r).head?, c ≠ '-' := by
      obtain ⟨d, ds, hd⟩ := List.exists_cons_of_ne_nil (Decimal.digitsOf_ne_nil n.natAbs)
      have hdigit : d.isDigit = true := Decimal.isDigit_of_mem_digitsOf (n := n.natAbs) (by simp [hd])
      intro c hc
      obtain rfl : d = c := by simpa [hd] using hc
      rintro rfl
      cases hdigit
    rw [ht, scanNumeral_other hhead, integerNumeral, decide_eq_false hn]
    exact scanUnsigned_digitsOf false n.natAbs hr

end

/-! ## Layouts -/

/-- How a text is spaced: the blanks in front of a part at some depth, and those behind a colon. -/
structure Layout where
  gap : Nat → List Char
  pad : List Char
  blank_gap : ∀ depth, ∀ c ∈ gap depth, isSpace c = true
  blank_pad : ∀ c ∈ pad, isSpace c = true

/-- No blanks at all. -/
def Layout.compact : Layout := ⟨fun _ => [], [], by simp, by simp⟩

/-- One part per line. -/
def Layout.pretty : Layout where
  gap := newline
  pad := [' ']
  blank_gap := by
    intro depth c hc
    rcases List.mem_cons.1 hc with rfl | hc
    · rfl
    · rw [List.eq_of_mem_replicate hc]
      rfl
  blank_pad := by
    intro c hc
    rw [List.mem_singleton.1 hc]
    rfl

mutual

/-- The text of a value in some layout. -/
def Value.spell (l : Layout) (depth : Nat) : Value → List Char
  | .array [] => ['[', ']']
  | .array items => '[' :: spellItems l (depth + 1) items ++ l.gap depth ++ [']']
  | .object [] => ['{', '}']
  | .object members => '{' :: spellMembers l (depth + 1) members ++ l.gap depth ++ ['}']
  | v => v.leafText

/-- The text of items. -/
def spellItems (l : Layout) (depth : Nat) : List Value → List Char
  | [] => []
  | v :: more => l.gap depth ++ v.spell l depth ++ (match more with
    | [] => []
    | _ => ',' :: spellItems l depth more)

/-- The text of members. -/
def spellMembers (l : Layout) (depth : Nat) : List (String × Value) → List Char
  | [] => []
  | (k, v) :: more => l.gap depth ++ stringText k ++ ':' :: l.pad ++ v.spell l depth ++ (match more with
    | [] => []
    | _ => ',' :: spellMembers l depth more)

end

@[simp] theorem Layout.gap_pretty (depth : Nat) : Layout.pretty.gap depth = newline depth := rfl

@[simp] theorem Layout.pad_pretty : Layout.pretty.pad = [' '] := rfl

@[simp] theorem Layout.gap_compact (depth : Nat) : Layout.compact.gap depth = [] := rfl

@[simp] theorem Layout.pad_compact : Layout.compact.pad = [] := rfl

section
variable (l : Layout) (depth : Nat)

theorem spell_items (v : Value) (vs : List Value) : (Value.array (v :: vs)).spell l depth
    = '[' :: (spellItems l (depth + 1) (v :: vs) ++ (l.gap depth ++ [']'])) := by
  simp [Value.spell]

theorem spell_members (m : String × Value) (ms : List (String × Value)) : (Value.object (m :: ms)).spell l depth
    = '{' :: (spellMembers l (depth + 1) (m :: ms) ++ (l.gap depth ++ ['}'])) := by
  simp [Value.spell]

theorem spellItems_one (v : Value) : spellItems l depth [v] = l.gap depth ++ v.spell l depth := by
  simp [spellItems]

theorem spellItems_cons (v w : Value) (vs : List Value) : spellItems l depth (v :: w :: vs)
    = l.gap depth ++ (v.spell l depth ++ ',' :: spellItems l depth (w :: vs)) := by
  simp [spellItems]

theorem spellMembers_one (k : String) (v : Value) : spellMembers l depth [(k, v)]
    = l.gap depth ++ (stringText k ++ ':' :: (l.pad ++ v.spell l depth)) := by
  simp [spellMembers]

theorem spellMembers_cons (k : String) (v : Value) (m : String × Value) (ms : List (String × Value)) :
    spellMembers l depth ((k, v) :: m :: ms)
      = l.gap depth ++ (stringText k ++ ':' :: (l.pad ++ (v.spell l depth ++ ',' :: spellMembers l depth (m :: ms)))) := by
  simp [spellMembers]

end

mutual

theorem spell_pretty : ∀ (v : Value) (depth : Nat), v.spell .pretty depth = v.prettyAt depth
  | .null, _ | .bool true, _ | .bool false, _ | .integer _, _ | .double _, _ | .string _, _ => rfl
  | .array [], _ | .object [], _ => rfl
  | .array (v :: vs), depth => by simp [spell_items, Value.prettyAt, spellItems_pretty (v :: vs) (depth + 1)]
  | .object (m :: ms), depth => by simp [spell_members, Value.prettyAt, spellMembers_pretty (m :: ms) (depth + 1)]

theorem spellItems_pretty : ∀ (vs : List Value) (depth : Nat), spellItems .pretty depth vs = prettyItems depth vs
  | [], _ => rfl
  | [v], depth => by simp [spellItems_one, prettyItems, spell_pretty v depth]
  | v :: w :: vs, depth => by
    simp [spellItems_cons, prettyItems, spell_pretty v depth, spellItems_pretty (w :: vs) depth]

theorem spellMembers_pretty : ∀ (ms : List (String × Value)) (depth : Nat),
    spellMembers .pretty depth ms = prettyMembers depth ms
  | [], _ => rfl
  | [(k, v)], depth => by simp [spellMembers_one, prettyMembers, spell_pretty v depth]
  | (k, v) :: m :: ms, depth => by
    simp [spellMembers_cons, prettyMembers, spell_pretty v depth, spellMembers_pretty (m :: ms) depth]

end

mutual

theorem spell_compact : ∀ (v : Value) (depth : Nat), v.spell .compact depth = v.compact
  | .null, _ | .bool true, _ | .bool false, _ | .integer _, _ | .double _, _ | .string _, _ => rfl
  | .array [], _ | .object [], _ => by simp [Value.spell, Value.compact, compactItems, compactMembers]
  | .array (v :: vs), depth => by simp [spell_items, Value.compact, spellItems_compact (v :: vs) (depth + 1)]
  | .object (m :: ms), depth => by simp [spell_members, Value.compact, spellMembers_compact (m :: ms) (depth + 1)]

theorem spellItems_compact : ∀ (vs : List Value) (depth : Nat), spellItems .compact depth vs = compactItems vs
  | [], _ => rfl
  | [v], depth => by simp [spellItems_one, compactItems, spell_compact v depth]
  | v :: w :: vs, depth => by
    rw [spellItems_cons, spellItems_compact (w :: vs) depth, spell_compact v depth]
    simp [compactItems]

theorem spellMembers_compact : ∀ (ms : List (String × Value)) (depth : Nat),
    spellMembers .compact depth ms = compactMembers ms
  | [], _ => rfl
  | [(k, v)], depth => by simp [spellMembers_one, compactMembers, spell_compact v depth]
  | (k, v) :: m :: ms, depth => by
    rw [spellMembers_cons, spellMembers_compact (m :: ms) depth, spell_compact v depth]
    simp [compactMembers]

end

/-! ## What a text is read as -/

mutual

/-- What the text of a value is read as. -/
def Value.draft : Value → Draft
  | .null => .null
  | .bool b => .bool b
  | .integer n => .number (integerNumeral n)
  | .double x => (numeralDraft (scanNumeral (Decimal.jsonText x).toList)).1
  | .string s => .string (.ok s.toList)
  | .array items => .array (itemDrafts items) .closed
  | .object members => .object (memberDrafts members) .closed

/-- What the text of items is read as. -/
def itemDrafts : List Value → List Draft
  | [] => []
  | v :: more => v.draft :: itemDrafts more

/-- What the text of members is read as. -/
def memberDrafts : List (String × Value) → List (Except Fault (List Char) × Draft)
  | [] => []
  | (k, v) :: more => (.ok k.toList, v.draft) :: memberDrafts more

end

theorem itemDrafts_eq_map (vs : List Value) : itemDrafts vs = vs.map Value.draft := by
  induction vs with
  | nil => rfl
  | cons v vs ih => rw [itemDrafts, ih, List.map_cons]

theorem memberDrafts_eq_map (ms : List (String × Value)) :
    memberDrafts ms = ms.map fun m => (.ok m.1.toList, m.2.draft) := by
  induction ms with
  | nil => rfl
  | cons m ms ih => rw [memberDrafts, ih, List.map_cons]

theorem memberDrafts_append (ms ms' : List (String × Value)) :
    memberDrafts (ms ++ ms') = memberDrafts ms ++ memberDrafts ms' := by
  simp only [memberDrafts_eq_map, List.map_append]

mutual

/-- All numbers in a value are integers of sixty-four bits, with a sign or without. Zero with a sign is one of them, and
is kept as a double. -/
def Value.Integral : Value → Prop
  | .integer n => -(2 ^ 63) ≤ n ∧ n < 2 ^ 64
  | .double x => x = -0.0
  | .array items => IntegralItems items
  | .object members => IntegralMembers members
  | _ => True

/-- All numbers in some items are integers. -/
def IntegralItems : List Value → Prop
  | [] => True
  | v :: more => v.Integral ∧ IntegralItems more

/-- All numbers in some members are integers. -/
def IntegralMembers : List (String × Value) → Prop
  | [] => True
  | (_, v) :: more => v.Integral ∧ IntegralMembers more

end

/-! ### Reading to the end of a list -/

/-- Items are read to their closing bracket, and `r` is left. -/
def ItemsTo (first : Bool) (s : List Char) (ds : List Draft) (r : List Char) : Prop :=
  ∃ fuel, readItems fuel first s = (ds, .closed, some r)

/-- Members are read to their closing brace, and `r` is left. -/
def MembersTo (first : Bool) (s : List Char) (ms : List (Except Fault (List Char) × Draft)) (r : List Char) : Prop :=
  ∃ fuel, readMembers fuel first s = (ms, .closed, some r)

section
variable {first : Bool} {s q t rest r : List Char} {d : Draft} {ds : List Draft} {c : Char}
variable {k : Except Fault (List Char)} {ms : List (Except Fault (List Char) × Draft)}

theorem skipSpace_blank_append {ws : List Char} (h : ∀ c ∈ ws, isSpace c = true) (s : List Char) :
    skipSpace (ws ++ s) = skipSpace s :=
  List.dropWhile_append_of_pos h

theorem readItems_more {fuel : Nat} (h : readItems fuel first s = (ds, .closed, some r)) (more : Nat) :
    readItems (fuel + more) first s = (ds, .closed, some r) := by
  induction more with
  | zero => exact h
  | succ more ih => exact (read_succ (fuel + more)).2.1 first s ds _ r ih

theorem readMembers_more {fuel : Nat} (h : readMembers fuel first s = (ms, .closed, some r)) (more : Nat) :
    readMembers (fuel + more) first s = (ms, .closed, some r) := by
  induction more with
  | zero => exact h
  | succ more ih => exact (read_succ (fuel + more)).2.2 first s ms _ r ih

theorem ofText_array (hs : skipSpace s = '[' :: q) (h : ItemsTo true q ds r) :
    Draft.ofText s = (.array ds .closed, some r) := by
  obtain ⟨fuel, hf⟩ := h
  refine @ofText_of_readDraft (fuel + 1) _ _ _ ?_
  rw [readDraft_array fuel hs, hf]

theorem ofText_object (hs : skipSpace s = '{' :: q) (h : MembersTo true q ms r) :
    Draft.ofText s = (.object ms .closed, some r) := by
  obtain ⟨fuel, hf⟩ := h
  refine @ofText_of_readDraft (fuel + 1) _ _ _ ?_
  rw [readDraft_object fuel hs, hf]

theorem ofText_leaf (hs : skipSpace s = c :: q) (ha : c ≠ '[') (ho : c ≠ '{') : Draft.ofText s = leafDraft c q :=
  readDraft_leaf _ hs ha ho

theorem itemsTo_close (hs : skipSpace s = ']' :: r) : ItemsTo first s [] r :=
  ⟨1, by simp [readItems_succ, itemEntry, hs, Entry.read]⟩

theorem membersTo_close (hs : skipSpace s = '}' :: r) : MembersTo first s [] r :=
  ⟨1, by simp [readMembers_succ, memberEntry, hs, Entry.read]⟩

/-- One more item in front. -/
theorem ItemsTo.part (he : itemEntry first s = .part t) (hd : Draft.ofText t = (d, some rest))
    (h : ItemsTo false rest ds r) : ItemsTo first s (d :: ds) r := by
  obtain ⟨fuel, hf⟩ := h
  refine ⟨fuel + (2 * t.length + 2) + 1, ?_⟩
  have ht : readDraft (fuel + (2 * t.length + 2)) t = (d, some rest) := by
    rw [readDraft_fuel (by omega), hd]
  rw [readItems_succ, he, Entry.read, itemAt_of_some ht, readItems_more hf]

/-- One more member in front. -/
theorem MembersTo.part (he : memberEntry first s = .part t) (hn : memberName t = (k, .ok q))
    (hd : Draft.ofText q = (d, some rest)) (h : MembersTo false rest ms r) : MembersTo first s ((k, d) :: ms) r := by
  obtain ⟨fuel, hf⟩ := h
  refine ⟨fuel + (2 * q.length + 2) + 1, ?_⟩
  have hq : readDraft (fuel + (2 * q.length + 2)) q = (d, some rest) := by
    rw [readDraft_fuel (by omega), hd]
  simp only [readMembers_succ, he, Entry.read, hn, memberAt_of_some k hq, readMembers_more hf]

/-- An item behind blanks, be it the first or behind a comma. -/
theorem ItemsTo.spaced {gap : List Char} (hg : ∀ c ∈ gap, isSpace c = true) (hc : isSpace c = false) (hb : c ≠ ']')
    (hd : Draft.ofText (c :: q) = (d, some rest)) (h : ItemsTo false rest ds r) :
    ItemsTo true (gap ++ c :: q) (d :: ds) r ∧ ItemsTo false (',' :: (gap ++ c :: q)) (d :: ds) r := by
  have hs : skipSpace (gap ++ c :: q) = c :: q := by
    rw [skipSpace_blank_append hg, skipSpace_cons hc]
  refine ⟨.part ?_ hd h, .part ?_ hd h⟩
  · simp [itemEntry, hs, hb]
  · simp [itemEntry, skipSpace_cons (show isSpace ',' = false from rfl), hs, hb]

theorem ofText_blank_append {ws : List Char} (hw : ∀ c ∈ ws, isSpace c = true) (h : Draft.ofText s = (d, some r)) :
    Draft.ofText (ws ++ s) = (d, some r) := by
  refine @ofText_of_readDraft (2 * s.length + 2) _ _ _ ?_
  rw [← readDraft_skipSpace, skipSpace_blank_append hw, readDraft_skipSpace]
  exact h

theorem memberName_stringText (k : String) (v : List Char) :
    memberName (k.toList.flatMap escapeChar ++ '"' :: ':' :: v) = (.ok k.toList, .ok v) := by
  simp [memberName, scanLiteral_escaped, skipSpace_cons, isSpace]

/-- A member behind blanks, be it the first or behind a comma. -/
theorem MembersTo.spaced {gap pad : List Char} (hg : ∀ c ∈ gap, isSpace c = true) (hp : ∀ c ∈ pad, isSpace c = true)
    (k : String) (hd : Draft.ofText t = (d, some rest)) (h : MembersTo false rest ms r) :
    MembersTo true (gap ++ (stringText k ++ ':' :: (pad ++ t))) ((.ok k.toList, d) :: ms) r
      ∧ MembersTo false (',' :: (gap ++ (stringText k ++ ':' :: (pad ++ t)))) ((.ok k.toList, d) :: ms) r := by
  have ht : stringText k ++ ':' :: (pad ++ t) = '"' :: (k.toList.flatMap escapeChar ++ '"' :: ':' :: (pad ++ t)) := by
    simp [stringText]
  have hs : skipSpace (gap ++ (stringText k ++ ':' :: (pad ++ t)))
      = '"' :: (k.toList.flatMap escapeChar ++ '"' :: ':' :: (pad ++ t)) := by
    rw [skipSpace_blank_append hg, ht, skipSpace_cons rfl]
  have hn := memberName_stringText k (pad ++ t)
  have hd := ofText_blank_append hp hd
  refine ⟨.part ?_ hn hd h, .part ?_ hn hd h⟩
  · simp [memberEntry, hs]
  · simp [memberEntry, skipSpace_cons (show isSpace ',' = false from rfl), hs]

end

/-! ### The text of a value -/

theorem undigit_cons {c : Char} (h : c.isDigit = false ∧ c ≠ '.' ∧ c ≠ 'e' ∧ c ≠ 'E') (r : List Char) :
    Undigit (c :: r) := by
  intro d hd
  obtain rfl : c = d := by simpa using hd
  exact h

/-- No numeral goes on behind blanks. -/
theorem undigit_blank_append {ws s : List Char} (hw : ∀ c ∈ ws, isSpace c = true) (hs : Undigit s) :
    Undigit (ws ++ s) := by
  rcases ws with _ | ⟨c, ws⟩
  · exact hs
  · have hc : isSpace c = true := hw c List.mem_cons_self
    simp only [isSpace, Bool.or_eq_true, beq_iff_eq] at hc
    refine undigit_cons ?_ _
    rcases hc with ((rfl | rfl) | rfl) | rfl <;> decide

theorem toList_jsonText_zero : (Decimal.jsonText (-0.0)).toList = ['-', '0', '.', '0'] := by
  have h : Decimal.jsonText (-0.0) = "-0.0" := by decide +kernel
  rw [h]
  rfl

section
variable {r : List Char}

/-- The first character of a numeral is none of those that other values start with. -/
theorem ne_of_numeral {c x : Char} (h : c = '-' ∨ c.isDigit = true) (hx : x ≠ '-') (hd : x.isDigit = false) :
    c ≠ x := by
  rintro rfl
  rcases h with h | h
  · exact hx h
  · rw [h] at hd
    cases hd

theorem isSpace_of_numeral {c : Char} (h : c = '-' ∨ c.isDigit = true) : isSpace c = false := by
  simp [isSpace, ne_of_numeral h (x := ' ') (by decide) rfl, ne_of_numeral h (x := '\n') (by decide) rfl,
    ne_of_numeral h (x := '\t') (by decide) rfl, ne_of_numeral h (x := '\r') (by decide) rfl]

theorem leafDraft_numeral {c : Char} (h : c = '-' ∨ c.isDigit = true) (q : List Char) :
    leafDraft c q = numeralDraft (scanNumeral (c :: q)) := by
  have hd : (c == '-' || c.isDigit) = true := by simpa using h
  simp only [leafDraft, hd, if_true]
  simp [ne_of_numeral h (x := 'n') (by decide) rfl, ne_of_numeral h (x := 't') (by decide) rfl,
    ne_of_numeral h (x := 'f') (by decide) rfl]

/-- A numeral is read to its end. -/
theorem ofText_numeral {c : Char} {q : List Char} {n : Numeral} (hc : c = '-' ∨ c.isDigit = true)
    (h : scanNumeral (c :: q ++ r) = .ok (n, r)) : Draft.ofText (c :: q ++ r) = (.number n, some r) := by
  rw [List.cons_append] at h ⊢
  rw [ofText_leaf (skipSpace_cons (isSpace_of_numeral hc) _) (ne_of_numeral hc (by decide) rfl)
    (ne_of_numeral hc (by decide) rfl), leafDraft_numeral hc, h]
  rfl

theorem integerText_start (n : Int) : ∃ c q, integerText n = c :: q ∧ (c = '-' ∨ c.isDigit = true) := by
  by_cases hn : n < 0
  · exact ⟨'-', Decimal.digitsOf n.natAbs, by simp [integerText, Decimal.signText, hn], .inl rfl⟩
  · obtain ⟨d, ds, hd⟩ := List.exists_cons_of_ne_nil (Decimal.digitsOf_ne_nil n.natAbs)
    refine ⟨d, ds, by simp [integerText, Decimal.signText, hn, hd], .inr ?_⟩
    exact Decimal.isDigit_of_mem_digitsOf (n := n.natAbs) (by simp [hd])

/-- The text of a number is read as that number. -/
theorem ofText_integer (n : Int) (hr : Undigit r) :
    Draft.ofText (integerText n ++ r) = (.number (integerNumeral n), some r) := by
  obtain ⟨c, q, ht, hc⟩ := integerText_start n
  have hscan := scanNumeral_integerText n hr
  rw [ht] at hscan ⊢
  exact ofText_numeral hc hscan

/-- The numeral that is written for zero with a sign. -/
def zeroNumeral : Numeral := ⟨true, ['0'], some ['0'], none⟩

theorem ofText_zero (hr : Undigit r) :
    Draft.ofText ((Decimal.jsonText (-0.0)).toList ++ r) = (.number zeroNumeral, some r) := by
  have hscan : scanNumeral ['-', '0', '.', '0'] = .ok (zeroNumeral, []) := rfl
  rw [toList_jsonText_zero]
  exact ofText_numeral (.inl rfl) (by simpa using scanNumeral_append hscan (.inr hr))

theorem draft_zero : (Value.double (-0.0)).draft = .number zeroNumeral := by
  rw [Value.draft, toList_jsonText_zero]
  rfl

/-- How the text of a value starts. -/
theorem Value.spell_start (l : Layout) (depth : Nat) {v : Value} (h : v.Integral) :
    ∃ c q, v.spell l depth = c :: q ∧ isSpace c = false ∧ c ≠ ']' := by
  cases v with
  | null => exact ⟨'n', _, rfl, rfl, by decide⟩
  | bool b => cases b <;> exact ⟨_, _, rfl, rfl, by decide⟩
  | integer n =>
    obtain ⟨c, q, ht, hc⟩ := integerText_start n
    exact ⟨c, q, ht, isSpace_of_numeral hc, ne_of_numeral hc (by decide) rfl⟩
  | double x =>
    obtain rfl : x = -0.0 := h
    exact ⟨'-', ['0', '.', '0'], toList_jsonText_zero, rfl, by decide⟩
  | string s => exact ⟨'"', _, rfl, rfl, by decide⟩
  | array vs =>
    cases vs with
    | nil => exact ⟨'[', [']'], rfl, rfl, by decide⟩
    | cons v vs => exact ⟨'[', _, spell_items l depth v vs, rfl, by decide⟩
  | object ms =>
    cases ms with
    | nil => exact ⟨'{', ['}'], rfl, rfl, by decide⟩
    | cons m ms => exact ⟨'{', _, spell_members l depth m ms, rfl, by decide⟩

end

mutual

/-- The text of a value is read to its end, in any layout and whatever follows it. -/
theorem Value.ofText_spell (l : Layout) : ∀ (v : Value) (depth : Nat) (r : List Char), v.Integral → Undigit r →
    Draft.ofText (v.spell l depth ++ r) = (v.draft, some r)
  | .null, _, r, _, _ => ofText_leaf (skipSpace_cons rfl _) (by decide) (by decide)
  | .bool true, _, r, _, _ => ofText_leaf (skipSpace_cons rfl _) (by decide) (by decide)
  | .bool false, _, r, _, _ => ofText_leaf (skipSpace_cons rfl _) (by decide) (by decide)
  | .integer n, _, r, _, hr => ofText_integer n hr
  | .double x, _, r, h, hr => by
    obtain rfl : x = -0.0 := h
    rw [draft_zero]
    exact ofText_zero hr
  | .string s, _, r, _, _ => readDraft_stringText _ s r
  | .array [], _, r, _, _ => ofText_array (skipSpace_cons rfl _) (itemsTo_close (skipSpace_cons rfl _))
  | .object [], _, r, _, _ => ofText_object (skipSpace_cons rfl _) (membersTo_close (skipSpace_cons rfl _))
  | .array (v :: vs), depth, r, h, _ => by
    have hi := (itemsTo_spell l (v :: vs) (depth + 1) (l.gap depth) r (List.cons_ne_nil v vs) h (l.blank_gap depth)).1
    rw [spell_items]
    simpa [Value.draft] using ofText_array (skipSpace_cons rfl _) hi
  | .object (m :: ms), depth, r, h, _ => by
    have hm := (membersTo_spell l (m :: ms) (depth + 1) (l.gap depth) r (List.cons_ne_nil m ms) h
      (l.blank_gap depth)).1
    rw [spell_members]
    simpa [Value.draft] using ofText_object (skipSpace_cons rfl _) hm

/-- Items are read to their closing bracket, be they the first ones or behind a comma. -/
theorem itemsTo_spell (l : Layout) : ∀ (vs : List Value) (depth : Nat) (w r : List Char), vs ≠ [] →
    IntegralItems vs → (∀ c ∈ w, isSpace c = true) →
    ItemsTo true (spellItems l depth vs ++ (w ++ ']' :: r)) (itemDrafts vs) r
      ∧ ItemsTo false (',' :: (spellItems l depth vs ++ (w ++ ']' :: r))) (itemDrafts vs) r
  | [], _, _, _, hne, _, _ => absurd rfl hne
  | [v], depth, w, r, _, h, hw => by
    have hr : Undigit (w ++ ']' :: r) := undigit_blank_append hw (undigit_cons (by decide) r)
    have hd := Value.ofText_spell l v depth (w ++ ']' :: r) h.1 hr
    have hclose : ItemsTo false (w ++ ']' :: r) [] r :=
      itemsTo_close (by rw [skipSpace_blank_append hw, skipSpace_cons rfl])
    obtain ⟨c, q, hs, hc, hb⟩ := Value.spell_start l depth h.1
    rw [hs, List.cons_append] at hd
    rw [spellItems_one, hs]
    simpa [itemDrafts] using ItemsTo.spaced (l.blank_gap depth) hc hb hd hclose
  | v :: v' :: vs, depth, w, r, _, h, hw => by
    have hmore := (itemsTo_spell l (v' :: vs) depth w r (List.cons_ne_nil v' vs) h.2 hw).2
    have hd := Value.ofText_spell l v depth (',' :: (spellItems l depth (v' :: vs) ++ (w ++ ']' :: r))) h.1
      (undigit_cons (by decide) _)
    obtain ⟨c, q, hs, hc, hb⟩ := Value.spell_start l depth h.1
    rw [hs, List.cons_append] at hd
    rw [spellItems_cons, hs]
    simpa [itemDrafts] using ItemsTo.spaced (l.blank_gap depth) hc hb hd hmore

/-- Members are read to their closing brace, be they the first ones or behind a comma. -/
theorem membersTo_spell (l : Layout) : ∀ (ms : List (String × Value)) (depth : Nat) (w r : List Char), ms ≠ [] →
    IntegralMembers ms → (∀ c ∈ w, isSpace c = true) →
    MembersTo true (spellMembers l depth ms ++ (w ++ '}' :: r)) (memberDrafts ms) r
      ∧ MembersTo false (',' :: (spellMembers l depth ms ++ (w ++ '}' :: r))) (memberDrafts ms) r
  | [], _, _, _, hne, _, _ => absurd rfl hne
  | [(k, v)], depth, w, r, _, h, hw => by
    have hr : Undigit (w ++ '}' :: r) := undigit_blank_append hw (undigit_cons (by decide) r)
    have hd := Value.ofText_spell l v depth (w ++ '}' :: r) h.1 hr
    have hclose : MembersTo false (w ++ '}' :: r) [] r :=
      membersTo_close (by rw [skipSpace_blank_append hw, skipSpace_cons rfl])
    rw [spellMembers_one]
    simpa [memberDrafts] using MembersTo.spaced (l.blank_gap depth) l.blank_pad k hd hclose
  | (k, v) :: m :: ms, depth, w, r, _, h, hw => by
    have hmore := (membersTo_spell l (m :: ms) depth w r (List.cons_ne_nil m ms) h.2 hw).2
    have hd := Value.ofText_spell l v depth (',' :: (spellMembers l depth (m :: ms) ++ (w ++ '}' :: r))) h.1
      (undigit_cons (by decide) _)
    rw [spellMembers_cons]
    simpa [memberDrafts] using MembersTo.spaced (l.blank_gap depth) l.blank_pad k hd hmore

end

end Captioning.Json
