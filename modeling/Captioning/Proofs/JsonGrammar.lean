import Captioning.Proofs.JsonSpelling
/-!
# The grammar of JSON texts

A value is written as a tree of tokens (`Tree`): words, numerals and strings as they are spelled, with brackets, commas
and colons around them. A text of it has these tokens in order, each behind blanks or none (`Laid`). Here the grammar is
stated apart from the reader, and the reader is shown to take just the strings and numerals that it allows
(`IsInside.rest_scanLiteral`, `inside_of_scanLiteral`, `IsNumeral.scanNumeral`, `numeral_of_scanNumeral`). What a string
spells is what it is read as (`Spells.scanLiteral_eq`, `spelledBehind_of_scanLiteral`).
-/

namespace Captioning.Json

/-! ## Tokens -/

/-- Some digits. -/
structure IsDigits (s : List Char) : Prop where
  ne_nil : s ≠ []
  digit : ∀ c ∈ s, c.isDigit = true

/-- Digits without a zero in front of others. -/
structure IsWhole (s : List Char) : Prop where
  digits : IsDigits s
  zero : s.head? = some '0' → s = ['0']

/-- Digits behind a point, or nothing. -/
inductive IsPart : List Char → Prop
  | none : IsPart []
  | point {ds : List Char} : IsDigits ds → IsPart ('.' :: ds)

/-- Digits behind the mark of an exponent and maybe a sign, or nothing. -/
inductive IsExponent : List Char → Prop
  | none : IsExponent []
  | mark {e : Char} {sign ds : List Char} : e = 'e' ∨ e = 'E' → sign = [] ∨ sign = ['+'] ∨ sign = ['-'] →
      IsDigits ds → IsExponent (e :: (sign ++ ds))

/-- A number as it may be written. -/
inductive IsNumeral : List Char → Prop
  | plain {whole part exponent : List Char} : IsWhole whole → IsPart part → IsExponent exponent →
      IsNumeral (whole ++ (part ++ exponent))
  | negative {whole part exponent : List Char} : IsWhole whole → IsPart part → IsExponent exponent →
      IsNumeral ('-' :: (whole ++ (part ++ exponent)))

/-- What may stand between the quotes of a string, be it a text or not. -/
inductive IsInside : List Char → Prop
  | done : IsInside []
  | plain {c : Char} {s : List Char} : c ≠ '"' → c ≠ '\\' → 0x20 ≤ c.toNat → IsInside s → IsInside (c :: s)
  | escape {e x : Char} {s : List Char} : plainEscape? e = some x → IsInside s → IsInside ('\\' :: e :: s)
  | number {a b c d : Char} {n : Nat} {s : List Char} : hexFour? a b c d = some n → IsInside s →
      IsInside ('\\' :: 'u' :: a :: b :: c :: d :: s)

/-- The text that is spelled between the quotes of a string. Half of a surrogate pair spells none. -/
inductive Spells : List Char → List Char → Prop
  | done : Spells [] []
  | plain {c : Char} {s t : List Char} : c ≠ '"' → c ≠ '\\' → 0x20 ≤ c.toNat → Spells s t → Spells (c :: s) (c :: t)
  | escape {e x : Char} {s t : List Char} : plainEscape? e = some x → Spells s t → Spells ('\\' :: e :: s) (x :: t)
  | number {a b c d : Char} {n : Nat} {s t : List Char} : hexFour? a b c d = some n → isLead n = false →
      isTrail n = false → Spells s t → Spells ('\\' :: 'u' :: a :: b :: c :: d :: s) (Char.ofNat n :: t)
  | pair {a b c d a' b' c' d' : Char} {m n : Nat} {s t : List Char} : hexFour? a b c d = some m → isLead m = true →
      hexFour? a' b' c' d' = some n → isTrail n = true → Spells s t →
      Spells ('\\' :: 'u' :: a :: b :: c :: d :: '\\' :: 'u' :: a' :: b' :: c' :: d' :: s) (pairChar m n :: t)

/-- The text of a value without parts. -/
inductive IsLeaf : List Char → Prop
  | word {w : List Char} : w ∈ ["null".toList, "true".toList, "false".toList] → IsLeaf w
  | numeral {s : List Char} : IsNumeral s → IsLeaf s
  | string {s : List Char} : IsInside s → IsLeaf ('"' :: (s ++ ['"']))

/-- A value without parts, as it is spelled. -/
structure Leaf where
  text : List Char
  isLeaf : IsLeaf text

/-- The name of a member, as it is spelled. -/
structure Name where
  inside : List Char
  isInside : IsInside inside

/-- The name with its quotes. -/
def Name.text (k : Name) : List Char := '"' :: (k.inside ++ ['"'])

/-- The name is spelled so. -/
def Name.Is (k : Name) (s : String) : Prop := Spells k.inside s.toList

/-! ## Trees and their texts -/

/-- A value as it is spelled, apart from the blanks. -/
inductive Tree
  | leaf (l : Leaf)
  | array (items : List Tree)
  | object (members : List (Name × Tree))

/-- The comma in front of all parts but the first. -/
def comma (first : Bool) : List (List Char) := if first then [] else [[',']]

mutual

/-- The tokens of a value in order. -/
def Tree.tokens : Tree → List (List Char)
  | .leaf l => [l.text]
  | .array items => ['['] :: (itemTokens true items ++ [[']']])
  | .object members => ['{'] :: (memberTokens true members ++ [['}']])

/-- The tokens of items, which may be the first of a list. -/
def itemTokens (first : Bool) : List Tree → List (List Char)
  | [] => []
  | t :: more => comma first ++ (t.tokens ++ itemTokens false more)

/-- The tokens of members, which may be the first of an object. -/
def memberTokens (first : Bool) : List (Name × Tree) → List (List Char)
  | [] => []
  | (k, t) :: more => comma first ++ (k.text :: [':'] :: (t.tokens ++ memberTokens false more))

end

/-- Nothing but blanks. -/
def Blank (s : List Char) : Prop := ∀ c ∈ s, isSpace c = true

instance (s : List Char) : Decidable (Blank s) := decidable_of_iff (s.all isSpace = true) List.all_eq_true

theorem blank_nil : Blank [] := fun _ hc => absurd hc List.not_mem_nil

/-- A text has some tokens in order, each of them behind blanks or none. -/
inductive Laid : List (List Char) → List Char → Prop
  | nil : Laid [] []
  | cons {gap token : List Char} {tokens : List (List Char)} {s : List Char} : Blank gap → Laid tokens s →
      Laid (token :: tokens) (gap ++ (token ++ s))

/-- A text has the tokens of a value, with any blanks between and around them. -/
def Tree.IsText (t : Tree) (s : List Char) : Prop := ∃ laid gap, Laid t.tokens laid ∧ Blank gap ∧ s = laid ++ gap

section
variable {token : List Char} {tokens more : List (List Char)} {s : List Char}

theorem laid_nil : Laid [] s ↔ s = [] := by
  constructor
  · rintro ⟨⟩
    rfl
  · rintro rfl
    exact .nil

theorem laid_cons : Laid (token :: tokens) s ↔ ∃ gap r, Blank gap ∧ Laid tokens r ∧ s = gap ++ (token ++ r) := by
  constructor
  · rintro (_ | ⟨hg, hr⟩)
    exact ⟨_, _, hg, hr, rfl⟩
  · rintro ⟨gap, r, hg, hr, rfl⟩
    exact .cons hg hr

theorem laid_append : Laid (tokens ++ more) s ↔ ∃ a b, Laid tokens a ∧ Laid more b ∧ s = a ++ b := by
  induction tokens generalizing s with
  | nil => simp [laid_nil]
  | cons token tokens ih =>
    rw [List.cons_append, laid_cons]
    constructor
    · rintro ⟨gap, r, hg, hr, rfl⟩
      obtain ⟨a, b, ha, hb, rfl⟩ := ih.1 hr
      exact ⟨gap ++ (token ++ a), b, .cons hg ha, hb, by simp⟩
    · rintro ⟨a', b, ha', hb, rfl⟩
      obtain ⟨gap, a, hg, ha, rfl⟩ := laid_cons.1 ha'
      exact ⟨gap, a ++ b, hg, ih.2 ⟨a, b, ha, hb, rfl⟩, by simp⟩

theorem laid_singleton : Laid [token] s ↔ ∃ gap, Blank gap ∧ s = gap ++ token := by
  rw [laid_cons]
  simp [laid_nil]

/-- Tokens between brackets. -/
theorem laid_bracketed {opening closing : List Char} : Laid (opening :: (tokens ++ [closing])) s
    ↔ ∃ gap inner pad, Blank gap ∧ Laid tokens inner ∧ Blank pad ∧ s = gap ++ (opening ++ (inner ++ (pad ++ closing))) := by
  rw [laid_cons]
  constructor
  · rintro ⟨gap, r, hg, hr, rfl⟩
    obtain ⟨inner, b, hi, hb, rfl⟩ := laid_append.1 hr
    obtain ⟨pad, hp, rfl⟩ := laid_singleton.1 hb
    exact ⟨gap, inner, pad, hg, hi, hp, rfl⟩
  · rintro ⟨gap, inner, pad, hg, hi, hp, rfl⟩
    exact ⟨gap, _, hg, laid_append.2 ⟨inner, _, hi, laid_singleton.2 ⟨pad, hp, rfl⟩, rfl⟩, rfl⟩

end

/-! ## Strings -/

section
variable {s t r : List Char}

theorem rest_scanLiteral_number {a b c d : Char} {n : Nat} (h : hexFour? a b c d = some n) (q : List Char) :
    (scanLiteral none ('\\' :: 'u' :: a :: b :: c :: d :: q)).rest = (scanLiteral none q).rest := by
  by_cases ht : isTrail n = true
  · rw [scanLiteral_trail h ht, Literal.rest_objecting]
  by_cases hl : isLead n = true
  · rw [scanLiteral_lead none h ht hl, Literal.rest_settle, rest_scanLiteral]
  · rw [scanLiteral_number none h ht hl, Literal.rest_settle, Literal.rest_push]

theorem not_beq_of_plainEscape? {e x : Char} (h : plainEscape? e = some x) : ¬ (e == 'u') = true := by
  intro he
  rw [eq_of_beq he] at h
  cases h

/-- A string ends at its closing quote. -/
theorem IsInside.rest_scanLiteral (h : IsInside s) (r : List Char) : (scanLiteral none (s ++ '"' :: r)).rest = .ok r := by
  induction h with
  | done => rw [List.nil_append, scanLiteral_quote, Literal.rest_settle]
  | plain hq hb hc _ ih =>
    rw [List.cons_append, scanLiteral_plain none (by simpa using hq) (by simpa using hb) (by omega), Literal.rest_settle,
      Literal.rest_push, ih]
  | escape hx _ ih =>
    rw [List.cons_append, List.cons_append, scanLiteral_escape none (not_beq_of_plainEscape? hx) hx, Literal.rest_settle,
      Literal.rest_push, ih]
  | number hx _ ih =>
    simp only [List.cons_append]
    rw [rest_scanLiteral_number hx, ih]

/-- A string that spells a text is read as that text. -/
theorem Spells.scanLiteral_eq (h : Spells s t) (r : List Char) : scanLiteral none (s ++ '"' :: r) = ⟨.ok t, .ok r⟩ := by
  induction h with
  | done => exact scanLiteral_quote none r
  | plain hq hb hc _ ih =>
    rw [List.cons_append, scanLiteral_plain none (by simpa using hq) (by simpa using hb) (by omega), ih]
    rfl
  | escape hx _ ih =>
    rw [List.cons_append, List.cons_append, scanLiteral_escape none (not_beq_of_plainEscape? hx) hx, ih]
    rfl
  | number hx hl ht _ ih =>
    simp only [List.cons_append]
    rw [scanLiteral_number none hx (by simp [ht]) (by simp [hl]), ih]
    rfl
  | pair hx hl hx' ht _ ih =>
    have hlead {m : Nat} (h : isLead m = true) : ¬ isTrail m = true := by
      simp only [isLead, isTrail, Bool.and_eq_true, decide_eq_true_eq] at h ⊢
      omega
    simp only [List.cons_append]
    rw [scanLiteral_lead none hx (hlead hl) hl, scanLiteral_pair hx' ht, ih]
    rfl

theorem inside_number {a b c d : Char} {n : Nat} (hx : hexFour? a b c d = some n)
    (h : ∃ inside, IsInside inside ∧ s = inside ++ '"' :: r) :
    ∃ inside, IsInside inside ∧ '\\' :: 'u' :: a :: b :: c :: d :: s = inside ++ '"' :: r := by
  obtain ⟨inside, hi, rfl⟩ := h
  exact ⟨_, .number hx hi, rfl⟩

/-- What ends as a string is one. -/
theorem inside_of_scanLiteral {lead : Option Nat} (h : (scanLiteral lead s).rest = .ok r) :
    ∃ inside, IsInside inside ∧ s = inside ++ '"' :: r := by
  fun_induction scanLiteral lead s with
  | case2 lead c t hc =>
    obtain rfl : c = '"' := by simpa using hc
    obtain rfl : t = r := by simpa using h
    exact ⟨[], .done, rfl⟩
  | case5 c hq hb e he a b c' d t m hx hm n ih =>
    obtain ⟨rfl, rfl⟩ : c = '\\' ∧ e = 'u' := by simpa using And.intro hb he
    exact inside_number hx (ih (by simpa using h))
  | case6 c hq hb e he a b c' d t m hx hm ih =>
    obtain ⟨rfl, rfl⟩ : c = '\\' ∧ e = 'u' := by simpa using And.intro hb he
    exact inside_number hx (ih (by simpa using h))
  | case7 lead c hq hb e he a b c' d t m hx hm hl ih =>
    obtain ⟨rfl, rfl⟩ : c = '\\' ∧ e = 'u' := by simpa using And.intro hb he
    exact inside_number hx (ih (by simpa using h))
  | case8 lead c hq hb e he a b c' d t m hx hm hl ih =>
    obtain ⟨rfl, rfl⟩ : c = '\\' ∧ e = 'u' := by simpa using And.intro hb he
    exact inside_number hx (ih (by simpa using h))
  | case10 lead c hq hb e q he x hx ih =>
    obtain rfl : c = '\\' := by simpa using hb
    obtain ⟨inside, hi, rfl⟩ := ih (by simpa using h)
    exact ⟨_, .escape hx hi, rfl⟩
  | case13 lead c q hq hb hc ih =>
    obtain ⟨inside, hi, rfl⟩ := ih (by simpa using h)
    exact ⟨_, .plain (by simpa using hq) (by simpa using hb) (by omega) hi, rfl⟩
  | _ => simp at h

/-- What is read as a text is spelled so, be it from the opening quote on or behind half of a surrogate pair. -/
def SpelledBehind (lead : Option Nat) (s t r : List Char) : Prop :=
  match lead with
  | none => ∃ inside, Spells inside t ∧ s = inside ++ '"' :: r
  | some m => ∃ a b c d n inside more, hexFour? a b c d = some n ∧ isTrail n = true ∧ Spells inside more
    ∧ s = '\\' :: 'u' :: a :: b :: c :: d :: (inside ++ '"' :: r) ∧ t = pairChar m n :: more

theorem Literal.content_settle_eq_ok {lead : Option Nat} {l : Literal} :
    (l.settle lead s).content = .ok t ↔ lead = none ∧ l.content = .ok t := by
  cases lead <;> simp [Literal.settle, Literal.objecting]

theorem Literal.content_push_eq_ok {c : Char} {l : Literal} :
    (l.push c).content = .ok t ↔ ∃ q, l.content = .ok q ∧ t = c :: q := by
  cases h : l.content <;> simp [Literal.push, h, Except.map, eq_comm]

theorem spelledBehind_of_scanLiteral {lead : Option Nat} (h : (scanLiteral lead s).rest = .ok r)
    (ht : (scanLiteral lead s).content = .ok t) : SpelledBehind lead s t r := by
  fun_induction scanLiteral lead s generalizing t with
  | case2 lead c q hc =>
    obtain rfl : c = '"' := by simpa using hc
    obtain rfl : q = r := by simpa using h
    obtain ⟨rfl, ht⟩ := Literal.content_settle_eq_ok.1 ht
    obtain rfl := Except.ok.inj ht
    exact ⟨[], .done, rfl⟩
  | case5 c hq hb e he a b c' d q m hx hm n ih =>
    obtain ⟨rfl, rfl⟩ : c = '\\' ∧ e = 'u' := by simpa using And.intro hb he
    obtain ⟨more, hmore, rfl⟩ := Literal.content_push_eq_ok.1 ht
    obtain ⟨inside, hi, rfl⟩ := ih (by simpa using h) hmore
    exact ⟨a, b, c', d, m, inside, more, hx, hm, hi, rfl, rfl⟩
  | case6 c hq hb e he a b c' d q m hx hm ih => simp [Literal.objecting] at ht
  | case7 lead c hq hb e he a b c' d q m hx hm hl ih =>
    obtain ⟨rfl, rfl⟩ : c = '\\' ∧ e = 'u' := by simpa using And.intro hb he
    obtain ⟨rfl, ht⟩ := Literal.content_settle_eq_ok.1 ht
    obtain ⟨a', b', c'', d', n, inside, more, hx', hn, hi, rfl, rfl⟩ := ih (by simpa using h) ht
    exact ⟨_, .pair hx hl hx' hn hi, rfl⟩
  | case8 lead c hq hb e he a b c' d q m hx hm hl ih =>
    obtain ⟨rfl, rfl⟩ : c = '\\' ∧ e = 'u' := by simpa using And.intro hb he
    obtain ⟨rfl, ht⟩ := Literal.content_settle_eq_ok.1 ht
    obtain ⟨more, hmore, rfl⟩ := Literal.content_push_eq_ok.1 ht
    obtain ⟨inside, hi, rfl⟩ := ih (by simpa using h) hmore
    exact ⟨_, .number hx (by simpa using hl) (by simpa using hm) hi, rfl⟩
  | case10 lead c hq hb e q he x hx ih =>
    obtain rfl : c = '\\' := by simpa using hb
    obtain ⟨rfl, ht⟩ := Literal.content_settle_eq_ok.1 ht
    obtain ⟨more, hmore, rfl⟩ := Literal.content_push_eq_ok.1 ht
    obtain ⟨inside, hi, rfl⟩ := ih (by simpa using h) hmore
    exact ⟨_, .escape hx hi, rfl⟩
  | case13 lead c q hq hb hc ih =>
    obtain ⟨rfl, ht⟩ := Literal.content_settle_eq_ok.1 ht
    obtain ⟨more, hmore, rfl⟩ := Literal.content_push_eq_ok.1 ht
    obtain ⟨inside, hi, rfl⟩ := ih (by simpa using h) hmore
    exact ⟨_, .plain (by simpa using hq) (by simpa using hb) (by omega) hi, rfl⟩
  | _ => simp at h

end

/-! ## Numerals -/

section
variable {s r : List Char}

theorem IsPart.head (h : IsPart s) (hr : ∀ c ∈ r.head?, c.isDigit = false) :
    ∀ c ∈ (s ++ r).head?, c.isDigit = false := by
  cases h with
  | none => exact hr
  | point hd =>
    intro c hc
    obtain rfl : '.' = c := by simpa using hc
    rfl

theorem IsExponent.head (h : IsExponent s) (hr : Undigit r) :
    ∀ c ∈ (s ++ r).head?, c.isDigit = false ∧ c ≠ '.' := by
  cases h with
  | none => exact fun c hc => ⟨(hr c hc).1, (hr c hc).2.1⟩
  | mark he hs hd =>
    intro c hc
    rw [List.cons_append, List.head?_cons] at hc
    obtain rfl := Option.some.inj hc
    rcases he with rfl | rfl <;> decide

theorem IsWhole.scanWhole (h : IsWhole s) (hr : ∀ c ∈ r.head?, c.isDigit = false) :
    Json.scanWhole (s ++ r) = .ok (s, r) := by
  rw [scanWhole_eq_ok]
  obtain ⟨c, q, rfl⟩ := List.exists_cons_of_ne_nil h.digits.ne_nil
  by_cases hc : c = '0'
  · subst hc
    obtain rfl : q = [] := List.tail_eq_of_cons_eq (h.zero rfl)
    exact .inl ⟨rfl, rfl, hr⟩
  · exact .inr ⟨c, q ++ r, rfl, hc, h.digits.digit c List.mem_cons_self, Decimal.spanDigits_digits h.digits.digit hr⟩

theorem IsPart.scanPart (h : IsPart s) (hr : ∀ c ∈ r.head?, c.isDigit = false ∧ c ≠ '.') :
    ∃ p, Json.scanPart (s ++ r) = .ok (p, r) := by
  cases h with
  | none => exact ⟨_, scanPart_eq_ok.2 (.inl ⟨fun c hc => (hr c hc).2, rfl, rfl⟩)⟩
  | @point ds hd =>
    have hspan := Decimal.spanDigits_digits hd.digit fun c hc => (hr c hc).1
    refine ⟨some ds, scanPart_eq_ok.2 (.inr ⟨ds ++ r, rfl, ?_⟩)⟩
    rw [hspan]
    exact ⟨hd.ne_nil, rfl, rfl⟩

theorem takeSign_append_digits {sign ds : List Char} (hs : sign = [] ∨ sign = ['+'] ∨ sign = ['-']) (hd : IsDigits ds)
    (r : List Char) : (Decimal.takeSign (sign ++ (ds ++ r))).2 = ds ++ r := by
  rcases hs with rfl | rfl | rfl
  · obtain ⟨c, q, rfl⟩ := List.exists_cons_of_ne_nil hd.ne_nil
    have hc := hd.digit c List.mem_cons_self
    have hm : c ≠ '-' := fun e => by rw [e] at hc; cases hc
    have hp : c ≠ '+' := fun e => by rw [e] at hc; cases hc
    simp [Decimal.takeSign, hm, hp]
  · rfl
  · rfl

theorem IsExponent.scanExponent (h : IsExponent s) (hr : Undigit r) : ∃ x, Json.scanExponent (s ++ r) = .ok (x, r) := by
  cases h with
  | none => exact ⟨_, scanExponent_eq_ok.2 (.inl ⟨fun c hc => (hr c hc).2.2, rfl, rfl⟩)⟩
  | @mark e sign ds he hs hd =>
    have hspan := Decimal.spanDigits_digits hd.digit fun c hc => (hr c hc).1
    have hsign := takeSign_append_digits hs hd r
    refine ⟨_, scanExponent_eq_ok.2 (.inr ⟨e, sign ++ (ds ++ r), by simp, he, ?_, rfl, ?_⟩)⟩
    · rw [hsign, hspan]
      exact hd.ne_nil
    · rw [hsign, hspan]

/-- A numeral is read to its end, if what follows does not go on with it. -/
theorem IsNumeral.scanNumeral (h : IsNumeral s) (hr : Undigit r) : ∃ n, Json.scanNumeral (s ++ r) = .ok (n, r) := by
  have unsigned (b : Bool) {whole part exponent : List Char} (hw : IsWhole whole) (hp : IsPart part)
      (he : IsExponent exponent) : ∃ n, scanUnsigned b (whole ++ (part ++ exponent) ++ r) = .ok (n, r) := by
    have hexponent := he.head hr
    obtain ⟨p, hpart⟩ := hp.scanPart hexponent
    obtain ⟨x, hscan⟩ := he.scanExponent hr
    have hwhole := hw.scanWhole (hp.head fun c hc => (hexponent c hc).1)
    refine ⟨⟨b, whole, p, x⟩, ?_⟩
    simp [scanUnsigned, hwhole, hpart, hscan, bind, Except.bind, pure, Except.pure]
  cases h with
  | plain hw hp he =>
    rw [scanNumeral_other]
    · exact unsigned false hw hp he
    · intro c hc e
      obtain ⟨d, q, rfl⟩ := List.exists_cons_of_ne_nil hw.digits.ne_nil
      obtain rfl : d = c := by simpa using hc
      have hdigit := hw.digits.digit d List.mem_cons_self
      rw [e] at hdigit
      cases hdigit
  | negative hw hp he => exact unsigned true hw hp he

theorem eq_spanDigits_append (s : List Char) : s = (Decimal.spanDigits s).1 ++ (Decimal.spanDigits s).2 :=
  (List.takeWhile_append_dropWhile).symm

theorem isDigits_spanDigits (h : (Decimal.spanDigits s).1 ≠ []) : IsDigits (Decimal.spanDigits s).1 :=
  ⟨h, List.all_eq_true.1 List.all_takeWhile⟩

theorem whole_of_scanWhole {ds : List Char} (h : Json.scanWhole s = .ok (ds, r)) : IsWhole ds ∧ s = ds ++ r := by
  rcases scanWhole_eq_ok.1 h with ⟨rfl, rfl, -⟩ | ⟨c, q, rfl, hc, hd, hs⟩
  · exact ⟨⟨⟨by simp, by simp⟩, fun _ => rfl⟩, rfl⟩
  · have heq := eq_spanDigits_append (c :: q)
    have hfirst : (Decimal.spanDigits (c :: q)).1 = c :: (Decimal.spanDigits q).1 := by simp [Decimal.spanDigits, hd]
    have hdigits := isDigits_spanDigits (s := c :: q) (by simp [hfirst])
    rw [hs] at heq hdigits hfirst
    refine ⟨⟨hdigits, fun hz => absurd ?_ hc⟩, heq⟩
    rw [show ds = _ from hfirst] at hz
    exact Option.some.inj hz

theorem part_of_scanPart {p : Option (List Char)} (h : Json.scanPart s = .ok (p, r)) :
    ∃ part, IsPart part ∧ s = part ++ r := by
  rcases scanPart_eq_ok.1 h with ⟨-, -, rfl⟩ | ⟨q, rfl, hd, -, rfl⟩
  · exact ⟨[], .none, rfl⟩
  · exact ⟨_, .point (isDigits_spanDigits hd), by rw [List.cons_append, ← eq_spanDigits_append]⟩

theorem takeSign_cases (s : List Char) : ∃ sign, (sign = [] ∨ sign = ['+'] ∨ sign = ['-'])
    ∧ s = sign ++ (Decimal.takeSign s).2 := by
  unfold Decimal.takeSign
  split
  · exact ⟨['-'], by simp, rfl⟩
  · exact ⟨['+'], by simp, rfl⟩
  · exact ⟨[], by simp, rfl⟩

theorem exponent_of_scanExponent {x : Option (Bool × List Char)} (h : Json.scanExponent s = .ok (x, r)) :
    ∃ exponent, IsExponent exponent ∧ s = exponent ++ r := by
  rcases scanExponent_eq_ok.1 h with ⟨-, -, rfl⟩ | ⟨e, q, rfl, he, hd, -, rfl⟩
  · exact ⟨[], .none, rfl⟩
  · obtain ⟨sign, hs, hq⟩ := takeSign_cases q
    refine ⟨_, .mark he hs (isDigits_spanDigits hd), ?_⟩
    rw [List.cons_append, List.append_assoc, ← eq_spanDigits_append, ← hq]

/-- What is read as a numeral is one. -/
theorem numeral_of_scanNumeral {n : Numeral} (h : Json.scanNumeral s = .ok (n, r)) :
    ∃ text, IsNumeral text ∧ s = text ++ r := by
  have unsigned {b : Bool} {s : List Char} (h : scanUnsigned b s = .ok (n, r)) :
      ∃ whole part exponent, IsWhole whole ∧ IsPart part ∧ IsExponent exponent
        ∧ s = whole ++ (part ++ exponent) ++ r := by
    obtain ⟨ds, s₁, p, s₂, x, h₁, h₂, h₃, -⟩ := scanUnsigned_eq_ok h
    obtain ⟨hw, rfl⟩ := whole_of_scanWhole h₁
    obtain ⟨part, hp, rfl⟩ := part_of_scanPart h₂
    obtain ⟨exponent, he, rfl⟩ := exponent_of_scanExponent h₃
    exact ⟨ds, part, exponent, hw, hp, he, by simp⟩
  by_cases hm : s.head? = some '-'
  · obtain ⟨q, rfl⟩ := List.head?_eq_some_iff.1 hm
    have h' : scanUnsigned true q = .ok (n, r) := h
    obtain ⟨whole, part, exponent, hw, hp, he, rfl⟩ := unsigned h'
    exact ⟨_, .negative hw hp he, rfl⟩
  · rw [scanNumeral_other fun c hc e => hm (e ▸ hc)] at h
    obtain ⟨whole, part, exponent, hw, hp, he, hs⟩ := unsigned h
    exact ⟨_, .plain hw hp he, hs⟩

end

end Captioning.Json
