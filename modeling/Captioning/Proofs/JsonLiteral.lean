import Captioning.Json.Draft
/-!
# Literals, words and numerals in a longer text

What was read to its end is read alike whatever follows (`scanLiteral_append`, `scanNumeral_append`,
`scanWord_append`). What was not read to its end goes wrong if an object or the end of the line follows,
except that a string may end with the first quote of the object (`scanLiteral_broken`,
`scanNumeral_broken`, `scanWord_broken`).
-/

namespace Captioning.Json

/-! ## What follows -/

/-- Nothing stands in front that goes on with a list or a member, or closes one. -/
def Stray (s : List Char) : Prop :=
  ∀ c ∈ (skipSpace s).head?, c ≠ ',' ∧ c ≠ ':' ∧ c ≠ ']' ∧ c ≠ '}' ∧ c ≠ '"'

/-- Nothing stands in front that goes on with a numeral. -/
def Undigit (u : List Char) : Prop :=
  ∀ c ∈ u.head?, c.isDigit = false ∧ c ≠ '.' ∧ c ≠ 'e' ∧ c ≠ 'E'

/-- A numeral in front of `rest` ends there also when `u` follows. -/
def Apart (rest u : List Char) : Prop :=
  rest ≠ [] ∨ Undigit u

/-- A text starts like the end of a line or like an object. -/
def Opens (u : List Char) : Prop :=
  ∀ c ∈ u.head?, c = '\n' ∨ c = '\r' ∨ c = '{'

theorem opens_cons {c : Char} {u : List Char} : Opens (c :: u) ↔ c = '\n' ∨ c = '\r' ∨ c = '{' := by
  simp [Opens]

theorem Opens.undigit {u : List Char} (h : Opens u) : Undigit u := by
  intro c hc
  rcases h c hc with rfl | rfl | rfl <;> decide

theorem skipSpace_append {s r : List Char} {c : Char} (h : skipSpace s = c :: r) (u : List Char) :
    skipSpace (s ++ u) = c :: (r ++ u) := by
  induction s with
  | nil => simp [skipSpace] at h
  | cons d s ih =>
    unfold skipSpace at *
    by_cases hd : isSpace d = true
    · simp only [List.cons_append, List.dropWhile_cons, hd, if_true] at *
      exact ih h
    · obtain ⟨rfl, rfl⟩ : d = c ∧ s = r := by simpa [hd] using h
      simp [hd]

theorem skipSpace_append_of_nil {s : List Char} (h : skipSpace s = []) (u : List Char) :
    skipSpace (s ++ u) = skipSpace u := by
  induction s with
  | nil => rfl
  | cons c s ih =>
    unfold skipSpace at *
    by_cases hc : isSpace c = true
    · simp only [List.cons_append, List.dropWhile_cons, hc, if_true] at *
      exact ih h
    · simp [hc] at h

theorem skipSpace_length (s : List Char) : (skipSpace s).length ≤ s.length :=
  (List.dropWhile_sublist _).length_le

theorem skipSpace_skipSpace (s : List Char) : skipSpace (skipSpace s) = skipSpace s := by
  induction s with
  | nil => rfl
  | cons c s ih =>
    unfold skipSpace at *
    by_cases hc : isSpace c = true <;> simp [hc, ih]

theorem length_of_skipSpace {s r : List Char} {c : Char} (h : skipSpace s = c :: r) :
    r.length < s.length := by
  have := skipSpace_length s
  rw [h, List.length_cons] at this
  omega

theorem stray_nil : Stray [] := by simp [Stray, skipSpace]

/-! ## Strings -/

@[simp] theorem Literal.rest_fault (f : Fault) : (Literal.fault f).rest = .error f := rfl

@[simp] theorem Literal.rest_push (c : Char) (l : Literal) : (l.push c).rest = l.rest := rfl

@[simp] theorem Literal.rest_objecting (f : Fault) (l : Literal) : (l.objecting f).rest = l.rest := by
  unfold Literal.objecting
  cases h : l.rest <;> simp

@[simp] theorem Literal.rest_settle (lead : Option Nat) (s : List Char) (l : Literal) :
    (l.settle lead s).rest = l.rest := by
  cases lead <;> simp [Literal.settle]

theorem scanLiteral_nil (lead : Option Nat) : scanLiteral lead [] = .fault .endInString := rfl

/-- One step of reading a literal. -/
theorem scanLiteral_cons (lead : Option Nat) (c : Char) (r : List Char) : scanLiteral lead (c :: r)
    = if c == '"' then (Literal.mk (.ok []) (.ok r)).settle lead (c :: r)
      else if c == '\\' then
        match r with
        | [] => .fault .endInString
        | e :: q =>
          if e == 'u' then
            match q with
            | a1 :: a2 :: a3 :: a4 :: t => match hexFour? a1 a2 a3 a4 with
              | none => (Literal.fault (hexFault q)).settle lead (c :: r)
              | some m =>
                if isTrail m then
                  match lead with
                  | some n => (scanLiteral none t).push (pairChar n m)
                  | none => (scanLiteral none t).objecting .loneSurrogate
                else if isLead m then (scanLiteral (some m) t).settle lead (c :: r)
                else ((scanLiteral none t).push (Char.ofNat m)).settle lead (c :: r)
            | _ => (Literal.fault (hexFault q)).settle lead (c :: r)
          else match plainEscape? e with
            | some x => ((scanLiteral none q).push x).settle lead (c :: r)
            | none => (Literal.fault .badEscape).settle lead (c :: r)
      else if c.toNat < 0x20 then (Literal.fault .controlCharacter).settle lead (c :: r)
      else ((scanLiteral none r).push c).settle lead (c :: r) :=
  scanLiteral.eq_def lead (c :: r)

/-- Where a literal ends does not depend on what stands in front of it. -/
theorem rest_scanLiteral (lead : Option Nat) (s : List Char) :
    (scanLiteral lead s).rest = (scanLiteral none s).rest := by
  cases s with
  | nil => rw [scanLiteral_nil, scanLiteral_nil]
  | cons c r =>
    rw [scanLiteral_cons lead, scanLiteral_cons none]
    repeat' split
    all_goals simp_all

theorem scanLiteral_length {lead : Option Nat} {s r : List Char} (h : (scanLiteral lead s).rest = .ok r) :
    r.length < s.length := by
  fun_induction scanLiteral lead s <;> simp_all +arith
  all_goals omega

section
variable (lead : Option Nat)

theorem scanLiteral_quote (r : List Char) :
    scanLiteral lead ('"' :: r) = (Literal.mk (.ok []) (.ok r)).settle lead ('"' :: r) := by
  rw [scanLiteral_cons]
  simp only [beq_self_eq_true, if_true]

theorem scanLiteral_pair {a b c d : Char} {m : Nat} (hx : hexFour? a b c d = some m) (hm : isTrail m = true)
    (n : Nat) (t : List Char) :
    scanLiteral (some n) ('\\' :: 'u' :: a :: b :: c :: d :: t) = (scanLiteral none t).push (pairChar n m) := by
  simp [scanLiteral_cons, hx, hm]

theorem scanLiteral_trail {a b c d : Char} {m : Nat} (hx : hexFour? a b c d = some m) (hm : isTrail m = true)
    (t : List Char) : scanLiteral none ('\\' :: 'u' :: a :: b :: c :: d :: t)
      = (scanLiteral none t).objecting .loneSurrogate := by
  simp [scanLiteral_cons, hx, hm]

theorem scanLiteral_lead {a b c d : Char} {m : Nat} (hx : hexFour? a b c d = some m) (hm : ¬ isTrail m = true)
    (hl : isLead m = true) (t : List Char) : scanLiteral lead ('\\' :: 'u' :: a :: b :: c :: d :: t)
      = (scanLiteral (some m) t).settle lead ('\\' :: 'u' :: a :: b :: c :: d :: t) := by
  simp [scanLiteral_cons, hx, hm, hl]

theorem scanLiteral_number {a b c d : Char} {m : Nat} (hx : hexFour? a b c d = some m)
    (hm : ¬ isTrail m = true) (hl : ¬ isLead m = true) (t : List Char) :
    scanLiteral lead ('\\' :: 'u' :: a :: b :: c :: d :: t)
      = ((scanLiteral none t).push (Char.ofNat m)).settle lead ('\\' :: 'u' :: a :: b :: c :: d :: t) := by
  simp [scanLiteral_cons, hx, hm, hl]

theorem scanLiteral_escape {e x : Char} (he : ¬ (e == 'u') = true) (hx : plainEscape? e = some x)
    (q : List Char) : scanLiteral lead ('\\' :: e :: q)
      = ((scanLiteral none q).push x).settle lead ('\\' :: e :: q) := by
  rw [scanLiteral_cons]
  simp [he, hx]

theorem scanLiteral_plain {c : Char} (hq : ¬ (c == '"') = true) (hb : ¬ (c == '\\') = true)
    (hc : ¬ c.toNat < 0x20) (r : List Char) :
    scanLiteral lead (c :: r) = ((scanLiteral none r).push c).settle lead (c :: r) := by
  rw [scanLiteral_cons]
  simp only [if_neg hq, if_neg hb, if_neg hc]

end

/-- What follows a whole literal does not change the objection to a first half in front of it. -/
theorem leadFault_append {lead : Option Nat} {s r : List Char} (h : (scanLiteral lead s).rest = .ok r)
    (u : List Char) : leadFault (s ++ u) = leadFault s := by
  rw [rest_scanLiteral] at h
  rcases s with _ | ⟨c, _ | ⟨e, q⟩⟩
  · simp [scanLiteral_nil] at h
  · by_cases hc : c = '\\'
    · subst hc; simp [scanLiteral_cons] at h
    · simp [leadFault, hc]
  · by_cases hc : c = '\\'
    · subst hc
      by_cases he : e = 'u'
      · subst he
        rcases q with _ | ⟨a, _ | ⟨b, _ | ⟨c, _ | ⟨d, t⟩⟩⟩⟩ <;> simp [scanLiteral_cons] at h
        simp only [List.cons_append, leadFault]
        cases hx : hexFour? a b c d with
        | none => simp [hx] at h
        | some m => simp
      · simp [leadFault, he]
    · simp [leadFault, hc]

theorem Literal.settle_append {l : Literal} {s s' r u : List Char} (hs : leadFault s' = leadFault s)
    (lead : Option Nat) :
    Literal.settle lead s' ⟨l.content, .ok (r ++ u)⟩ = ⟨(l.settle lead s).content, .ok (r ++ u)⟩ := by
  cases lead with
  | none => rfl
  | some n => simp [Literal.settle, Literal.objecting, hs]

/-- A literal that ends is read alike whatever follows. -/
theorem scanLiteral_append {lead : Option Nat} {s r : List Char} (h : (scanLiteral lead s).rest = .ok r)
    (u : List Char) : scanLiteral lead (s ++ u) = ⟨(scanLiteral lead s).content, .ok (r ++ u)⟩ := by
  have hs := leadFault_append h u
  fun_induction scanLiteral lead s with
  | case2 lead c t hc =>
    obtain rfl : c = '"' := by simpa using hc
    obtain rfl : t = r := by simpa using h
    rw [List.cons_append, scanLiteral_quote]
    exact Literal.settle_append (l := ⟨.ok [], .ok t⟩) hs lead
  | case5 c hq hb e he a b c' d t m hx hm n ih =>
    obtain ⟨rfl, rfl⟩ : c = '\\' ∧ e = 'u' := by simpa using And.intro hb he
    have h' : (scanLiteral none t).rest = .ok r := by simpa using h
    simp only [List.cons_append]
    rw [scanLiteral_pair hx hm, ih h' (leadFault_append h' u)]
    rfl
  | case6 c hq hb e he a b c' d t m hx hm ih =>
    obtain ⟨rfl, rfl⟩ : c = '\\' ∧ e = 'u' := by simpa using And.intro hb he
    have h' : (scanLiteral none t).rest = .ok r := by simpa using h
    simp only [List.cons_append]
    rw [scanLiteral_trail hx hm, ih h' (leadFault_append h' u)]
    rfl
  | case7 lead c hq hb e he a b c' d t m hx hm hl ih =>
    obtain ⟨rfl, rfl⟩ : c = '\\' ∧ e = 'u' := by simpa using And.intro hb he
    have h' : (scanLiteral (some m) t).rest = .ok r := by simpa using h
    simp only [List.cons_append] at hs ⊢
    rw [scanLiteral_lead lead hx hm hl, ih h' (leadFault_append h' u)]
    exact Literal.settle_append hs lead
  | case8 lead c hq hb e he a b c' d t m hx hm hl ih =>
    obtain ⟨rfl, rfl⟩ : c = '\\' ∧ e = 'u' := by simpa using And.intro hb he
    have h' : (scanLiteral none t).rest = .ok r := by simpa using h
    simp only [List.cons_append] at hs ⊢
    rw [scanLiteral_number lead hx hm hl, ih h' (leadFault_append h' u)]
    exact Literal.settle_append (l := (scanLiteral none t).push _) hs lead
  | case10 lead c hq hb e q he x hx ih =>
    obtain rfl : c = '\\' := by simpa using hb
    have h' : (scanLiteral none q).rest = .ok r := by simpa using h
    simp only [List.cons_append] at hs ⊢
    rw [scanLiteral_escape lead he hx, ih h' (leadFault_append h' u)]
    exact Literal.settle_append (l := (scanLiteral none q).push x) hs lead
  | case13 lead c q hq hb hc ih =>
    have h' : (scanLiteral none q).rest = .ok r := by simpa using h
    simp only [List.cons_append] at hs ⊢
    rw [scanLiteral_plain lead hq hb hc, ih h' (leadFault_append h' u)]
    exact Literal.settle_append (l := (scanLiteral none q).push c) hs lead
  | _ => simp at h

/-! ## Strings that were cut off -/

theorem hexFour?_eq_some {a b c d : Char} {m : Nat} (h : hexFour? a b c d = some m) :
    ∀ x ∈ [a, b, c, d], ∃ n, Text.hexDigit? x = some n := by
  simp only [hexFour?, Option.bind_eq_bind, Option.bind_eq_some_iff] at h
  obtain ⟨ka, ha, kb, hb, kc, hc, kd, hd, -⟩ := h
  simp [ha, hb, hc, hd]

/-- Neither the end of a line nor a brace is a digit. -/
theorem Opens.hexDigit? {u : List Char} (h : Opens u) : ∀ c ∈ u.head?, Text.hexDigit? c = none := by
  intro c hc
  rcases h c hc with rfl | rfl | rfl <;> decide

theorem forall_mem_of_error {P : List Char → Prop} {x : Except Fault (List Char)} {f : Fault}
    (h : x = .error f) : ∀ r ∈ x.toOption, P r := by
  simp [h, Except.toOption]

theorem scanLiteral_badEscape {e : Char} (he : ¬ (e == 'u') = true) (hx : plainEscape? e = none)
    (lead : Option Nat) (q : List Char) : (scanLiteral lead ('\\' :: e :: q)).rest = .error .badEscape := by
  rw [scanLiteral_cons]
  simp [he, hx]

theorem scanLiteral_control {c : Char} (hq : ¬ (c == '"') = true) (hb : ¬ (c == '\\') = true)
    (hc : c.toNat < 0x20) (lead : Option Nat) (q : List Char) :
    (scanLiteral lead (c :: q)).rest = .error .controlCharacter := by
  rw [scanLiteral_cons]
  simp [hq, hb, hc]

theorem scanLiteral_hexless {q : List Char}
    (h : ∀ a b c d t, q = a :: b :: c :: d :: t → hexFour? a b c d = none) (lead : Option Nat) :
    ∃ f, (scanLiteral lead ('\\' :: 'u' :: q)).rest = .error f := by
  rw [rest_scanLiteral]
  rcases q with _ | ⟨a, _ | ⟨b, _ | ⟨c, _ | ⟨d, t⟩⟩⟩⟩
  case cons.cons.cons.cons => simp [scanLiteral_cons, h a b c d t rfl]
  all_goals simp [scanLiteral_cons]

/-- An escape by number that was cut off does not go on behind the cut. -/
theorem hexless_append {q u : List Char} (hq : ∀ a b c d t, q = a :: b :: c :: d :: t → False)
    (hu : Opens u) : ∀ a b c d t, q ++ u = a :: b :: c :: d :: t → hexFour? a b c d = none := by
  intro a b c d t e
  rw [Option.eq_none_iff_forall_ne_some]
  intro m hm
  have hx := hexFour?_eq_some hm
  rcases u with _ | ⟨x, u⟩
  · exact hq a b c d t (by simpa using e)
  · have h0 := hu.hexDigit? x (by simp)
    rcases q with _ | ⟨a', _ | ⟨b', _ | ⟨c', _ | ⟨d', t'⟩⟩⟩⟩
    case cons.cons.cons.cons => exact hq _ _ _ _ _ rfl
    all_goals
      simp only [List.nil_append, List.cons_append, List.cons.injEq] at e
      simp_all

/-- A literal that does not end goes wrong, or ends where one in `u` ends, if an object or the end of the
line follows. -/
theorem scanLiteral_broken {P : List Char → Prop} {lead : Option Nat} {s u : List Char} {f : Fault}
    (h : (scanLiteral lead s).rest = .error f) (hu : Opens u)
    (hl : ∀ r ∈ (scanLiteral none u).rest.toOption, P r) :
    ∀ r ∈ (scanLiteral lead (s ++ u)).rest.toOption, P r := by
  fun_induction scanLiteral lead s with
  | case1 lead => rwa [List.nil_append, rest_scanLiteral]
  | case2 => simp at h
  | case3 lead c hq hb =>
    obtain rfl : c = '\\' := by simpa using hb
    rcases u with _ | ⟨x, u⟩
    · exact forall_mem_of_error h
    · obtain ⟨he, hx⟩ : ¬ (x == 'u') = true ∧ plainEscape? x = none := by
        rcases opens_cons.1 hu with rfl | rfl | rfl <;> decide
      exact forall_mem_of_error (scanLiteral_badEscape he hx lead u)
  | case4 lead c hq hb e he a b c' d t hx =>
    obtain ⟨rfl, rfl⟩ : c = '\\' ∧ e = 'u' := by simpa using And.intro hb he
    have hs : ∀ x y z w v, a :: b :: c' :: d :: (t ++ u) = x :: y :: z :: w :: v → hexFour? x y z w = none := by
      intro x y z w v e
      simp only [List.cons.injEq] at e
      obtain ⟨rfl, rfl, rfl, rfl, -⟩ := e
      exact hx
    obtain ⟨g, hg⟩ := scanLiteral_hexless hs lead
    exact forall_mem_of_error hg
  | case9 lead c hq hb e q he hs =>
    obtain ⟨rfl, rfl⟩ : c = '\\' ∧ e = 'u' := by simpa using And.intro hb he
    obtain ⟨g, hg⟩ := scanLiteral_hexless (hexless_append hs hu) lead
    exact forall_mem_of_error hg
  | case5 c hq hb e he a b c' d t m hx hm n ih =>
    obtain ⟨rfl, rfl⟩ : c = '\\' ∧ e = 'u' := by simpa using And.intro hb he
    simpa [scanLiteral_pair hx hm] using ih (by simpa using h)
  | case6 c hq hb e he a b c' d t m hx hm ih =>
    obtain ⟨rfl, rfl⟩ : c = '\\' ∧ e = 'u' := by simpa using And.intro hb he
    simpa [scanLiteral_trail hx hm] using ih (by simpa using h)
  | case7 lead c hq hb e he a b c' d t m hx hm hl' ih =>
    obtain ⟨rfl, rfl⟩ : c = '\\' ∧ e = 'u' := by simpa using And.intro hb he
    simpa [scanLiteral_lead lead hx hm hl'] using ih (by simpa using h)
  | case8 lead c hq hb e he a b c' d t m hx hm hl' ih =>
    obtain ⟨rfl, rfl⟩ : c = '\\' ∧ e = 'u' := by simpa using And.intro hb he
    simpa [scanLiteral_number lead hx hm hl'] using ih (by simpa using h)
  | case10 lead c hq hb e q he x hx ih =>
    obtain rfl : c = '\\' := by simpa using hb
    simpa [scanLiteral_escape lead he hx] using ih (by simpa using h)
  | case11 lead c hq hb e q he hx =>
    obtain rfl : c = '\\' := by simpa using hb
    exact forall_mem_of_error (scanLiteral_badEscape he hx lead (q ++ u))
  | case12 lead c q hq hb hc => exact forall_mem_of_error (scanLiteral_control hq hb hc lead (q ++ u))
  | case13 lead c q hq hb hc ih =>
    simpa [scanLiteral_plain lead hq hb hc] using ih (by simpa using h)

/-! ## Words -/

/-- A word that ends is read alike whatever follows. -/
theorem scanWord_append {d d' : Draft} {w s r : List Char} (h : scanWord d w s = (d', some r))
    (u : List Char) : scanWord d w (s ++ u) = (d', some (r ++ u)) := by
  fun_induction scanWord d w s with
  | case1 s => simp_all [scanWord]
  | case2 => simp at h
  | case3 w ws c s hc ih => simp_all [scanWord]
  | case4 => simp at h

theorem scanWord_length {d d' : Draft} {w s r : List Char} (h : scanWord d w s = (d', some r)) :
    r.length ≤ s.length := by
  fun_induction scanWord d w s with
  | case1 s => simp_all
  | case2 => simp at h
  | case3 w ws c s hc ih => have := ih h; rw [List.length_cons]; omega
  | case4 => simp at h

/-- A word that was cut off does not go on behind the cut. -/
theorem scanWord_broken {d : Draft} {w s u : List Char} (h : (scanWord d w s).2 = none) (hu : Opens u)
    (hw : '\n' ∉ w ∧ '\r' ∉ w ∧ '{' ∉ w) : (scanWord d w (s ++ u)).2 = none := by
  fun_induction scanWord d w s with
  | case1 s => simp at h
  | case2 w ws =>
    rcases u with _ | ⟨x, u⟩
    · rfl
    · rcases opens_cons.1 hu with rfl | rfl | rfl <;> simp_all [scanWord]
  | case3 w ws c s hc ih =>
    simp only [List.mem_cons, not_or] at hw
    simpa [scanWord, hc] using ih h ⟨hw.1.2, hw.2.1.2, hw.2.2.2⟩
  | case4 w ws c s hc => simp [scanWord, hc]

/-! ## Numerals -/

theorem Apart.of_length {r s u : List Char} (h : Apart r u) (hl : r.length ≤ s.length) : Apart s u := by
  rcases h with h | h
  · refine .inl fun e => h ?_
    rw [e, List.length_nil, Nat.le_zero] at hl
    exact List.eq_nil_of_length_eq_zero hl
  · exact .inr h

/-- Digits end where they ended, unless `u` goes on with them. -/
theorem spanDigits_append {s u : List Char} (h : Apart (Decimal.spanDigits s).2 u) :
    Decimal.spanDigits (s ++ u) = ((Decimal.spanDigits s).1, (Decimal.spanDigits s).2 ++ u) := by
  induction s with
  | nil =>
    have hu : Undigit u := h.resolve_left (by simp [Decimal.spanDigits])
    cases u with
    | nil => rfl
    | cons c u => simp [Decimal.spanDigits, (hu c (by simp)).1]
  | cons c s ih =>
    unfold Decimal.spanDigits at *
    by_cases hc : c.isDigit = true
    · simp only [List.dropWhile_cons, hc, if_true] at h
      simpa [hc] using ih h
    · simp [hc]

theorem spanDigits_length (s : List Char) : (Decimal.spanDigits s).2.length ≤ s.length :=
  (List.dropWhile_sublist _).length_le

theorem takeSign_append {s u : List Char} (h : s ≠ [] ∨ Opens u) :
    Decimal.takeSign (s ++ u) = ((Decimal.takeSign s).1, (Decimal.takeSign s).2 ++ u) := by
  rcases s with _ | ⟨c, s⟩
  · have hu := h.resolve_left (by simp)
    rcases u with _ | ⟨x, u⟩
    · rfl
    · rcases opens_cons.1 hu with rfl | rfl | rfl <;> rfl
  · by_cases hm : c = '-'
    · subst hm; rfl
    · by_cases hp : c = '+'
      · subst hp; rfl
      · simp [Decimal.takeSign, hm, hp]

theorem takeSign_length (s : List Char) : (Decimal.takeSign s).2.length ≤ s.length := by
  unfold Decimal.takeSign
  split <;> simp

section
variable {s r u : List Char}

/-! ### The digits before the point -/

theorem scanWhole_eq_ok {ds : List Char} : scanWhole s = .ok (ds, r) ↔
    (s = '0' :: r ∧ ds = ['0'] ∧ ∀ c ∈ r.head?, c.isDigit = false)
      ∨ ∃ c t, s = c :: t ∧ c ≠ '0' ∧ c.isDigit = true ∧ Decimal.spanDigits s = (ds, r) := by
  rcases s with _ | ⟨c, s⟩
  · simp [scanWhole]
  · by_cases hc : c = '0'
    · subst hc
      rcases s with _ | ⟨d, s⟩
      · simp [scanWhole]
        grind
      · by_cases hd : d.isDigit = true
        · simp [scanWhole, hd]
          grind
        · simp [scanWhole, hd]
          grind
    · by_cases hd : c.isDigit = true <;> simp [scanWhole, hc, hd]

theorem scanWhole_append {ds : List Char} (h : scanWhole s = .ok (ds, r)) (hu : Apart r u) :
    scanWhole (s ++ u) = .ok (ds, r ++ u) := by
  rw [scanWhole_eq_ok] at h ⊢
  rcases h with ⟨rfl, rfl, hr⟩ | ⟨c, t, rfl, h0, hc, h⟩
  · refine .inl ⟨rfl, rfl, fun c hc => ?_⟩
    rcases r with _ | ⟨d, r⟩
    · exact (hu.resolve_left (by simp) c hc).1
    · exact hr c hc
  · refine .inr ⟨c, t ++ u, rfl, h0, hc, ?_⟩
    rw [spanDigits_append (by rwa [h]), h]

theorem scanWhole_length {ds : List Char} (h : scanWhole s = .ok (ds, r)) : r.length < s.length := by
  rcases scanWhole_eq_ok.1 h with ⟨rfl, rfl, hr⟩ | ⟨c, t, rfl, h0, hc, h⟩
  · simp
  · have hr : (Decimal.spanDigits t).2 = r := by simpa [Decimal.spanDigits, hc] using congrArg Prod.snd h
    rw [← hr]
    exact Nat.lt_succ_of_le (spanDigits_length t)

theorem scanWhole_broken {e : Fault × Fault} (h : scanWhole s = .error e) (hu : Undigit u) :
    ∃ e', scanWhole (s ++ u) = .error e' := by
  cases h' : scanWhole (s ++ u) with
  | error e' => exact ⟨e', rfl⟩
  | ok y =>
    rcases s with _ | ⟨c, s⟩
    · rw [List.nil_append] at h'
      rcases scanWhole_eq_ok.1 h' with ⟨rfl, -, -⟩ | ⟨c, t, rfl, -, hc, -⟩
      · exact absurd (hu '0' rfl).1 (by decide)
      · exact absurd hc (by simp [(hu c rfl).1])
    · rw [List.cons_append] at h'
      rcases scanWhole_eq_ok.1 h' with ⟨he, -, hr⟩ | ⟨d, t, he, h0, hd, -⟩
      · obtain ⟨rfl, hy⟩ := List.cons.inj he
        rw [← hy] at hr
        have : scanWhole ('0' :: s) = .ok (['0'], s) :=
          scanWhole_eq_ok.2 (.inl ⟨rfl, rfl, fun c hc => hr c (by
            cases s with
            | nil => simp at hc
            | cons x s => simpa using hc)⟩)
        simp [this] at h
      · obtain ⟨rfl, rfl⟩ := List.cons.inj he
        have := scanWhole_eq_ok.2 (.inr ⟨c, s, rfl, h0, hd, rfl⟩)
        simp [this] at h

/-! ### The digits after it -/

theorem scanPart_eq_ok {p : Option (List Char)} : scanPart s = .ok (p, r) ↔
    ((∀ c ∈ s.head?, c ≠ '.') ∧ none = p ∧ s = r)
      ∨ ∃ t, s = '.' :: t ∧ (Decimal.spanDigits t).1 ≠ [] ∧ some (Decimal.spanDigits t).1 = p
        ∧ (Decimal.spanDigits t).2 = r := by
  rcases s with _ | ⟨c, s⟩
  · simp [scanPart]
  · by_cases hc : c = '.'
    · subst hc
      by_cases hd : (Decimal.spanDigits s).1 = []
      · simp only [scanPart, hd]
        by_cases hr : s.isEmpty = true <;> simp [hr, hd]
      · simp [scanPart, hd]
    · simp [scanPart, hc]

theorem scanPart_append {p : Option (List Char)} (h : scanPart s = .ok (p, r)) (hu : Apart r u) :
    scanPart (s ++ u) = .ok (p, r ++ u) := by
  rw [scanPart_eq_ok] at h ⊢
  rcases h with ⟨hs, rfl, rfl⟩ | ⟨t, rfl, hd, rfl, rfl⟩
  · refine .inl ⟨fun c hc => ?_, rfl, rfl⟩
    rcases s with _ | ⟨d, s⟩
    · exact (hu.resolve_left (by simp) c hc).2.1
    · exact hs c hc
  · have he := spanDigits_append hu
    exact .inr ⟨t ++ u, rfl, by rwa [he], by rw [he], by rw [he]⟩

theorem scanPart_length {p : Option (List Char)} (h : scanPart s = .ok (p, r)) : r.length ≤ s.length := by
  rcases scanPart_eq_ok.1 h with ⟨-, -, rfl⟩ | ⟨t, rfl, -, -, rfl⟩
  · exact Nat.le_refl _
  · exact Nat.le_succ_of_le (spanDigits_length t)

theorem scanPart_broken {e : Fault × Fault} (h : scanPart s = .error e) (hu : Undigit u) :
    ∃ e', scanPart (s ++ u) = .error e' := by
  cases h' : scanPart (s ++ u) with
  | error e' => exact ⟨e', rfl⟩
  | ok y =>
    rcases s with _ | ⟨c, s⟩
    · cases h
    · rw [List.cons_append] at h'
      rcases scanPart_eq_ok.1 h' with ⟨hs, -, -⟩ | ⟨t, he, hd, -, -⟩
      · have hs' : ∀ d ∈ (c :: s).head?, _ := hs
        have := scanPart_eq_ok.2 (.inl ⟨hs', rfl, rfl⟩)
        simp [this] at h
      · obtain ⟨rfl, rfl⟩ := List.cons.inj he
        rw [spanDigits_append (.inr hu)] at hd
        have := scanPart_eq_ok.2 (.inr ⟨s, rfl, hd, rfl, rfl⟩)
        simp [this] at h

/-! ### The exponent -/

theorem scanExponent_eq_ok {x : Option (Bool × List Char)} : scanExponent s = .ok (x, r) ↔
    ((∀ c ∈ s.head?, c ≠ 'e' ∧ c ≠ 'E') ∧ none = x ∧ s = r)
      ∨ ∃ c t, s = c :: t ∧ (c = 'e' ∨ c = 'E') ∧ (Decimal.spanDigits (Decimal.takeSign t).2).1 ≠ []
        ∧ some ((Decimal.takeSign t).1, (Decimal.spanDigits (Decimal.takeSign t).2).1) = x
        ∧ (Decimal.spanDigits (Decimal.takeSign t).2).2 = r := by
  rcases s with _ | ⟨c, s⟩
  · simp [scanExponent]
  · by_cases hc : c = 'e' ∨ c = 'E'
    · have hn : ¬ (c ≠ 'e' ∧ c ≠ 'E') := fun h => hc.elim h.1 h.2
      by_cases hd : (Decimal.spanDigits (Decimal.takeSign s).2).1 = []
      · simp only [scanExponent, hd]
        by_cases hr : (Decimal.takeSign s).2.isEmpty = true <;> simp [hr, hd, hc] <;> simp_all
      · have he : scanExponent (c :: s) = .ok (some ((Decimal.takeSign s).1,
            (Decimal.spanDigits (Decimal.takeSign s).2).1), (Decimal.spanDigits (Decimal.takeSign s).2).2) := by
          simp [scanExponent, hc, hd]
        rw [he]
        constructor
        · intro h
          injection h with h
          injection h with hx hr
          exact .inr ⟨c, s, rfl, hc, hd, hx, hr⟩
        · rintro (⟨h, -, -⟩ | ⟨c', t, h, -, -, rfl, rfl⟩)
          · exact absurd (h c rfl) hn
          · obtain ⟨rfl, rfl⟩ := List.cons.inj h
            rfl
    · have hn : c ≠ 'e' ∧ c ≠ 'E' := not_or.1 hc
      simp only [scanExponent, List.head?_cons, Option.mem_some_iff, forall_eq']
      simp [hn]

theorem scanExponent_append {x : Option (Bool × List Char)} (h : scanExponent s = .ok (x, r))
    (hu : Apart r u) : scanExponent (s ++ u) = .ok (x, r ++ u) := by
  rw [scanExponent_eq_ok] at h ⊢
  rcases h with ⟨hs, rfl, rfl⟩ | ⟨c, t, rfl, hc, hd, rfl, rfl⟩
  · refine .inl ⟨fun c hc => ?_, rfl, rfl⟩
    rcases s with _ | ⟨d, s⟩
    · exact (hu.resolve_left (by simp) c hc).2.2
    · exact hs c hc
  · have ht : t ≠ [] := by
      rintro rfl
      exact hd rfl
    have he := spanDigits_append hu
    refine .inr ⟨c, t ++ u, rfl, hc, ?_⟩
    rw [takeSign_append (.inl ht), he]
    exact ⟨hd, rfl, rfl⟩

theorem scanExponent_length {x : Option (Bool × List Char)} (h : scanExponent s = .ok (x, r)) :
    r.length ≤ s.length := by
  rcases scanExponent_eq_ok.1 h with ⟨-, -, rfl⟩ | ⟨c, t, rfl, -, -, -, rfl⟩
  · exact Nat.le_refl _
  · exact Nat.le_succ_of_le (Nat.le_trans (spanDigits_length _) (takeSign_length t))

theorem scanExponent_broken {e : Fault × Fault} (h : scanExponent s = .error e) (hu : Opens u) :
    ∃ e', scanExponent (s ++ u) = .error e' := by
  cases h' : scanExponent (s ++ u) with
  | error e' => exact ⟨e', rfl⟩
  | ok y =>
    rcases s with _ | ⟨c, s⟩
    · cases h
    · rw [List.cons_append] at h'
      rcases scanExponent_eq_ok.1 h' with ⟨hs, -, -⟩ | ⟨d, t, he, hc, hd, -, -⟩
      · have hs' : ∀ d ∈ (c :: s).head?, _ := hs
        have := scanExponent_eq_ok.2 (.inl ⟨hs', rfl, rfl⟩)
        simp [this] at h
      · obtain ⟨rfl, rfl⟩ := List.cons.inj he
        rw [takeSign_append (.inr hu), spanDigits_append (.inr hu.undigit)] at hd
        have := scanExponent_eq_ok.2 (.inr ⟨c, s, rfl, hc, hd, rfl, rfl⟩)
        simp [this] at h

end

/-! ### Together -/

/-- A numeral without its sign. -/
def scanUnsigned (negative : Bool) (s : List Char) : Except (Fault × Fault) (Numeral × List Char) := do
  let (whole, s) ← scanWhole s
  let (part, s) ← scanPart s
  let (exponent, s) ← scanExponent s
  return (⟨negative, whole, part, exponent⟩, s)

theorem scanNumeral_other {s : List Char} (h : ∀ c ∈ s.head?, c ≠ '-') :
    scanNumeral s = scanUnsigned false s := by
  rcases s with _ | ⟨c, s⟩
  · rfl
  · have hc : c ≠ '-' := h c (by simp)
    simp [scanNumeral, scanUnsigned, hc]

theorem scanUnsigned_eq_ok {b : Bool} {s r : List Char} {n : Numeral} (h : scanUnsigned b s = .ok (n, r)) :
    ∃ ds s₁ p s₂ x, scanWhole s = .ok (ds, s₁) ∧ scanPart s₁ = .ok (p, s₂) ∧ scanExponent s₂ = .ok (x, r)
      ∧ n = ⟨b, ds, p, x⟩ := by
  unfold scanUnsigned at h
  cases h₁ : scanWhole s with
  | error e => simp [h₁, bind, Except.bind] at h
  | ok y =>
    obtain ⟨ds, s₁⟩ := y
    cases h₂ : scanPart s₁ with
    | error e => simp [h₁, h₂, bind, Except.bind] at h
    | ok z =>
      obtain ⟨p, s₂⟩ := z
      cases h₃ : scanExponent s₂ with
      | error e => simp [h₁, h₂, h₃, bind, Except.bind] at h
      | ok w =>
        obtain ⟨x, s₃⟩ := w
        obtain ⟨rfl, rfl⟩ : Numeral.mk b ds p x = n ∧ s₃ = r := by
          simpa [h₁, h₂, h₃, bind, Except.bind, pure, Except.pure] using h
        exact ⟨ds, s₁, p, s₂, x, rfl, h₂, h₃, rfl⟩

theorem scanUnsigned_append {b : Bool} {s r u : List Char} {n : Numeral} (h : scanUnsigned b s = .ok (n, r))
    (hu : Apart r u) : scanUnsigned b (s ++ u) = .ok (n, r ++ u) := by
  obtain ⟨ds, s₁, p, s₂, x, h₁, h₂, h₃, rfl⟩ := scanUnsigned_eq_ok h
  have hu₂ := hu.of_length (scanExponent_length h₃)
  have hu₁ := hu₂.of_length (scanPart_length h₂)
  simp [scanUnsigned, scanWhole_append h₁ hu₁, scanPart_append h₂ hu₂, scanExponent_append h₃ hu, bind,
    Except.bind, pure, Except.pure]

theorem scanUnsigned_length {b : Bool} {s r : List Char} {n : Numeral} (h : scanUnsigned b s = .ok (n, r)) :
    r.length < s.length := by
  obtain ⟨ds, s₁, p, s₂, x, h₁, h₂, h₃, rfl⟩ := scanUnsigned_eq_ok h
  have := scanWhole_length h₁
  have := scanPart_length h₂
  have := scanExponent_length h₃
  omega

theorem scanUnsigned_broken {b : Bool} {s u : List Char} {e : Fault × Fault}
    (h : scanUnsigned b s = .error e) (hu : Opens u) : ∃ e', scanUnsigned b (s ++ u) = .error e' := by
  unfold scanUnsigned at h ⊢
  cases h₁ : scanWhole s with
  | error e =>
    obtain ⟨e', he⟩ := scanWhole_broken h₁ hu.undigit
    exact ⟨e', by rw [he]; rfl⟩
  | ok y =>
    obtain ⟨ds, s₁⟩ := y
    rw [scanWhole_append h₁ (.inr hu.undigit)]
    cases h₂ : scanPart s₁ with
    | error e =>
      obtain ⟨e', he⟩ := scanPart_broken h₂ hu.undigit
      exact ⟨e', by simp [he, bind, Except.bind]⟩
    | ok z =>
      obtain ⟨p, s₂⟩ := z
      cases h₃ : scanExponent s₂ with
      | error e =>
        obtain ⟨e', he⟩ := scanExponent_broken h₃ hu
        exact ⟨e', by simp [scanPart_append h₂ (.inr hu.undigit), he, bind, Except.bind]⟩
      | ok w => simp [h₁, h₂, h₃, bind, Except.bind, pure, Except.pure] at h

/-- A numeral that ends is read alike, unless `u` goes on with it. -/
theorem scanNumeral_append {s r u : List Char} {n : Numeral} (h : scanNumeral s = .ok (n, r))
    (hu : Apart r u) : scanNumeral (s ++ u) = .ok (n, r ++ u) := by
  rcases s with _ | ⟨c, s⟩
  · cases h
  · by_cases hc : c = '-'
    · subst hc
      exact scanUnsigned_append h hu
    · rw [scanNumeral_other (by simpa using hc)] at h
      rw [scanNumeral_other (by simpa using hc)]
      exact scanUnsigned_append h hu

theorem scanNumeral_length {s r : List Char} {n : Numeral} (h : scanNumeral s = .ok (n, r)) :
    r.length < s.length := by
  rcases s with _ | ⟨c, s⟩
  · cases h
  · by_cases hc : c = '-'
    · subst hc
      exact Nat.lt_succ_of_lt (scanUnsigned_length h)
    · rw [scanNumeral_other (by simpa using hc)] at h
      exact scanUnsigned_length h

/-- A numeral that goes wrong does not become one when an object or the end of the line follows. -/
theorem scanNumeral_broken {c : Char} {s u : List Char} {e : Fault × Fault}
    (h : scanNumeral (c :: s) = .error e) (hu : Opens u) : ∃ e', scanNumeral (c :: s ++ u) = .error e' := by
  by_cases hc : c = '-'
  · subst hc
    exact scanUnsigned_broken h hu
  · rw [scanNumeral_other (by simpa using hc)] at h ⊢
    exact scanUnsigned_broken h hu

end Captioning.Json
