import Captioning.Json.Reader
import Captioning.Proofs.JsonLiteral
/-!
# One step of reading a value

A reader of a value first looks where it stands. A value without parts is told by its first character
(`leafDraft_cases`); a list either ends or goes on with another part (`readItems_succ`,
`readMembers_succ`). Each of these steps is taken alike in a longer text (`leafDraft_append`,
`itemEntry_append`, `memberEntry_append`, `memberName_append`), and one that breaks off is not mended by an
object or the end of a line (`leafDraft_broken`, `itemEntry_broken`, `memberEntry_broken`,
`memberName_broken`).
-/

namespace Captioning

/-- Of two steps that may fail, neither fails if both together do not. -/
theorem bind_eq_ok {ε α β : Type} {x : Except ε α} {f : α → Except ε β} {y : β} :
    (x >>= f) = .ok y ↔ ∃ a, x = .ok a ∧ f a = .ok y := by
  cases x with
  | error e => simp [bind, Except.bind]
  | ok a => simp [bind, Except.bind]

theorem eq_ok_of_toOption {ε α : Type} {x : Except ε α} {a : α} (h : x.toOption = some a) : x = .ok a := by
  cases x with
  | error e => cases h
  | ok b => rw [Option.some.inj h]

theorem exists_ok_of_toOption {ε α : Type} {x : Except ε α} (h : x.toOption.isSome = true) : ∃ a, x = .ok a := by
  obtain ⟨a, ha⟩ := Option.isSome_iff_exists.1 h
  exact ⟨a, eq_ok_of_toOption ha⟩

theorem exists_error_of_toOption {ε α : Type} {x : Except ε α} (h : x.toOption.isSome = false) :
    ∃ e, x = .error e := by
  cases x with
  | error e => exact ⟨e, rfl⟩
  | ok a => cases h

namespace Json

/-! ## Where a list goes on -/

/-- What stands where a list may end or go on: its end, or the text of another part. -/
inductive Entry
  | done (closing : Closing) (rest : Option (List Char))
  | part (text : List Char)

/-- Finds the next item. -/
def itemEntry (first : Bool) (s : List Char) : Entry :=
  match skipSpace s with
  | [] => .done .ended none
  | c :: r =>
    if c == ']' then .done .closed (some r)
    else if first then .part (c :: r)
    else if c == ',' then
      match skipSpace r with
      | [] => .done .commaEnded none
      | d :: q => if d == ']' then .done .commaClosed none else .part (d :: q)
    else .done .unseparated none

/-- Finds the next member, whose text starts behind the quote. -/
def memberEntry (first : Bool) (s : List Char) : Entry :=
  match skipSpace s with
  | [] => .done .ended none
  | c :: r =>
    if c == '}' then .done .closed (some r)
    else if first then if c == '"' then .part r else .done .badKey none
    else if c == ',' then
      match skipSpace r with
      | [] => .done .commaEnded none
      | d :: q =>
        if d == '"' then .part q
        else if d == '}' then .done .commaClosed none
        else .done .badKey none
    else .done .unseparated none

/-- The name of a member, and the text of its value behind the colon or what is there instead. -/
def memberName (t : List Char) : Except Fault (List Char) × Except Draft (List Char) :=
  let l := scanLiteral none t
  (l.content, match l.rest with
    | .error passing => .error (.broken passing passing)
    | .ok rest => match skipSpace rest with
      | [] => .error (.broken .endInObject .endInObject)
      | c :: r => if c == ':' then .ok r else .error (.broken .colonWanted .colonWanted))

/-- The draft of a numeral. -/
def numeralDraft : Except (Fault × Fault) (Numeral × List Char) → Reading Draft
  | .ok (n, rest) => (.number n, some rest)
  | .error (wanting, passing) => (.broken wanting passing, none)

/-- The draft of a string. -/
def literalDraft (l : Literal) : Reading Draft :=
  match l.rest, l.content with
  | .ok rest, content => (.string content, some rest)
  | .error passing, .error wanting => (.broken wanting passing, none)
  | .error passing, .ok _ => (.broken passing passing, none)

/-- A value that is neither an array nor an object. -/
def leafDraft (c : Char) (r : List Char) : Reading Draft :=
  if c == 'n' then scanWord .null ['u', 'l', 'l'] r
  else if c == 't' then scanWord (.bool true) ['r', 'u', 'e'] r
  else if c == 'f' then scanWord (.bool false) ['a', 'l', 's', 'e'] r
  else if c == '-' || c.isDigit then numeralDraft (scanNumeral (c :: r))
  else if c == '"' then literalDraft (scanLiteral none r)
  else (.broken .valueWanted .valueWanted, none)

/-! ### The readers, one step at a time -/

theorem readDraft_blank (fuel : Nat) {s : List Char} (h : skipSpace s = []) :
    (readDraft fuel s).2 = none := by
  cases fuel with
  | zero => rfl
  | succ fuel => simp [readDraft, h]

theorem readDraft_array (fuel : Nat) {s r : List Char} (h : skipSpace s = '[' :: r) :
    readDraft (fuel + 1) s = (.array (readItems fuel true r).1 (readItems fuel true r).2.1,
      (readItems fuel true r).2.2) := by
  simp [readDraft, h]

theorem readDraft_object (fuel : Nat) {s r : List Char} (h : skipSpace s = '{' :: r) :
    readDraft (fuel + 1) s = (.object (readMembers fuel true r).1 (readMembers fuel true r).2.1,
      (readMembers fuel true r).2.2) := by
  simp [readDraft, h]

theorem readDraft_leaf (fuel : Nat) {s r : List Char} {c : Char} (h : skipSpace s = c :: r) (ha : c ≠ '[')
    (ho : c ≠ '{') : readDraft (fuel + 1) s = leafDraft c r := by
  rw [readDraft, h, leafDraft]
  simp [ha, ho]
  rfl

/-- What is read when an item starts here. -/
def itemAt (fuel : Nat) (t : List Char) : List Draft × Closing × Option (List Char) :=
  match readDraft fuel t with
  | (d, none) => ([d], .inside, none)
  | (d, some rest) => (d :: (readItems fuel false rest).1, (readItems fuel false rest).2)

/-- What is read when the value of a member starts here, behind its name. -/
def memberAt (fuel : Nat) (k : Except Fault (List Char)) :
    Except Draft (List Char) → List (Except Fault (List Char) × Draft) × Closing × Option (List Char)
  | .error d => ([(k, d)], .inside, none)
  | .ok t => match readDraft fuel t with
    | (d, none) => ([(k, d)], .inside, none)
    | (d, some rest) => ((k, d) :: (readMembers fuel false rest).1, (readMembers fuel false rest).2)

/-- What is read from an entry. -/
def Entry.read {α : Type} (part : List Char → List α × Closing × Option (List Char)) :
    Entry → List α × Closing × Option (List Char)
  | .done c x => ([], c, x)
  | .part t => part t

theorem readItems_succ (fuel : Nat) (first : Bool) (s : List Char) :
    readItems (fuel + 1) first s = (itemEntry first s).read (itemAt fuel) := by
  rw [readItems, itemEntry]
  rcases skipSpace s with _ | ⟨c, r⟩
  · rfl
  · dsimp only
    by_cases hb : (c == ']') = true
    · rw [if_pos hb, if_pos hb]; rfl
    · rw [if_neg hb, if_neg hb]
      by_cases hf : first = true
      · rw [if_pos hf, if_pos hf]; rfl
      · rw [if_neg hf, if_neg hf]
        by_cases hc : (c == ',') = true
        · rw [if_pos hc, if_pos hc]
          rcases skipSpace r with _ | ⟨d, q⟩
          · rfl
          · dsimp only
            by_cases hd : (d == ']') = true
            · rw [if_pos hd, if_pos hd]; rfl
            · rw [if_neg hd, if_neg hd]; rfl
        · rw [if_neg hc, if_neg hc]; rfl

/-- What is read from a member whose name has been scanned. -/
def memberFrom (fuel : Nat) (name : Literal) :
    List (Except Fault (List Char) × Draft) × Closing × Option (List Char) :=
  match name.rest with
  | .error passing => ([(name.content, .broken passing passing)], .inside, none)
  | .ok rest => match skipSpace rest with
    | [] => ([(name.content, .broken .endInObject .endInObject)], .inside, none)
    | c :: r =>
      if c == ':' then
        match readDraft fuel r with
        | (d, none) => ([(name.content, d)], .inside, none)
        | (d, some rest) =>
          let (more, closing, rest) := readMembers fuel false rest
          ((name.content, d) :: more, closing, rest)
      else ([(name.content, .broken .colonWanted .colonWanted)], .inside, none)

theorem memberFrom_eq (fuel : Nat) (t : List Char) :
    memberFrom fuel (scanLiteral none t) = memberAt fuel (memberName t).1 (memberName t).2 := by
  unfold memberFrom memberName
  dsimp only
  cases (scanLiteral none t).rest with
  | error p => rfl
  | ok rest =>
    dsimp only
    rcases skipSpace rest with _ | ⟨c, r⟩
    · rfl
    · dsimp only
      by_cases hc : (c == ':') = true
      · rw [if_pos hc, if_pos hc]; rfl
      · rw [if_neg hc, if_neg hc]; rfl

theorem readMembers_succ (fuel : Nat) (first : Bool) (s : List Char) :
    readMembers (fuel + 1) first s
      = (memberEntry first s).read fun t => memberAt fuel (memberName t).1 (memberName t).2 := by
  rw [readMembers, memberEntry]
  rcases skipSpace s with _ | ⟨c, r⟩
  · rfl
  · dsimp only
    by_cases hb : (c == '}') = true
    · rw [if_pos hb, if_pos hb]; rfl
    · rw [if_neg hb, if_neg hb]
      by_cases hf : first = true
      · rw [if_pos hf, if_pos hf]
        by_cases hq : (c == '"') = true
        · rw [if_pos hq, if_pos hq]; exact memberFrom_eq fuel r
        · rw [if_neg hq, if_neg hq]; rfl
      · rw [if_neg hf, if_neg hf]
        by_cases hc : (c == ',') = true
        · rw [if_pos hc, if_pos hc]
          rcases skipSpace r with _ | ⟨d, q⟩
          · rfl
          · dsimp only
            by_cases hq : (d == '"') = true
            · rw [if_pos hq, if_pos hq]; exact memberFrom_eq fuel q
            · rw [if_neg hq, if_neg hq]
              by_cases hd : (d == '}') = true
              · rw [if_pos hd, if_pos hd]; rfl
              · rw [if_neg hd, if_neg hd]; rfl
        · rw [if_neg hc, if_neg hc]; rfl

/-! ## Values without parts -/

/-- The first character tells what a value without parts is: a word, a numeral, a string or nothing. -/
theorem leafDraft_cases (c : Char) :
    (∃ d w, ('\n' ∉ w ∧ '\r' ∉ w ∧ '{' ∉ w) ∧ leafDraft c = scanWord d w)
      ∨ (leafDraft c = fun r => numeralDraft (scanNumeral (c :: r)))
      ∨ (leafDraft c = fun r => literalDraft (scanLiteral none r))
      ∨ (leafDraft c = fun _ => (.broken .valueWanted .valueWanted, none)) := by
  unfold leafDraft
  by_cases hn : (c == 'n') = true
  · exact .inl ⟨.null, ['u', 'l', 'l'], by decide, by simp only [if_pos hn]⟩
  by_cases ht : (c == 't') = true
  · exact .inl ⟨.bool true, ['r', 'u', 'e'], by decide, by simp only [if_neg hn, if_pos ht]⟩
  by_cases hf : (c == 'f') = true
  · exact .inl ⟨.bool false, ['a', 'l', 's', 'e'], by decide,
      by simp only [if_neg hn, if_neg ht, if_pos hf]⟩
  by_cases hd : (c == '-' || c.isDigit) = true
  · exact .inr (.inl (by simp only [if_neg hn, if_neg ht, if_neg hf, if_pos hd]))
  by_cases hq : (c == '"') = true
  · exact .inr (.inr (.inl (by simp only [if_neg hn, if_neg ht, if_neg hf, if_neg hd, if_pos hq])))
  · exact .inr (.inr (.inr (by simp only [if_neg hn, if_neg ht, if_neg hf, if_neg hd, if_neg hq])))

theorem numeralDraft_eq_some {x : Except (Fault × Fault) (Numeral × List Char)} {d : Draft} {r : List Char} :
    numeralDraft x = (d, some r) ↔ ∃ n, x = .ok (n, r) ∧ d = .number n := by
  rcases x with ⟨w, p⟩ | ⟨n, q⟩
  · simp [numeralDraft]
  · simp only [numeralDraft, Prod.mk.injEq, Option.some.injEq, Except.ok.injEq]
    constructor
    · rintro ⟨rfl, rfl⟩; exact ⟨n, ⟨rfl, rfl⟩, rfl⟩
    · rintro ⟨m, ⟨rfl, rfl⟩, rfl⟩; exact ⟨rfl, rfl⟩

theorem literalDraft_eq_some {l : Literal} {d : Draft} {r : List Char} :
    literalDraft l = (d, some r) ↔ l.rest = .ok r ∧ d = .string l.content := by
  rcases l with ⟨_ | c, p | q⟩ <;> simp [literalDraft, and_comm, eq_comm]

theorem literalDraft_rest (l : Literal) : (literalDraft l).2 = l.rest.toOption := by
  rcases l with ⟨_ | c, p | q⟩ <;> rfl

theorem leafDraft_append {c : Char} {r rest u : List Char} {d : Draft} (h : leafDraft c r = (d, some rest))
    (hu : Apart rest u) : leafDraft c (r ++ u) = (d, some (rest ++ u)) := by
  rcases leafDraft_cases c with ⟨d', w, -, e⟩ | e | e | e <;> rw [e] at h ⊢
  · exact scanWord_append h u
  · obtain ⟨n, hn, rfl⟩ := numeralDraft_eq_some.1 h
    exact numeralDraft_eq_some.2 ⟨n, scanNumeral_append hn hu, rfl⟩
  · obtain ⟨hl, rfl⟩ := literalDraft_eq_some.1 h
    exact literalDraft_eq_some.2 ⟨by rw [scanLiteral_append hl], by rw [scanLiteral_append hl]⟩
  · simp at h

theorem leafDraft_length {c : Char} {r rest : List Char} {d : Draft} (h : leafDraft c r = (d, some rest)) :
    rest.length ≤ r.length := by
  rcases leafDraft_cases c with ⟨d', w, -, e⟩ | e | e | e <;> rw [e] at h
  · exact scanWord_length h
  · obtain ⟨n, hn, rfl⟩ := numeralDraft_eq_some.1 h
    exact Nat.le_of_lt_succ (scanNumeral_length hn)
  · exact Nat.le_of_lt (scanLiteral_length (literalDraft_eq_some.1 h).1)
  · simp at h

theorem scanWord_value {d : Draft} {w s : List Char} (h : (scanWord d w s).2 = none) :
    ∃ f g, (scanWord d w s).1 = .broken f g := by
  fun_induction scanWord d w s with
  | case1 => simp at h
  | case2 => exact ⟨_, _, rfl⟩
  | case3 w ws c s hc ih => exact ih h
  | case4 => exact ⟨_, _, rfl⟩

/-- A leaf that breaks off has no value. -/
theorem leafDraft_value {c : Char} {r : List Char} (h : (leafDraft c r).2 = none) :
    ∃ f g, (leafDraft c r).1 = .broken f g := by
  rcases leafDraft_cases c with ⟨d', w, -, e⟩ | e | e | e <;> rw [e] at h ⊢
  · exact scanWord_value h
  · rcases hs : scanNumeral (c :: r) with ⟨f, g⟩ | ⟨n, q⟩
    · exact ⟨f, g, by simp [hs, numeralDraft]⟩
    · simp [hs, numeralDraft] at h
  · rcases hs : scanLiteral none r with ⟨f | x, p | q⟩ <;> simp [hs, literalDraft] at h ⊢
  · exact ⟨_, _, rfl⟩

theorem leafDraft_broken {P : List Char → Prop} {c : Char} {r u : List Char} (h : (leafDraft c r).2 = none)
    (hu : Opens u) (hl : ∀ x ∈ (scanLiteral none u).rest.toOption, P x) :
    ∀ x ∈ (leafDraft c (r ++ u)).2, P x := by
  rcases leafDraft_cases c with ⟨d', w, hw, e⟩ | e | e | e <;> rw [e] at h ⊢
  · simp [scanWord_broken h hu hw]
  · rcases hs : scanNumeral (c :: r) with f | ⟨n, q⟩
    · obtain ⟨e', he⟩ := scanNumeral_broken hs hu
      have he : scanNumeral (c :: (r ++ u)) = .error e' := he
      simp [he, numeralDraft]
    · simp [hs, numeralDraft] at h
  · rw [literalDraft_rest] at h ⊢
    cases hs : (scanLiteral none r).rest with
    | error f => exact scanLiteral_broken hs hu hl
    | ok q => simp [hs, Except.toOption] at h
  · simp

/-! ## Entries -/

/-- An entry that was found is found alike whatever follows: the closing bracket, or the next part. -/
def Entry.Extends (e e' : Entry) (u : List Char) : Prop :=
  match e with
  | .done c (some r) => e' = .done c (some (r ++ u))
  | .part t => e' = .part (t ++ u)
  | .done _ none => True

theorem itemEntry_append (first : Bool) (s u : List Char) :
    (itemEntry first s).Extends (itemEntry first (s ++ u)) u := by
  rcases hs : skipSpace s with _ | ⟨c, r⟩
  · simp [itemEntry, hs, Entry.Extends]
  have hsu := skipSpace_append hs u
  unfold itemEntry
  simp only [hs, hsu]
  by_cases hb : (c == ']') = true
  · simp [hb, Entry.Extends]
  by_cases hf : first = true
  · simp [hb, hf, Entry.Extends]
  by_cases hc : (c == ',') = true
  · rcases hr : skipSpace r with _ | ⟨d, q⟩
    · simp [hb, hf, hc, Entry.Extends]
    · have hru := skipSpace_append hr u
      by_cases hd : (d == ']') = true <;> simp [hb, hf, hc, hd, hru, Entry.Extends]
  · simp [hb, hf, hc, Entry.Extends]

theorem memberEntry_append (first : Bool) (s u : List Char) :
    (memberEntry first s).Extends (memberEntry first (s ++ u)) u := by
  rcases hs : skipSpace s with _ | ⟨c, r⟩
  · simp [memberEntry, hs, Entry.Extends]
  have hsu := skipSpace_append hs u
  unfold memberEntry
  simp only [hs, hsu]
  by_cases hb : (c == '}') = true
  · simp [hb, Entry.Extends]
  by_cases hf : first = true
  · by_cases hq : (c == '"') = true <;> simp [hb, hf, hq, Entry.Extends]
  by_cases hc : (c == ',') = true
  · rcases hr : skipSpace r with _ | ⟨d, q⟩
    · simp [hb, hf, hc, Entry.Extends]
    · have hru := skipSpace_append hr u
      by_cases hq : (d == '"') = true
      · simp [hb, hf, hc, hq, hru, Entry.Extends]
      · by_cases hd : (d == '}') = true <;> simp [hb, hf, hc, hq, hd, Entry.Extends]
  · simp [hb, hf, hc, Entry.Extends]

/-- How much is left behind an entry: less than there was, or no more in front of a first item. -/
def Entry.Within (e : Entry) (first : Bool) (s : List Char) : Prop :=
  match e with
  | .done c (some r) => c = .closed ∧ r.length < s.length
  | .done c none => c ≠ .closed
  | .part t => t.length ≤ s.length ∧ (first = false → t.length < s.length)

theorem itemEntry_within (first : Bool) (s : List Char) : (itemEntry first s).Within first s := by
  unfold itemEntry
  rcases hs : skipSpace s with _ | ⟨c, r⟩
  · simp [Entry.Within]
  have hl := length_of_skipSpace hs
  dsimp only
  by_cases hb : (c == ']') = true
  · simp [hb, Entry.Within, hl]
  by_cases hf : first = true
  · simp [hb, hf, Entry.Within]
    omega
  by_cases hc : (c == ',') = true
  · rcases hr : skipSpace r with _ | ⟨d, q⟩
    · simp [hb, hf, hc, Entry.Within]
    · have hq := length_of_skipSpace hr
      by_cases hd : (d == ']') = true <;> simp [hb, hf, hc, hd, Entry.Within]
      omega
  · simp [hb, hf, hc, Entry.Within]

theorem memberEntry_within (first : Bool) (s : List Char) : (memberEntry first s).Within false s := by
  unfold memberEntry
  rcases hs : skipSpace s with _ | ⟨c, r⟩
  · simp [Entry.Within]
  have hl := length_of_skipSpace hs
  dsimp only
  by_cases hb : (c == '}') = true
  · simp [hb, Entry.Within, hl]
  by_cases hf : first = true
  · by_cases hq : (c == '"') = true <;> simp [hb, hf, hq, Entry.Within]
    omega
  by_cases hc : (c == ',') = true
  · rcases hr : skipSpace r with _ | ⟨d, q⟩
    · simp [hb, hf, hc, Entry.Within]
    · have hq := length_of_skipSpace hr
      by_cases hq : (d == '"') = true
      · simp [hb, hf, hc, hq, Entry.Within]
        omega
      · by_cases hd : (d == '}') = true <;> simp [hb, hf, hc, hq, hd, Entry.Within]
  · simp [hb, hf, hc, Entry.Within]

/-- A list that breaks off before an entry does so if `u` follows, or goes on with `u` as an item. -/
theorem itemEntry_broken {first : Bool} {s u : List Char} {c : Closing} (h : itemEntry first s = .done c none)
    (hu : Stray u) : (∃ c', itemEntry first (s ++ u) = .done c' none)
      ∨ itemEntry first (s ++ u) = .part (skipSpace u) := by
  have hu' : ∀ d q, skipSpace u = d :: q → (d == ']') = false ∧ (d == ',') = false := by
    intro d q e
    have := hu d (by simp [e])
    simp [this]
  rcases hs : skipSpace s with _ | ⟨x, r⟩
  · rw [itemEntry, skipSpace_append_of_nil hs]
    rcases hx : skipSpace u with _ | ⟨d, q⟩
    · exact .inl ⟨_, rfl⟩
    · obtain ⟨hb, hc⟩ := hu' d q hx
      by_cases hf : first = true <;> simp [hb, hc, hf]
  have hsu := skipSpace_append hs u
  unfold itemEntry at h ⊢
  simp only [hs, hsu] at h ⊢
  by_cases hb : (x == ']') = true
  · simp [hb] at h
  by_cases hf : first = true
  · simp [hb, hf] at h
  by_cases hc : (x == ',') = true
  · rcases hr : skipSpace r with _ | ⟨d, q⟩
    · simp only [hb, hf, hc, skipSpace_append_of_nil hr]
      rcases hx : skipSpace u with _ | ⟨d, q⟩
      · simp
      · simp [(hu' d q hx).1]
    · have hru := skipSpace_append hr u
      by_cases hd : (d == ']') = true
      · simp [hb, hf, hc, hru, hd]
      · simp [hb, hf, hc, hr, hd] at h
  · simp [hb, hf, hc]

theorem memberEntry_broken {first : Bool} {s u : List Char} {c : Closing}
    (h : memberEntry first s = .done c none) (hu : Stray u) :
    ∃ c', memberEntry first (s ++ u) = .done c' none := by
  have hu' : ∀ d q, skipSpace u = d :: q → (d == '}') = false ∧ (d == ',') = false ∧ (d == '"') = false := by
    intro d q e
    have := hu d (by simp [e])
    simp [this]
  rcases hs : skipSpace s with _ | ⟨x, r⟩
  · rw [memberEntry, skipSpace_append_of_nil hs]
    rcases hx : skipSpace u with _ | ⟨d, q⟩
    · exact ⟨_, rfl⟩
    · obtain ⟨hb, hc, hq⟩ := hu' d q hx
      by_cases hf : first = true <;> simp [hb, hc, hq, hf]
  have hsu := skipSpace_append hs u
  unfold memberEntry at h ⊢
  simp only [hs, hsu] at h ⊢
  by_cases hb : (x == '}') = true
  · simp [hb] at h
  by_cases hf : first = true
  · by_cases hq : (x == '"') = true
    · simp [hb, hf, hq] at h
    · simp [hb, hf, hq]
  by_cases hc : (x == ',') = true
  · rcases hr : skipSpace r with _ | ⟨d, q⟩
    · simp only [hb, hf, hc, skipSpace_append_of_nil hr]
      rcases hx : skipSpace u with _ | ⟨d, q⟩
      · simp
      · simp [(hu' d q hx).1, (hu' d q hx).2.2]
    · have hru := skipSpace_append hr u
      by_cases hq : (d == '"') = true
      · simp [hb, hf, hc, hr, hq] at h
      · by_cases hd : (d == '}') = true <;> simp [hb, hf, hc, hru, hq, hd]
  · simp [hb, hf, hc]

/-! ### The names of members -/

theorem memberName_append {t v : List Char} (h : (memberName t).2 = .ok v) (u : List Char) :
    memberName (t ++ u) = ((memberName t).1, .ok (v ++ u)) := by
  unfold memberName at h ⊢
  dsimp only at h ⊢
  rcases hl : (scanLiteral none t).rest with f | r
  · simp [hl] at h
  rw [scanLiteral_append hl]
  rcases hr : skipSpace r with _ | ⟨c, q⟩
  · simp [hl, hr] at h
  have hru := skipSpace_append hr u
  by_cases hc : (c == ':') = true
  · obtain rfl : q = v := by simpa [hl, hr, hc] using h
    simp [hru, hc]
  · simp [hl, hr, hc] at h

theorem memberName_length {t v : List Char} (h : (memberName t).2 = .ok v) : v.length < t.length := by
  unfold memberName at h
  dsimp only at h
  rcases hl : (scanLiteral none t).rest with f | r
  · simp [hl] at h
  have := scanLiteral_length hl
  rcases hr : skipSpace r with _ | ⟨c, q⟩
  · simp [hl, hr] at h
  have := length_of_skipSpace hr
  by_cases hc : (c == ':') = true
  · obtain rfl : q = v := by simpa [hl, hr, hc] using h
    omega
  · simp [hl, hr, hc] at h

/-- A name without a colon gets none from `u`. -/
theorem memberName_broken {t u : List Char} {d : Draft} (h : (memberName t).2 = .error d) (ho : Opens u)
    (hu : Stray u) (hl : ∀ r ∈ (scanLiteral none u).rest.toOption, Stray r) :
    ∃ d', (memberName (t ++ u)).2 = .error d' := by
  unfold memberName at h ⊢
  dsimp only at h ⊢
  have hcolon : ∀ r, Stray r → ∃ d', (match skipSpace r with
      | [] => .error (.broken .endInObject .endInObject)
      | c :: q => if c == ':' then .ok q else .error (.broken .colonWanted .colonWanted)
      : Except Draft (List Char)) = .error d' := by
    intro r hr
    rcases hx : skipSpace r with _ | ⟨c, q⟩
    · exact ⟨_, rfl⟩
    · have := (hr c (by simp [hx])).2.1
      exact ⟨_, by simp [this]; rfl⟩
  rcases he : (scanLiteral none t).rest with f | r
  · have := scanLiteral_broken he ho hl
    rcases he' : (scanLiteral none (t ++ u)).rest with g | r
    · exact ⟨_, rfl⟩
    · exact hcolon r (this r (by simp [he', Except.toOption]))
  · rw [scanLiteral_append he]
    rcases hr : skipSpace r with _ | ⟨c, q⟩
    · simp only [skipSpace_append_of_nil hr]
      exact hcolon u hu
    · have hru := skipSpace_append hr u
      by_cases hc : (c == ':') = true
      · simp [he, hr, hc] at h
      · simp [hru, hc]

end Json

end Captioning
