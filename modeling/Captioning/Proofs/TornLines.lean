import Captioning.Proofs.RecordLine
/-!
# Lines that were torn

A crash may leave any front of a record's line in a log, and another record may come to stand right behind it. The
identity that a text holds (`identityOf?`) is the one that a line of a log stands for (`id?_ofText`). A front of a
record's line holds the identity of the record only if nothing is missing (`identityOf?_front`). It holds none when
another line follows (`identityOf?_front_append`): wherever the tear is, in a name, an escape, a string or a list, what
breaks off there is not mended by an object behind it (`ofText_front`).
-/

namespace Captioning

/-! ## Blank texts -/

namespace Text

theorem ne_of_isBlank {c d : Char} (hc : isBlank c = true) (hd : isBlank d = false) : c ≠ d := by
  rintro rfl
  rw [hc] at hd
  cases hd

end Text

namespace Json

/-- No value starts with a blank, of whatever kind. -/
theorem leafDraft_of_isBlank {c : Char} (h : Text.isBlank c = true) (r : List Char) : (leafDraft c r).2 = none := by
  have hn := Text.ne_of_isBlank h (show Text.isBlank 'n' = false by decide)
  have ht := Text.ne_of_isBlank h (show Text.isBlank 't' = false by decide)
  have hf := Text.ne_of_isBlank h (show Text.isBlank 'f' = false by decide)
  have hm := Text.ne_of_isBlank h (show Text.isBlank '-' = false by decide)
  have hq := Text.ne_of_isBlank h (show Text.isBlank '"' = false by decide)
  have hd : ¬ c.isDigit = true := fun hd => by
    rw [Text.not_isBlank_of_isDigit hd] at h
    cases h
  simp [leafDraft, hn, ht, hf, hm, hq, hd]

/-- Nothing is read from a text of blanks. -/
theorem ofText_of_allBlank {s : List Char} (h : Text.allBlank s = true) : (Draft.ofText s).2 = none := by
  rcases hs : skipSpace s with _ | ⟨c, r⟩
  · exact readDraft_blank _ hs
  · have hc : Text.isBlank c = true := by
      have hmem : c ∈ skipSpace s := hs ▸ List.mem_cons_self
      exact List.all_eq_true.1 h c ((List.dropWhile_sublist isSpace).subset hmem)
    have ha := Text.ne_of_isBlank hc (show Text.isBlank '[' = false by decide)
    have ho := Text.ne_of_isBlank hc (show Text.isBlank '{' = false by decide)
    rw [Draft.ofText, readDraft_leaf _ hs ha ho]
    exact leafDraft_of_isBlank hc r

end Json

namespace RecordLog

open Json (readText readValue)

/-! ## The identity that a text holds -/

/-- The identity of a text that is a value with an identity. -/
def identityOf? (text : String) : Option String :=
  (readText readValue text).toOption.bind identity?

/-- A line of a log stands for the identity that its text holds. A blank one needs no case of its own. -/
theorem id?_ofText (text : String) : (Line.ofText text.toList).id? = identityOf? text := by
  rw [identityOf?, readText]
  cases hb : Text.allBlank text.toList with
  | true =>
    obtain ⟨f, hf⟩ := Json.readWhole_of_broken (Json.ofText_of_allBlank hb)
    have hread : Json.readWhole readValue (Json.Draft.ofText text.toList) = .error f := hf
    rw [hread, Line.ofText, hb]
    rfl
  | false =>
    rw [ofText_eq _ hb]
    cases Json.readWhole readValue (Json.Draft.ofText text.toList) with
    | error f => rfl
    | ok v => cases hi : identity? v <;> simp [hi, Except.toOption, Line.id?]

theorem identityOf?_line (r : Record) : identityOf? r.line = some r.id := by
  have hl := ofText_line r (show Json.skipSpace [] = [] from rfl)
  rw [List.append_nil, ← r.toList_line] at hl
  rw [← id?_ofText, hl]
  rfl

/-! ## Fronts of a line -/

section
variable {r : Record} {p : String}

theorem isFront_of_line (h : p.toList <+: r.line.toList) (hp : p ≠ "") : Record.IsFront p.toList r where
  ne_nil hnil := hp (String.toList_eq_nil_iff.1 hnil)
  isPrefix := r.toList_line ▸ h

/-- A front of a record's line that lacks its end holds no identity. -/
theorem identityOf?_front (h : p.toList <+: r.line.toList) (hne : p ≠ r.line) : identityOf? p = none := by
  by_cases hp : p = ""
  · rw [hp, ← id?_ofText]
    rfl
  · have hmissing : p.toList ≠ r.text := fun he => hne (String.toList_inj.1 (he.trans r.toList_line.symm))
    have hl := ofText_front (isFront_of_line h hp) Json.follows_nil.toStray (.inl hmissing)
    rw [List.append_nil] at hl
    rw [← id?_ofText, hl]
    rfl

/-- A front of a record's line holds no identity when another record's line follows, even if nothing of it is
missing. -/
theorem identityOf?_front_append (h : p.toList <+: r.line.toList) (hp : p ≠ "") (r' : Record) :
    identityOf? (p ++ r'.line) = none := by
  have hfollows : Json.Follows Json.Stray r'.text := by
    simpa using r'.isFront_text.follows Json.follows_nil.toStray
  have hmore : Json.skipSpace r'.text ≠ [] := by
    obtain ⟨t, ht⟩ := r'.text_start
    rw [ht, Json.skipSpace_cons rfl]
    exact List.cons_ne_nil _ _
  rw [← id?_ofText, String.toList_append, r'.toList_line,
    ofText_front (isFront_of_line h hp) hfollows (.inr hmore)]
  rfl

end

/-- A torn record is never taken for a record. The line of a record holds its identity; a front of the line that lacks
the end holds none, and neither does one that is not empty when the line of another record stands right behind it. -/
theorem torn_line_unread (r : Record) {p : String} (h : p.toList <+: r.line.toList) :
    identityOf? r.line = some r.id
    ∧ (p ≠ r.line → identityOf? p = none)
    ∧ (p ≠ "" → ∀ r' : Record, identityOf? (p ++ r'.line) = none) :=
  ⟨identityOf?_line r, identityOf?_front h, identityOf?_front_append h⟩

namespace TornLine

/-- A record with an escaped quote in its identity and a list of moods. -/
def record : Record :=
  ⟨"a\"1", "u", none, "", ⟨"A cat.", "unknown", .many ["calm", "odd"], .one "", "", ["cat"]⟩, ⟨⟨2024, 1, 1⟩, 0, 0⟩⟩

/-- The first `n` characters of its line. Nine end behind the backslash of the escape, so that what follows should be
the rest of it. 102 end behind the comma in the list of moods, where a line that follows is a whole item of the list. -/
def front (n : Nat) : String :=
  String.ofList (record.text.take n)

theorem toList_front (n : Nat) : (front n).toList = record.text.take n := String.toList_ofList

theorem front_starts_line (n : Nat) : (front n).toList <+: record.line.toList := by
  rw [toList_front, record.toList_line]
  exact List.take_prefix n _

theorem front_ne_line {n : Nat} (hn : n ≤ 102) : front n ≠ record.line := by
  intro he
  have hlong : 102 < record.text.length := by decide +kernel
  have hlen := congrArg (fun s => s.toList.length) he
  simp only [toList_front, record.toList_line, List.length_take] at hlen
  omega

theorem front_ne_empty {n : Nat} (hn : 0 < n) : front n ≠ "" := by
  intro he
  have hnil : record.text.take n = [] := by rw [← toList_front, he, String.toList_empty]
  rcases List.take_eq_nil_iff.1 hnil with h | h
  · exact Nat.ne_of_gt hn h
  · exact record.text_ne_nil h

end TornLine

open TornLine in
/-- A line that was torn inside of an escape, and one that was torn inside of a list. -/
theorem torn_line_unread_inside :
    ((front 9).toList <+: record.line.toList ∧ front 9 ≠ record.line ∧ front 9 ≠ ""
      ∧ identityOf? (front 9) = none ∧ identityOf? (front 9 ++ record.line) = none)
    ∧ (front 102).toList <+: record.line.toList ∧ front 102 ≠ record.line ∧ front 102 ≠ ""
      ∧ identityOf? (front 102) = none ∧ identityOf? (front 102 ++ record.line) = none := by
  obtain ⟨-, hescape, hescape'⟩ := torn_line_unread record (front_starts_line 9)
  obtain ⟨-, hlist, hlist'⟩ := torn_line_unread record (front_starts_line 102)
  have hline := front_ne_line (n := 9) (by decide)
  have hline' := front_ne_line (n := 102) (by decide)
  have hsome := front_ne_empty (n := 9) (by decide)
  have hsome' := front_ne_empty (n := 102) (by decide)
  exact ⟨⟨front_starts_line 9, hline, hsome, hescape hline, hescape' hsome record⟩,
    front_starts_line 102, hline', hsome', hlist hline', hlist' hsome' record⟩

end RecordLog

end Captioning
