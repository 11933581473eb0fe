import Captioning.Proofs.InstantText
import Captioning.Proofs.JsonFields
import Captioning.Proofs.LogFiles
/-!
# Reading a record back

A description is read back from its members wherever they stand among those of a record
(`readMembersInto_description`), and a record from its line (`ofText_line_append`). What an append adds to a
log is that line and its end, and nothing else in it is a line feed (`append_line_reads_back`).
-/

namespace Captioning

open Json (phraseDraft readMembersInto)

/-! ## Phrases and times -/

theorem OneOrMany.read_phrase {depth : Nat} (h : 1 < depth) (x : OneOrMany) :
    OneOrMany.read depth (phraseDraft x) = .ok x := by
  simp only [OneOrMany.read, Json.readValue_phrase x h, OneOrMany.ofValue?_toValue, bind, Except.bind]

namespace Record

theorem readInstant_text {t : Instant} (h : t.IsMoment) (depth : Nat) :
    readInstant depth (.string (.ok t.text.toList)) = .ok t := by
  have hs : t.text.toList = t.chars := by simp [Instant.text]
  simp only [readInstant, Json.readString_text, bind, Except.bind]
  rw [hs, Instant.read?_chars h]

/-! ## The members of a record -/

/-- The members of a description as phrases and lists of phrases. -/
def descriptionPhrases (d : Description) : List (String × OneOrMany) := [
  ("literal", .one d.literal), ("source", .one d.source), ("mood", d.mood), ("action", d.action),
  ("context", .one d.context), ("tags", .many d.tags)]

/-- The members of a record in front of its description. -/
def ownPhrases (r : Record) : List (String × OneOrMany) :=
  [("id", .one r.id), ("url", .one r.url)]
    ++ (match r.attribution with
      | some a => [("attribution", .one a)]
      | none => [])
    ++ [("original_description", .one r.caption)]

theorem phrases_eq (r : Record) :
    r.phrases = r.ownPhrases ++ (descriptionPhrases r.description ++ [("described_at", .one r.describedAt.text)]) := by
  unfold phrases ownPhrases
  cases r.attribution <;> rfl

/-- What is found of a description when it is read. -/
def foundDescription (d : Description) : Description.Draft :=
  ⟨some d.literal, some d.source, some d.mood, some d.action, some d.context, some d.tags⟩

/-- What is found of a record when its line is read. -/
def found (r : Record) : Draft :=
  ⟨some r.id, some r.url, r.attribution.map some, some r.caption, some r.describedAt,
    foundDescription r.description⟩

theorem finish_found (r : Record) : r.found.finish = .ok r := by
  obtain ⟨id, url, attribution, caption, ⟨literal, source, mood, action, context, tags⟩, describedAt⟩ := r
  cases attribution <;> rfl

/-- What is read as a member that is a phrase or a list of phrases. -/
def memberDraft (p : String × OneOrMany) : Except Json.Fault (List Char) × Json.Draft :=
  (.ok p.1.toList, phraseDraft p.2)

/-- The members of a description are read among those of a record, which has none of them yet. -/
theorem readMembersInto_description (d : Description) {r : Draft} (h : r.description = .empty)
    (more : List (Except Json.Fault (List Char) × Json.Draft)) :
    readMembersInto fields shape.others 127 ((descriptionPhrases d).map memberDraft ++ more) r
      = readMembersInto fields shape.others 127 more { r with description := foundDescription d } := by
  have hmood := OneOrMany.read_phrase (show 1 < 127 by decide) d.mood
  have haction := OneOrMany.read_phrase (show 1 < 127 by decide) d.action
  have htags := Json.readList_texts (show 1 < 127 by decide) d.tags
  obtain ⟨id, url, attribution, caption, describedAt, description⟩ := r
  obtain rfl : description = .empty := h
  simp only [descriptionPhrases, memberDraft, List.map_cons, List.map_nil, List.cons_append, List.nil_append]
  simp [readMembersInto, fields, Description.fields, liftField, Json.readString_text, hmood, haction, htags,
    Description.Draft.empty, foundDescription, bind, Except.bind, pure, Except.pure]

/-- The members of a record are read. -/
theorem readMembersInto_phrases {r : Record} (h : r.describedAt.IsMoment) :
    readMembersInto fields shape.others 127 (r.phrases.map memberDraft) Draft.empty = .ok r.found := by
  have hown : ∀ more, readMembersInto fields shape.others 127 (r.ownPhrases.map memberDraft ++ more) Draft.empty
      = readMembersInto fields shape.others 127 more
        ⟨some r.id, some r.url, r.attribution.map some, some r.caption, none, .empty⟩ := by
    intro more
    unfold ownPhrases
    cases r.attribution <;>
      simp [readMembersInto, fields, memberDraft, Json.readString_text, Json.readOptional, Draft.empty, bind, Except.bind,
        pure, Except.pure, Except.map]
  have htime := readInstant_text h 127
  rw [phrases_eq, List.map_append, List.map_append, hown, readMembersInto_description _ rfl]
  simp [readMembersInto, fields, memberDraft, htime, found, bind, Except.bind, pure, Except.pure]

/-- A record is read back from its line, whatever blanks follow. -/
theorem ofText_line_append {r : Record} (h : r.describedAt.IsMoment) {s : String}
    (hs : Json.skipSpace s.toList = []) : ofText (r.line ++ s) = .ok r := by
  have hb : Json.openBracket Json.maxDepth = .ok 127 := rfl
  have hd : Json.phrasesDraft r.phrases = .object (r.phrases.map memberDraft) .closed := rfl
  have hm : readMembersInto shape.fields shape.others 127 (r.phrases.map memberDraft) Draft.empty = .ok r.found :=
    readMembersInto_phrases h
  rw [ofText, Json.readText, String.toList_append, toList_line, text, Json.ofText_compact, hd]
  simp [Json.readWhole, Json.Shape.read, hb, hm, Json.Closing.wantingMembers, finish_found, hs, bind, Except.bind, pure,
    Except.pure]

end Record

namespace RecordLog

open FileTree (write_eq_ok)

/-- A log that was appended to held something, or was not there. -/
theorem heldAt_of_append {t u : FileTree} {path : String} {b : Bytes} (h : t.append path b = .ok u) :
    ∃ held, heldAt t path = some held ∧ heldAt u path = some (held ++ b) := by
  have hplace : ∃ p, t.place path = .ok p ∧ t.get? p ≠ some .directory := by
    unfold FileTree.append at h
    split at h
    · obtain ⟨p, hp, hd, -⟩ := write_eq_ok h
      exact ⟨p, hp, hd⟩
    · obtain ⟨p, hp, hd, -⟩ := write_eq_ok h
      exact ⟨p, hp, hd⟩
  obtain ⟨p, hp, hd⟩ := hplace
  have hheld : ∃ held, heldAt t path = some held := by
    cases hc : t.get? p with
    | none => exact ⟨[], heldAt_eq_some.2 ⟨p, hp, .inr ⟨hc, rfl⟩⟩⟩
    | some n =>
      cases n with
      | file c => exact ⟨c, heldAt_eq_some.2 ⟨p, hp, .inl hc⟩⟩
      | directory => exact absurd hc hd
  obtain ⟨held, hheld⟩ := hheld
  exact ⟨held, hheld, heldAt_append hheld h⟩

/-- What an append adds to a log is one line and its end. The line is the text of the record, it holds no line
feed, it is read back as the record, and it says that there is a record of its identity. -/
theorem append_line_reads_back (r : Record) (h : r.describedAt.IsMoment) :
    ∃ row : Bytes, 10 ∉ row ∧ Utf8.decode? row = some r.line.toList
      ∧ (∀ (t u : FileTree) (log log' : RecordLog), append t log r = .ok (u, log') →
        ∃ held, heldAt t log.path = some held ∧ heldAt u log.path = some (held ++ (row ++ [10])))
      ∧ Record.ofText r.line = .ok r ∧ Record.ofText (r.line ++ "\n") = .ok r
      ∧ Line.ofText r.line.toList = .record r.id := by
  refine ⟨lineBytes r, feed_notMem_lineBytes r, ?_, fun t u log log' ha => ?_, ?_, ?_, ?_⟩
  · rw [Utf8.decode?, lineBytes, Utf8.decodeFrom_encode, r.toList_line]
    rfl
  · obtain ⟨v, hv, hu⟩ := bind_eq_ok.1 ha
    obtain ⟨rfl, -⟩ := Prod.mk.inj (Except.ok.inj hu)
    rw [← bytesOf_eq]
    exact heldAt_of_append hv
  · simpa using Record.ofText_line_append h (s := "") rfl
  · exact Record.ofText_line_append h (by decide)
  · simpa [r.toList_line] using ofText_line r (show Json.skipSpace [] = [] from rfl)

/-! ## A record made during a leap second -/

namespace LeapRecord

/-- A record with what a line has to escape, one phrase, no phrases, and a fraction of a leap second. -/
def record : Record where
  id := "a\"1"
  url := "https://example.com/é.gif"
  attribution := none
  caption := "first line\nsecond line"
  description := ⟨"A cat\tfalls.", "unknown", .one "😀", .many [], "", ["cat", "fail"]⟩
  describedAt := ⟨⟨2016, 12, 31⟩, 86399, 1500000000⟩

theorem isMoment : record.describedAt.IsMoment where
  date := by decide
  year_nonneg := by decide
  year_le := by decide
  second_lt := by decide
  nano_lt := by decide

end LeapRecord

theorem leap_record_reads_back : LeapRecord.record.describedAt.IsMoment
    ∧ Record.ofText LeapRecord.record.line = .ok LeapRecord.record :=
  have ⟨_, _, _, _, hread, _⟩ := append_line_reads_back LeapRecord.record LeapRecord.isMoment
  ⟨LeapRecord.isMoment, hread⟩

end RecordLog

end Captioning
