import Captioning.Proofs.JsonWriting
import Captioning.Proofs.Utf8
import Captioning.RecordLog.Basic
/-!
# The line of a record

The line of a record says that there is a record of its identity, with the end of the line behind it or
without (`ofText_line`). No shorter front of it does, nor does any front behind which another one follows
(`ofText_front`). The end of a line does not matter to what the line says (`ofText_append_lineEnd`).
-/

namespace Captioning

open Json (Follows Stray phrasesValue skipSpace)

namespace Record

/-- The members of a record as phrases and lists of phrases. -/
def phrases (r : Record) : List (String × OneOrMany) :=
  [("id", .one r.id), ("url", .one r.url)]
    ++ (match r.attribution with
      | some a => [("attribution", .one a)]
      | none => [])
    ++ [("original_description", .one r.caption), ("literal", .one r.description.literal),
      ("source", .one r.description.source), ("mood", r.description.mood), ("action", r.description.action),
      ("context", .one r.description.context), ("tags", .many r.description.tags),
      ("described_at", .one r.describedAt.text)]

theorem members_eq (r : Record) : r.members = r.phrases.map fun p => (p.1, p.2.toValue) := by
  unfold members phrases Description.members
  cases r.attribution <;> rfl

/-- The characters of a record's line. -/
def text (r : Record) : List Char :=
  (phrasesValue r.phrases).compact

theorem toList_line (r : Record) : r.line.toList = r.text := by
  simp [line, Json.Value.line, text, phrasesValue, members_eq]

theorem text_start (r : Record) : ∃ t, r.text = '{' :: '"' :: 'i' :: t := by
  have hp : r.phrases = ("id", .one r.id) :: ("url", .one r.url) :: (r.phrases.tail).tail := by
    unfold phrases
    rfl
  have hc := Json.compact_phrasesValue r.phrases []
  rw [List.append_nil, hp, Json.membersText_cons, ← hp] at hc
  exact ⟨_, hc⟩

theorem text_ne_nil (r : Record) : r.text ≠ [] := by
  obtain ⟨t, ht⟩ := r.text_start
  simp [ht]

theorem feed_notMem_text (r : Record) : '\n' ∉ r.text :=
  Json.feed_notMem_compact r.phrases

/-- The identity of a record is found among its members. -/
theorem identity?_phrases (r : Record) :
    RecordLog.identity? (.object (Json.sortedPhrases r.phrases [])) = some r.id := by
  have hm : Json.member? "id" (Json.sortedPhrases r.phrases []) = some (.string r.id) := by
    have hk : "id" ∉ (r.phrases.tail).map Prod.fst := by
      unfold phrases
      cases r.attribution <;> simp
    have hp : r.phrases = ("id", .one r.id) :: r.phrases.tail := by
      unfold phrases
      rfl
    rw [hp]
    exact (Json.member?_sortedPhrases hk _).trans (Json.member?_cons _ _ _ _)
  simp [RecordLog.identity?, hm, Json.Value.text?]

/-- A front of a record's line that may not be empty. -/
structure IsFront (p : List Char) (r : Record) : Prop where
  ne_nil : p ≠ []
  isPrefix : p <+: r.text

theorem isFront_text (r : Record) : IsFront r.text r := ⟨r.text_ne_nil, List.prefix_refl _⟩

theorem stray_letter (s : List Char) : Stray ('i' :: s) := by
  intro c hc
  rw [Json.skipSpace_cons rfl] at hc
  obtain rfl : 'i' = c := by simpa using hc
  decide

theorem IsFront.exists_brace {p : List Char} {r : Record} (h : IsFront p r) : ∃ s, p = '{' :: s := by
  obtain ⟨q, hq⟩ := h.isPrefix
  obtain ⟨t, ht⟩ := r.text_start
  obtain ⟨c, s, rfl⟩ := List.exists_cons_of_ne_nil h.ne_nil
  obtain ⟨rfl, -⟩ := List.cons.inj (hq.trans ht)
  exact ⟨s, rfl⟩

/-- The front of a record's line may follow any text that breaks off. -/
theorem IsFront.follows {p u : List Char} {r : Record} (h : IsFront p r) (hu : Follows Stray u) :
    Follows Stray (p ++ u) := by
  obtain ⟨q, hq⟩ := h.isPrefix
  obtain ⟨t, ht⟩ := r.text_start
  exact Json.follows_front hq h.ne_nil ht stray_letter hu

end Record

namespace RecordLog

open Json (readWhole readValue)

/-! ## What a line says -/

theorem ofText_eq (s : List Char) (h : Text.allBlank s = false) :
    Line.ofText s = match readWhole readValue (Json.Draft.ofText s) with
      | .ok v => match identity? v with
        | some id => .record id
        | none => .malformed
      | .error _ => .malformed := by
  have ht : (String.ofList s).toList = s := String.toList_ofList
  unfold Line.ofText Json.readText
  rw [h, ht]
  rfl

theorem allBlank_front {p u : List Char} {r : Record} (h : Record.IsFront p r) :
    Text.allBlank (p ++ u) = false := by
  obtain ⟨s, rfl⟩ := h.exists_brace
  simp [Text.allBlank, show Text.isBlank '{' = false by decide]

/-- The line of a record says that there is one, whatever blanks follow. -/
theorem ofText_line (r : Record) {u : List Char} (hu : skipSpace u = []) :
    Line.ofText (r.text ++ u) = .record r.id := by
  rw [ofText_eq _ (allBlank_front r.isFront_text), Record.text, Json.ofText_compact]
  simp [readWhole, Json.readValue_phrases, hu, r.identity?_phrases, bind, Except.bind, pure, Except.pure]

/-- The front of a record's line says nothing, unless it is the whole line and nothing follows. -/
theorem ofText_front {p u : List Char} {r : Record} (h : Record.IsFront p r) (hu : Follows Stray u)
    (hn : p ≠ r.text ∨ skipSpace u ≠ []) : Line.ofText (p ++ u) = .malformed := by
  have hx : ∃ f, readWhole readValue (Json.Draft.ofText (p ++ u)) = .error f := by
    by_cases hp : p = r.text
    · have hs := hn.resolve_left (not_not_intro hp)
      rw [hp, Record.text, Json.ofText_compact]
      have he : (skipSpace u).isEmpty = false := by simpa using hs
      exact ⟨.trailingCharacters, by
        simp [readWhole, Json.readValue_phrases, he, bind, Except.bind]⟩
    · obtain ⟨q, hq⟩ := h.isPrefix
      obtain ⟨s, rfl⟩ := h.exists_brace
      refine Json.readWhole_of_broken (Json.readDraft_object_broken hu ?_)
      rcases hd : Json.readDraft (2 * ('{' :: s ++ u).length + 2) ('{' :: s) with ⟨d, _ | rest⟩
      · rfl
      · have hnil := (Json.readDraft_front hq hd).2
        rw [hnil, List.append_nil] at hq
        exact absurd hq hp
  obtain ⟨f, hf⟩ := hx
  rw [ofText_eq _ (allBlank_front h), hf]

/-- The end of a line does not matter to what the line says. -/
theorem ofText_append_lineEnd {c : Char} (hc : c = '\n' ∨ c = '\r') (s : List Char) :
    Line.ofText (s ++ [c]) = Line.ofText s := by
  have hb : Text.allBlank (s ++ [c]) = Text.allBlank s := by
    have hc : Text.isBlank c = true := by rcases hc with rfl | rfl <;> decide
    simp [Text.allBlank, hc]
  by_cases h : Text.allBlank s = true
  · simp [Line.ofText, hb, h]
  · have h' : Text.allBlank s = false := by simpa using h
    rw [ofText_eq _ h', ofText_eq _ (hb.trans h')]
    cases hv : readWhole readValue (Json.Draft.ofText s) with
    | ok v => rw [(Json.readWhole_append_lineEnd hc s v).2 hv]
    | error f =>
      cases hv' : readWhole readValue (Json.Draft.ofText (s ++ [c])) with
      | error g => rfl
      | ok v =>
        rw [(Json.readWhole_append_lineEnd hc s v).1 hv'] at hv
        cases hv

end RecordLog

end Captioning
