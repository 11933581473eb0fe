import Captioning.Model.Client
import Captioning.Proofs.JsonTrees
import Captioning.Proofs.JsonWhole
import Captioning.Proofs.RecordText
/-!
# Answers by their content

What is read from the answer of a model depends on the members of its object, not on their order, on the blanks between
them or on members of other names. A field of a record is read whatever fields have been read before
(`Json.Independent`), so two members may change places (`Json.Taken.swap`), and all of them may
(`Json.readMembersInto_perm`). A description is read back from its own line (`Client.parse_line`).
-/

namespace Captioning

namespace Json

/-! ## Trimmed texts -/

section
variable {s : List Char} {members : List (Name × Tree)}

theorem isBlank_of_isSpace {c : Char} (h : isSpace c = true) : Text.isBlank c = true := by
  simp only [isSpace, Bool.or_eq_true, beq_iff_eq] at h
  rcases h with ((rfl | rfl) | rfl) | rfl <;> decide

theorem Blank.allBlank (h : Blank s) : Text.allBlank s = true :=
  List.all_eq_true.2 fun c hc => isBlank_of_isSpace (h c hc)

/-- Blanks around braces are trimmed. -/
theorem trim_braces {before behind : List Char} (hb : Blank before) (hh : Blank behind) (s : List Char) :
    Text.trim (before ++ '{' :: (s ++ ['}']) ++ behind) = '{' :: (s ++ ['}']) := by
  refine Text.trim_around hb.allBlank hh.allBlank (fun c hc => ?_) fun c hc => ?_
  · obtain rfl : '{' = c := by simpa using hc
    rfl
  · rw [← List.cons_append, List.getLast?_concat] at hc
    obtain rfl := Option.some.inj hc
    rfl

/-- The text of an object that is trimmed is a text of the object, and starts with its brace. -/
theorem Tree.IsText.trim (h : (Tree.object members).IsText s) :
    (Tree.object members).IsText (Text.trim s) ∧ ∃ q, Text.trim s = '{' :: q := by
  obtain ⟨laid, gap, hl, hg, rfl⟩ := h
  obtain ⟨gap', inner, pad, hg', hi, hp, rfl⟩ := laid_bracketed.1 hl
  have hinner : inner ++ (pad ++ ['}']) = (inner ++ pad) ++ ['}'] := (List.append_assoc ..).symm
  have htrim := trim_braces hg' hg (inner ++ pad)
  rw [← hinner] at htrim
  refine ⟨⟨_, [], laid_bracketed.2 ⟨[], inner, pad, blank_nil, hi, hp, rfl⟩, blank_nil, ?_⟩, _, htrim⟩
  rw [List.append_nil]
  exact htrim

end

/-! ## Members in any order -/

section
variable {σ : Type} {fields : List (Field σ)} {depth : Nat}

/-- A member is read into a record: as a field that has not been read before, or as none that is passed over. -/
inductive Taken (fields : List (Field σ)) (depth : Nat) : Except Fault (List Char) × Draft → σ → σ → Prop
  | field {k : List Char} {d : Draft} {f : Field σ} {r r' : σ} :
      fields.find? (fun g => g.name == String.ofList k) = some f → f.present r = false → f.take depth d r = .ok r' →
      Taken fields depth (.ok k, d) r r'
  | passed {k : List Char} {d : Draft} {r : σ} : fields.find? (fun g => g.name == String.ofList k) = none →
      d.pass = .ok () → Taken fields depth (.ok k, d) r r

/-- The fields of a record do not get into each other's way: each is there once it is read, and what another one is read
as does not depend on it. -/
structure Independent (fields : List (Field σ)) : Prop where
  present : ∀ f ∈ fields, ∀ {depth d r r'}, f.take depth d r = .ok r' → f.present r' = true
  other : ∀ f ∈ fields, ∀ g ∈ fields, f.name ≠ g.name → ∀ {depth d r r'}, f.take depth d r = .ok r' →
    g.present r' = g.present r
  swap : ∀ f ∈ fields, ∀ g ∈ fields, f.name ≠ g.name → ∀ {depth d e r r' u}, f.take depth d r = .ok r' →
    g.take depth e r' = .ok u → ∃ s, g.take depth e r = .ok s ∧ f.take depth d s = .ok u

variable {m m' : Except Fault (List Char) × Draft} {ms ms' : List (Except Fault (List Char) × Draft)} {r s u : σ}

theorem readMembersInto_cons : readMembersInto fields .pass depth (m :: ms) r = .ok u
    ↔ ∃ s, Taken fields depth m r s ∧ readMembersInto fields .pass depth ms s = .ok u := by
  obtain ⟨k | k, d⟩ := m
  · constructor
    · intro h
      cases h
    · rintro ⟨s, h, -⟩
      cases h
  · rw [readMembersInto, bind_eq_ok]
    constructor
    · rintro ⟨k, hk, h⟩
      obtain rfl := Except.ok.inj hk
      dsimp only at h
      split at h
      · next f hf =>
        split at h
        · cases h
        · next hp =>
          obtain ⟨s, ht, h⟩ := bind_eq_ok.1 h
          exact ⟨s, .field hf (by simpa using hp) ht, h⟩
      · next hf =>
        obtain ⟨⟨⟩, hp, h⟩ := bind_eq_ok.1 h
        exact ⟨r, .passed hf hp, h⟩
    · rintro ⟨s, ht, h⟩
      refine ⟨k, rfl, ?_⟩
      cases ht with
      | field hf hp ht => simp [hf, hp, ht, h, bind, Except.bind]
      | passed hf hp => simp [hf, hp, h, bind, Except.bind]

/-- The names of members that are read are texts. -/
theorem names_of_readMembersInto (h : readMembersInto fields .pass depth ms r = .ok u) :
    ∀ m ∈ ms, ∃ k, m.1 = .ok k := by
  induction ms generalizing r with
  | nil => exact fun m hm => absurd hm List.not_mem_nil
  | cons m ms ih =>
    obtain ⟨s, ht, h⟩ := readMembersInto_cons.1 h
    refine List.forall_mem_cons.2 ⟨?_, ih h⟩
    cases ht with
    | field => exact ⟨_, rfl⟩
    | passed => exact ⟨_, rfl⟩

/-- Two members may change places. -/
theorem Taken.swap (hi : Independent fields) (h : Taken fields depth m r s) (h' : Taken fields depth m' s u) :
    ∃ s', Taken fields depth m' r s' ∧ Taken fields depth m s' u := by
  cases h with
  | passed hf hp =>
    cases h' with
    | passed hf' hp' => exact ⟨r, .passed hf' hp', .passed hf hp⟩
    | field hf' hp' ht' => exact ⟨u, .field hf' hp' ht', .passed hf hp⟩
  | @field k d f _ _ hf hp ht =>
    cases h' with
    | passed hf' hp' => exact ⟨r, .passed hf' hp', .field hf hp ht⟩
    | @field k' d' g _ _ hg hp' ht' =>
      have hfm := List.mem_of_find?_eq_some hf
      have hgm := List.mem_of_find?_eq_some hg
      -- a field that was read is there, and is not read again
      have hne : f.name ≠ g.name := by
        intro e
        have hk : String.ofList k = String.ofList k' := by
          have hfk := List.find?_some hf
          have hgk := List.find?_some hg
          rw [beq_iff_eq] at hfk hgk
          rw [← hfk, ← hgk, e]
        rw [hk] at hf
        obtain rfl := Option.some.inj (hf.symm.trans hg)
        rw [hi.present f hfm ht] at hp'
        cases hp'
      obtain ⟨s', hs, hu⟩ := hi.swap f hfm g hgm hne ht ht'
      refine ⟨s', .field hg ?_ hs, .field hf ?_ hu⟩
      · rw [← hi.other f hfm g hgm hne ht, hp']
      · rw [hi.other g hgm f hfm hne.symm hs, hp]

/-- Members are read alike in any order. -/
theorem readMembersInto_perm (hi : Independent fields) (hp : ms.Perm ms')
    (h : readMembersInto fields .pass depth ms r = .ok u) : readMembersInto fields .pass depth ms' r = .ok u := by
  induction hp generalizing r with
  | nil => exact h
  | cons m _ ih =>
    obtain ⟨s, ht, h⟩ := readMembersInto_cons.1 h
    exact readMembersInto_cons.2 ⟨s, ht, ih h⟩
  | swap m m' ms =>
    obtain ⟨s, ht, h⟩ := readMembersInto_cons.1 h
    obtain ⟨v, ht', h⟩ := readMembersInto_cons.1 h
    obtain ⟨s', hs, hv⟩ := Taken.swap hi ht ht'
    exact readMembersInto_cons.2 ⟨s', hs, readMembersInto_cons.2 ⟨v, hv, h⟩⟩
  | trans _ _ ih₁ ih₂ => exact ih₂ (ih₁ h)

/-- A member that is no field, and is passed over. -/
def Beside (fields : List (Field σ)) (m : Except Fault (List Char) × Draft) : Prop :=
  ∃ name : String, m.1 = .ok name.toList ∧ name ∉ fields.map (·.name) ∧ m.2.pass = .ok ()

theorem Beside.taken (h : Beside fields m) (r : σ) : Taken fields depth m r r := by
  obtain ⟨name, hk, hn, hp⟩ := h
  obtain ⟨k, d⟩ := m
  obtain rfl : k = .ok name.toList := hk
  refine .passed ?_ hp
  rw [String.ofList_toList]
  exact find?_field_eq_none.2 hn

/-- Members that are no fields make no difference. -/
theorem readMembersInto_beside {extra : List (Except Fault (List Char) × Draft)} (hx : ∀ m ∈ extra, Beside fields m)
    (h : readMembersInto fields .pass depth ms r = .ok u) :
    readMembersInto fields .pass depth (ms ++ extra) r = .ok u := by
  induction ms generalizing r with
  | nil =>
    obtain rfl := Except.ok.inj h
    clear h
    induction extra with
    | nil => rfl
    | cons m extra ih =>
      obtain ⟨hm, hx⟩ := List.forall_mem_cons.1 hx
      exact readMembersInto_cons.2 ⟨r, hm.taken r, ih hx⟩
  | cons m ms ih =>
    obtain ⟨s, ht, h⟩ := readMembersInto_cons.1 h
    exact readMembersInto_cons.2 ⟨s, ht, ih h⟩

end

end Json

namespace Description

/-- The fields of a description do not get into each other's way. -/
theorem independent : Json.Independent fields where
  present := by
    intro f hf
    simp only [fields, List.mem_cons, List.not_mem_nil, or_false] at hf
    intro depth d r r' h
    rcases hf with rfl | rfl | rfl | rfl | rfl | rfl
    all_goals
      obtain ⟨x, -, h⟩ := bind_eq_ok.1 h
      obtain rfl := Except.ok.inj h
      rfl
  other := by
    intro f hf g hg hne
    simp only [fields, List.mem_cons, List.not_mem_nil, or_false] at hf hg
    intro depth d r r' h
    rcases hf with rfl | rfl | rfl | rfl | rfl | rfl
    all_goals
      obtain ⟨x, -, h⟩ := bind_eq_ok.1 h
      obtain rfl := Except.ok.inj h
      rcases hg with rfl | rfl | rfl | rfl | rfl | rfl
      all_goals first
        | rfl
        | exact absurd rfl hne
  swap := by
    intro f hf g hg hne
    simp only [fields, List.mem_cons, List.not_mem_nil, or_false] at hf hg
    intro depth d e r r' u h h'
    rcases hf with rfl | rfl | rfl | rfl | rfl | rfl
    all_goals
      obtain ⟨x, hx, h⟩ := bind_eq_ok.1 h
      obtain rfl := Except.ok.inj h
      rcases hg with rfl | rfl | rfl | rfl | rfl | rfl
      all_goals first
        | exact absurd rfl hne
        | obtain ⟨y, hy, h'⟩ := bind_eq_ok.1 h'
          obtain rfl := Except.ok.inj h'
          exact ⟨_, bind_eq_ok.2 ⟨y, hy, rfl⟩, bind_eq_ok.2 ⟨x, hx, rfl⟩⟩

/-- A description is read from the members of an object, whatever their order. -/
theorem read_object_iff {ms : List (Except Json.Fault (List Char) × Json.Draft)} {d : Description} :
    read Json.maxDepth (.object ms .closed) = .ok d
      ↔ ∃ r, Json.readMembersInto fields .pass 127 ms Draft.empty = .ok r ∧ r.finish = .ok d := by
  have hb : Json.openBracket Json.maxDepth = .ok 127 := rfl
  unfold read Json.Shape.read
  rw [bind_eq_ok]
  simp [shape, hb, bind_eq_ok, Json.Closing.wantingMembers, pure, Except.pure]

theorem toValue_eq (d : Description) : d.toValue = Json.phrasesValue (Record.descriptionPhrases d) := rfl

/-- A description is read back from its line. -/
theorem ofText_line (d : Description) : ofText d.toValue.line = .ok d := by
  have hmood := OneOrMany.read_phrase (show 1 < 127 by decide) d.mood
  have haction := OneOrMany.read_phrase (show 1 < 127 by decide) d.action
  have htags := Json.readList_texts (show 1 < 127 by decide) d.tags
  rw [toValue_eq]
  refine Json.readText_line (Json.integral_phrases _) ?_
  rw [Json.draft_phrases]
  refine read_object_iff.2 ⟨Record.foundDescription d, ?_, rfl⟩
  simp [Record.descriptionPhrases, Json.readMembersInto, fields, Json.readString_text, hmood, haction, htags,
    Draft.empty, Record.foundDescription, bind, Except.bind, pure, Except.pure]

end Description

namespace Client

open Json (Tree Name)

/-! ## Answers -/

section
variable {s s' : String} {members members' extra : List (Name × Tree)} {d : Description}

theorem stripFence_object {t q : List Char} (h : Text.trim t = '{' :: q) : stripFence t = Text.trim t :=
  stripFence_of_not_fenced (by rw [h]; rfl)

/-- An object is read as what its members are read as. -/
theorem parse_iff (h : (Tree.object members).IsText s.toList) : parse s = .ok d
    ↔ ∃ r, Json.readMembersInto Description.fields .pass 127 (Tree.memberDrafts members) .empty = .ok r
      ∧ r.finish = .ok d := by
  obtain ⟨htext, q, hq⟩ := h.trim
  obtain ⟨gap, hread, hgap⟩ := htext.ofText
  rw [parse, stripFence_object hq, Description.ofText, Json.readText_iff, String.toList_ofList, hread]
  rw [← Description.read_object_iff]
  constructor
  · rintro ⟨x, rest, h, -, hx⟩
    rw [← (Prod.mk.inj h).1] at hx
    exact hx
  · exact fun hx => ⟨_, gap, rfl, hgap, hx⟩

/-- All names in an object that is read are texts. -/
theorem names_of_parse (h : (Tree.object members).IsText s.toList) (hd : parse s = .ok d) :
    ∀ m ∈ members, ∃ name, m.1.Is name := by
  obtain ⟨r, hr, -⟩ := (parse_iff h).1 hd
  intro m hm
  have hmem : (m.1.draft, m.2.draft) ∈ Tree.memberDrafts members := by
    rw [Tree.memberDrafts_eq_map]
    exact List.mem_map_of_mem hm
  obtain ⟨k, hk⟩ := Json.names_of_readMembersInto hr _ hmem
  refine ⟨String.ofList k, ?_⟩
  rw [Name.Is, String.toList_ofList]
  exact Name.draft_eq_ok.1 hk

/-- The answers that are read and start with a brace are the texts of objects. -/
theorem isText_of_parse {q : List Char} (hq : Text.trim s.toList = '{' :: q) (h : parse s = .ok d) :
    ∃ members, (Tree.object members).IsText (Text.trim s.toList) := by
  rw [parse, stripFence_object hq, Description.ofText, Json.readText_iff, String.toList_ofList, hq] at h
  obtain ⟨x, gap, hx, hgap, -⟩ := h
  rw [hq]
  exact Json.isText_of_ofText hx hgap

/-- The line of a description is an answer that holds it. -/
theorem parse_line (d : Description) : parse d.toValue.line = .ok d := by
  have hbraces : d.toValue.line.toList = '{' :: (Json.compactMembers d.members ++ ['}']) := by
    simp [Json.Value.line, Description.toValue, Json.Value.compact]
  have htrim : Text.trim d.toValue.line.toList = d.toValue.line.toList := by
    rw [hbraces]
    simpa using Json.trim_braces Json.blank_nil Json.blank_nil (Json.compactMembers d.members)
  rw [parse, stripFence_object (htrim.trans hbraces), htrim, String.ofList_toList]
  exact Description.ofText_line d

theorem draft_whole (t : Tree) : t.draft.Whole := by
  have h := t.ofText_laid (Json.laid_flatten t.tokens) (r := []) (by simp [Json.Undigit])
  exact Json.whole_ofText h

/-- A member of another name is passed over, whatever its value is. -/
theorem beside_of_name {m : Name × Tree} {name : String} (hm : m.1.Is name)
    (hn : name ∉ ["literal", "source", "mood", "action", "context", "tags"]) :
    Json.Beside Description.fields (m.1.draft, m.2.draft) :=
  ⟨name, Name.draft_eq_ok.2 hm, hn, (draft_whole m.2).pass⟩

/-- Members in another order, with members of other names among them, are read alike. -/
theorem parse_perm (h : (Tree.object members).IsText s.toList) (hd : parse s = .ok d)
    (hx : ∀ m ∈ extra, ∃ name, m.1.Is name ∧ name ∉ ["literal", "source", "mood", "action", "context", "tags"])
    (hp : members'.Perm (members ++ extra)) (h' : (Tree.object members').IsText s'.toList) : parse s' = .ok d := by
  obtain ⟨r, hr, hf⟩ := (parse_iff h).1 hd
  refine (parse_iff h').2 ⟨r, ?_, hf⟩
  have hbeside : ∀ m ∈ Tree.memberDrafts extra, Json.Beside Description.fields m := by
    intro m hm
    rw [Tree.memberDrafts_eq_map, List.mem_map] at hm
    obtain ⟨m, hm, rfl⟩ := hm
    obtain ⟨name, hname, hn⟩ := hx m hm
    exact beside_of_name hname hn
  have hperm : (Tree.memberDrafts members ++ Tree.memberDrafts extra).Perm (Tree.memberDrafts members') := by
    simp only [Tree.memberDrafts_eq_map, ← List.map_append]
    exact (hp.map _).symm
  exact Json.readMembersInto_perm Description.independent hperm (Json.readMembersInto_beside hbeside hr)

end

/-- What is read from an answer that is an object depends on its members alone. It is the same if they stand in another
order, if there are other blanks between the tokens, and if there are members of other names with any values. Whatever
is read from a brace on is the text of an object, and all names in it are texts, which half of a surrogate pair is not.
A description is read back from its line, and so is the description that an answer holds. -/
theorem parse_by_content :
    (∀ members members' extra (s s' : String) d, (Tree.object members).IsText s.toList → parse s = .ok d →
      (∀ m ∈ extra, ∃ name, m.1.Is name ∧ name ∉ ["literal", "source", "mood", "action", "context", "tags"]) →
      members'.Perm (members ++ extra) → (Tree.object members').IsText s'.toList → parse s' = .ok d)
    ∧ (∀ (s : String) q d, Text.trim s.toList = '{' :: q → parse s = .ok d →
      ∃ members, (Tree.object members).IsText (Text.trim s.toList))
    ∧ (∀ members (s : String) d, (Tree.object members).IsText s.toList → parse s = .ok d →
      ∀ m ∈ members, ∃ name, m.1.Is name)
    ∧ (∀ d, parse d.toValue.line = .ok d)
    ∧ ∀ s, (parse s >>= fun d => parse d.toValue.line) = parse s := by
  refine ⟨fun _ _ _ _ _ _ h hd hx hp h' => parse_perm h hd hx hp h', fun _ _ _ hq hd => isText_of_parse hq hd,
    fun _ _ _ h hd => names_of_parse h hd, parse_line, fun s => ?_⟩
  cases hs : parse s with
  | error f => rfl
  | ok d => simp only [bind, Except.bind, parse_line]

namespace Reordered

/-- Whether a string spells itself. -/
def isPlain (s : List Char) : Bool := s.all fun c => c != '"' && c != '\\' && 0x20 ≤ c.toNat

theorem isPlain_cons {c : Char} {s : List Char} (h : isPlain (c :: s) = true) :
    (c ≠ '"' ∧ c ≠ '\\' ∧ 0x20 ≤ c.toNat) ∧ isPlain s = true := by
  simpa [isPlain, and_assoc] using h

theorem isInside_of_plain {s : List Char} (h : isPlain s = true) : Json.IsInside s := by
  induction s with
  | nil => exact .done
  | cons c s ih =>
    obtain ⟨⟨hq, hb, hc⟩, hs⟩ := isPlain_cons h
    exact .plain hq hb hc (ih hs)

theorem spells_of_plain {s : List Char} (h : isPlain s = true) : Json.Spells s s := by
  induction s with
  | nil => exact .done
  | cons c s ih =>
    obtain ⟨⟨hq, hb, hc⟩, hs⟩ := isPlain_cons h
    exact .plain hq hb hc (ih hs)

def name (s : String) (h : isPlain s.toList = true) : Name := ⟨s.toList, isInside_of_plain h⟩

def phrase (s : String) (h : isPlain s.toList = true) : Tree :=
  .leaf ⟨'"' :: (s.toList ++ ['"']), .string (isInside_of_plain h)⟩

/-- Half of a surrogate pair, which is no text. -/
def half : Tree := .leaf ⟨'"' :: ("\\ud800".toList ++ ['"']), .string (.number (n := 0xD800) (by decide) .done)⟩

/-- The members that a description needs. -/
def members : List (Name × Tree) :=
  [(name "literal" (by decide), phrase "x" (by decide)), (name "tags" (by decide), .array [])]

/-- A member of another name, with a value that no reader would take. -/
def extra : List (Name × Tree) := [(name "note" (by decide), .array [.array [half]])]

def text : String := "\x7b\"literal\":\"x\",\"tags\":[]\x7d"

def reordered : String := "\x7b\n\"note\": [[\"\\ud800\"]] ,\t\"tags\" :[ ],\"literal\":\"x\" \x7d\n"

/-- Tokens with some blanks in front of each. -/
def layOut (gaps tokens : List (List Char)) : List Char := (List.zipWith (· ++ ·) gaps tokens).flatten

theorem laid_layOut (gaps : List (List Char)) {tokens : List (List Char)} (hl : gaps.length = tokens.length)
    (hg : ∀ gap ∈ gaps, Json.Blank gap) : Json.Laid tokens (layOut gaps tokens) := by
  induction gaps generalizing tokens with
  | nil =>
    obtain rfl := List.length_eq_zero_iff.1 hl.symm
    exact .nil
  | cons gap gaps ih =>
    obtain ⟨token, tokens, rfl⟩ := List.exists_cons_of_length_eq_add_one hl.symm
    obtain ⟨hgap, hgaps⟩ := List.forall_mem_cons.1 hg
    have hrest := ih (by simpa using hl) hgaps
    exact Json.laid_cons.2 ⟨gap, _, hgap, hrest, by simp [layOut]⟩

theorem isText_text : (Tree.object members).IsText text.toList :=
  ⟨_, [], laid_layOut (List.replicate 10 []) (by decide +kernel) (by decide +kernel), Json.blank_nil, by decide +kernel⟩

theorem isText_reordered : (Tree.object (extra ++ members.reverse)).IsText reordered.toList := by
  let gaps : List (List Char) := [[], ['\n'], [], [' '], [], [], [], [], [' '], ['\t'], [' '], [], [' '], [], [], [],
    [], [' ']]
  exact ⟨_, ['\n'], laid_layOut gaps (by decide +kernel) (by decide +kernel), by decide +kernel, by decide +kernel⟩

theorem extra_names : ∀ m ∈ extra, ∃ name, m.1.Is name
    ∧ name ∉ ["literal", "source", "mood", "action", "context", "tags"] := by
  intro m hm
  obtain rfl := List.mem_singleton.1 hm
  exact ⟨"note", spells_of_plain (by decide), by decide⟩

theorem parse_text : parse text = .ok ⟨"x", "unknown", .one "", .one "", "", []⟩ :=
  eq_ok_of_toOption (by decide +kernel)

end Reordered

open Reordered in
/-- An answer with its members in another order, other blanks and one more member is read as the same description. -/
theorem parse_reordered : (Tree.object members).IsText text.toList
    ∧ (Tree.object (extra ++ members.reverse)).IsText reordered.toList
    ∧ parse reordered = .ok ⟨"x", "unknown", .one "", .one "", "", []⟩
    ∧ ∃ found, (Tree.object found).IsText (Text.trim text.toList) := by
  obtain ⟨halike, htext, -⟩ := parse_by_content
  have hperm : (extra ++ members.reverse).Perm (members ++ extra) :=
    ((List.reverse_perm members).append_left extra).trans List.perm_append_comm
  have hbrace : Text.trim text.toList = '{' :: (Text.trim text.toList).tail := by decide +kernel
  have hread := halike _ _ extra _ _ _ isText_text parse_text extra_names hperm isText_reordered
  exact ⟨isText_text, isText_reordered, hread, htext _ _ _ hbrace parse_text⟩

end Client

end Captioning
