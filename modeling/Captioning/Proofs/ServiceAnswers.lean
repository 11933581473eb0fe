import Captioning.Model.Service
import Captioning.Proofs.JsonWhole
import Captioning.Proofs.Utf8
/-!
# Answers of the service

A body is an answer when it is one value of a certain shape (`Service.Payload`), which is just when it can be read
(`readText_candidates_iff`). Of a reply with a status that reports success the text of the first candidate is the
answer, which is the texts of its parts in order, however they are split (`Service.generate_answer`).
-/

namespace Captioning.Service

open Json

/-! ## Records of one field -/

/-- A member whose name is a text, but not this one. -/
def Foreign (name : String) (m : Except Fault (List Char) × Draft) : Prop :=
  ∃ k, m.1 = .ok k ∧ String.ofList k ≠ name

/-- The member of a name among members of which at most one has it, if one does. -/
inductive Lone (name : String) : List (Except Fault (List Char) × Draft) → Option Draft → Prop
  | nil : Lone name [] none
  | foreign {m ms o} (hm : Foreign name m) (h : Lone name ms o) : Lone name (m :: ms) o
  | here {k d ms} (hk : String.ofList k = name) (h : ∀ m ∈ ms, Foreign name m) : Lone name ((.ok k, d) :: ms) (some d)

/-- What a record of one field holds, if it holds something: an object has it as the member of that name, an array as
its only item. -/
inductive Single (name : String) : Draft → Option Draft → Prop
  | object {ms o} (h : Lone name ms o) : Single name (.object ms .closed) o
  | empty : Single name (.array [] .closed) none
  | item (d : Draft) : Single name (.array [d] .closed) (some d)

theorem Lone.whole {name : String} {ms : List (Except Fault (List Char) × Draft)} {d : Draft}
    (h : Lone name ms (some d)) (hms : WholeMembers ms) : d.Whole := by
  generalize ho : some d = o at h
  induction h with
  | nil => cases ho
  | foreign _ _ ih => exact ih hms.2 ho
  | here _ _ =>
    obtain rfl := Option.some.inj ho
    exact hms.1

theorem Single.whole {name : String} {d v : Draft} (h : Single name d (some v)) (hd : d.Whole) : v.Whole := by
  cases h with
  | object h => exact h.whole hd.1
  | item => exact hd.1.1

section
variable {α : Type} {read : Reader α} {name field : String} {depth : Nat} {x : Option α}

/-- The field of a record of one field. -/
def soleField (field : String) (read : Reader α) : Json.Field (Option α) :=
  ⟨field, Option.isSome, fun depth v _ => do return some (← read depth v), true⟩

/-- When the field has been read, nothing but members of other names may follow. -/
theorem readMembersInto_taken {ms : List (Except Fault (List Char) × Draft)} (hms : WholeMembers ms) (y : α) :
    readMembersInto [soleField field read] .pass depth ms (some y) = .ok x
      ↔ (∀ m ∈ ms, Foreign field m) ∧ some y = x := by
  induction ms with
  | nil => simp [readMembersInto]
  | cons m ms ih =>
    obtain ⟨name, d⟩ := m
    obtain ⟨hd, hms⟩ := hms
    cases name with
    | error f => simp [readMembersInto, Foreign, bind, Except.bind]
    | ok k =>
      by_cases hk : String.ofList k = field
      · simp [readMembersInto, Foreign, soleField, hk, bind, Except.bind]
      · have hpass : readMembersInto [soleField field read] .pass depth ((.ok k, d) :: ms) (some y)
            = readMembersInto [soleField field read] .pass depth ms (some y) := by
          simp [readMembersInto, soleField, Ne.symm hk, Draft.Whole.pass d hd, bind, Except.bind]
        rw [hpass, ih hms]
        simp [Foreign, hk]

theorem readMembersInto_sole {ms : List (Except Fault (List Char) × Draft)} (hms : WholeMembers ms) :
    readMembersInto [soleField field read] .pass depth ms none = .ok x
      ↔ ∃ o, Lone field ms o ∧ o.mapM (read depth) = .ok x := by
  induction ms with
  | nil =>
    refine ⟨fun h => ⟨none, .nil, h⟩, ?_⟩
    rintro ⟨o, ho, hx⟩
    cases ho
    exact hx
  | cons m ms ih =>
    obtain ⟨name, d⟩ := m
    obtain ⟨hd, hms⟩ := hms
    cases name with
    | error f =>
      refine ⟨fun h => by simp [readMembersInto, bind, Except.bind] at h, ?_⟩
      rintro ⟨o, ho, -⟩
      cases ho with
      | foreign hm _ =>
        obtain ⟨k, hk, -⟩ := hm
        cases hk
    | ok k =>
      by_cases hk : String.ofList k = field
      · have htake : readMembersInto [soleField field read] .pass depth ((.ok k, d) :: ms) none
            = (read depth d >>= fun y => readMembersInto [soleField field read] .pass depth ms (some y)) := by
          cases hy : read depth d <;> simp [readMembersInto, soleField, hk, hy, bind, Except.bind, pure, Except.pure]
        rw [htake, bind_eq_ok]
        constructor
        · rintro ⟨y, hy, h⟩
          obtain ⟨hforeign, rfl⟩ := (readMembersInto_taken hms y).1 h
          exact ⟨some d, .here hk hforeign, by simp [hy]⟩
        · rintro ⟨o, ho, hx⟩
          cases ho with
          | foreign hm _ =>
            obtain ⟨k', hk', hne⟩ := hm
            obtain rfl := Except.ok.inj hk'
            exact absurd hk hne
          | here _ hforeign =>
            obtain ⟨y, hy, hx⟩ := map_eq_ok.1 hx
            exact ⟨y, hy, (readMembersInto_taken hms y).2 ⟨hforeign, hx⟩⟩
      · have hpass : readMembersInto [soleField field read] .pass depth ((.ok k, d) :: ms) none
            = readMembersInto [soleField field read] .pass depth ms none := by
          simp [readMembersInto, soleField, Ne.symm hk, Draft.Whole.pass d hd, bind, Except.bind]
        rw [hpass, ih hms]
        constructor
        · rintro ⟨o, ho, hx⟩
          exact ⟨o, .foreign ⟨k, rfl, hk⟩ ho, hx⟩
        · rintro ⟨o, ho, hx⟩
          cases ho with
          | foreign _ ho => exact ⟨o, ho, hx⟩
          | here hk' _ => exact absurd hk' hk

/-- A record of one field is read just from what it holds. -/
theorem readSingle_iff {d : Draft} (hd : d.Whole) (h : 1 < depth) : readSingle name field read depth d = .ok x
    ↔ ∃ o, Single field d o ∧ o.mapM (read (depth - 1)) = .ok x := by
  have hshape : readSingle name field read
      = (⟨name, [soleField field read], .pass, true⟩ : Shape (Option α)).read none := rfl
  rw [hshape]
  cases d with
  | object ms closing =>
    obtain ⟨hms, rfl⟩ := hd
    have hread : (Shape.mk name [soleField field read] .pass true).read none depth (.object ms .closed) = .ok x
        ↔ readMembersInto [soleField field read] .pass (depth - 1) ms none = .ok x := by
      simp [Shape.read, openBracket_of_lt h, bind_eq_ok, Closing.wantingMembers, pure, Except.pure]
    rw [hread, readMembersInto_sole hms]
    constructor
    · rintro ⟨o, ho, hx⟩
      exact ⟨o, .object ho, hx⟩
    · rintro ⟨o, ho, hx⟩
      cases ho with
      | object ho => exact ⟨o, ho, hx⟩
  | array items closing =>
    obtain ⟨-, rfl⟩ := hd
    rcases items with _ | ⟨item, _ | ⟨second, more⟩⟩
    · have hread : (Shape.mk name [soleField field read] .pass true).read none depth (.array [] .closed)
          = .ok none := by
        simp [Shape.read, readItemsInto, soleField, openBracket_of_lt h, Closing.wantingItems, Closing.afterItems, bind,
          Except.bind, pure, Except.pure]
      rw [hread]
      constructor
      · intro hx
        exact ⟨none, .empty, hx⟩
      · rintro ⟨o, ho, hx⟩
        cases ho with
        | empty => exact hx
    · have hread : (Shape.mk name [soleField field read] .pass true).read none depth (.array [item] .closed)
          = some <$> read (depth - 1) item := by
        cases hy : read (depth - 1) item <;>
          simp [Shape.read, readItemsInto, soleField, openBracket_of_lt h, hy, Closing.afterItems, bind, Except.bind, pure,
            Except.pure]
      rw [hread]
      constructor
      · intro hx
        exact ⟨some item, .item item, hx⟩
      · rintro ⟨o, ho, hx⟩
        cases ho with
        | item => exact hx
    · -- an array of several items is refused once the first one has been read
      have hread : ∃ f, (Shape.mk name [soleField field read] .pass true).read none depth
          (.array (item :: second :: more) .closed) = .error f := by
        cases hy : read (depth - 1) item <;>
          simp [Shape.read, readItemsInto, soleField, openBracket_of_lt h, hy, Closing.afterItems, bind, Except.bind, pure,
            Except.pure]
      obtain ⟨f, hf⟩ := hread
      rw [hf]
      constructor
      · intro hx
        cases hx
      · rintro ⟨o, ho, -⟩
        cases ho
  | _ =>
    refine ⟨fun h => (by cases h), ?_⟩
    rintro ⟨o, ho, -⟩
    cases ho

/-- A record of one field that may be missing, or null. -/
theorem readMaybe_iff {d : Draft} (hd : d.Whole) (h : 1 < depth) :
    Option.join <$> readSingle name field (readOptional read) depth d = .ok x
      ↔ (Single field d none ∨ Single field d (some .null)) ∧ x = none
        ∨ ∃ v y, Single field d (some v) ∧ v ≠ .null ∧ read (depth - 1) v = .ok y ∧ x = some y := by
  simp only [map_eq_ok, readSingle_iff hd h]
  constructor
  · rintro ⟨a, ⟨o, ho, ha⟩, rfl⟩
    cases o with
    | none =>
      obtain rfl := Except.ok.inj ha
      exact .inl ⟨.inl ho, rfl⟩
    | some v =>
      obtain ⟨o', ho', rfl⟩ := map_eq_ok.1 ha
      obtain ⟨rfl, rfl⟩ | ⟨hnull, y, hy, rfl⟩ := readOptional_iff.1 ho'
      · exact .inl ⟨.inr ho, rfl⟩
      · exact .inr ⟨v, y, ho, hnull, hy, rfl⟩
  · rintro (⟨ho | ho, rfl⟩ | ⟨v, y, ho, hnull, hy, rfl⟩)
    · exact ⟨none, ⟨none, ho, rfl⟩, rfl⟩
    · exact ⟨some none, ⟨_, ho, rfl⟩, rfl⟩
    · have hread : readOptional read (depth - 1) v = .ok (some y) := readOptional_iff.2 (.inr ⟨hnull, y, hy, rfl⟩)
      exact ⟨_, ⟨_, ho, map_eq_ok.2 ⟨_, hread, rfl⟩⟩, rfl⟩

/-- A record of one field that holds several values, or none at all if it is missing. -/
theorem readSeveral_iff {d : Draft} {Says : Draft → α → Prop} {xs : List α} (hd : d.Whole) (h : 2 < depth)
    (hitem : ∀ {item y}, item.Whole → (read (depth - 2) item = .ok y ↔ Says item y)) :
    (·.getD []) <$> readSingle name field (readList read) depth d = .ok xs
      ↔ Single field d none ∧ xs = []
        ∨ ∃ items, Single field d (some (.array items .closed)) ∧ List.Forall₂ Says items xs := by
  have hlist : ∀ {v : Draft}, v.Whole → ∀ {ys}, readList read (depth - 1) v = .ok ys
      ↔ ∃ items, v = .array items .closed ∧ List.Forall₂ Says items ys := fun hv _ =>
    readList_iff hv (by omega) fun item y hi => hitem hi
  simp only [map_eq_ok, readSingle_iff hd (by omega : 1 < depth)]
  constructor
  · rintro ⟨a, ⟨o, ho, ha⟩, rfl⟩
    cases o with
    | none =>
      obtain rfl := Except.ok.inj ha
      exact .inl ⟨ho, rfl⟩
    | some v =>
      obtain ⟨ys, hys, rfl⟩ := map_eq_ok.1 ha
      obtain ⟨items, rfl, hsays⟩ := (hlist (ho.whole hd)).1 hys
      exact .inr ⟨items, ho, hsays⟩
  · rintro (⟨ho, rfl⟩ | ⟨items, ho, hsays⟩)
    · exact ⟨none, ⟨none, ho, rfl⟩, rfl⟩
    · exact ⟨_, ⟨_, ho, map_eq_ok.2 ⟨xs, (hlist (ho.whole hd)).2 ⟨_, rfl, hsays⟩, rfl⟩⟩, rfl⟩

end

/-! ## Payloads -/

/-- What a part says: its text, if it has one that is not null. -/
inductive PartSays : Draft → Option String → Prop
  | missing {d} (h : Single "text" d none) : PartSays d none
  | null {d} (h : Single "text" d (some .null)) : PartSays d none
  | text {d s} (h : Single "text" d (some (.string (.ok s)))) : PartSays d (some (String.ofList s))

/-- What the parts of a content say; it may have none. -/
inductive ContentSays : Draft → List (Option String) → Prop
  | missing {d} (h : Single "parts" d none) : ContentSays d []
  | parts {d items parts} (h : Single "parts" d (some (.array items .closed)))
      (hparts : List.Forall₂ PartSays items parts) : ContentSays d parts

/-- What a candidate says; its content may be missing, or null. -/
inductive CandidateSays : Draft → Candidate → Prop
  | missing {d} (h : Single "content" d none) : CandidateSays d none
  | null {d} (h : Single "content" d (some .null)) : CandidateSays d none
  | content {d v parts} (h : Single "content" d (some v)) (hv : ContentSays v parts) : CandidateSays d (some parts)

/-- What the candidates of an answer say; there may be none. -/
inductive AnswerSays : Draft → List Candidate → Prop
  | missing {d} (h : Single "candidates" d none) : AnswerSays d []
  | candidates {d items cs} (h : Single "candidates" d (some (.array items .closed)))
      (hcs : List.Forall₂ CandidateSays items cs) : AnswerSays d cs

/-- A body that can be read: one value, with blanks around it, which holds candidates. -/
def Payload (body : String) (cs : List Candidate) : Prop :=
  ∃ d rest, Draft.ofText body.toList = (d, some rest) ∧ skipSpace rest = [] ∧ AnswerSays d cs

section
variable {depth : Nat} {d : Draft}

theorem readPart_iff {p : Option String} (hd : d.Whole) (h : 1 < depth) : readPart depth d = .ok p ↔ PartSays d p := by
  have hread : readPart depth d = Option.join <$> readSingle "ResponsePart" "text" (readOptional readString) depth d := rfl
  rw [hread, readMaybe_iff hd h]
  constructor
  · rintro (⟨ho | ho, rfl⟩ | ⟨v, s, ho, -, hs, rfl⟩)
    · exact .missing ho
    · exact .null ho
    · obtain ⟨cs, rfl, rfl⟩ := readString_iff.1 hs
      exact .text ho
  · intro hp
    cases hp with
    | missing ho => exact .inl ⟨.inl ho, rfl⟩
    | null ho => exact .inl ⟨.inr ho, rfl⟩
    | text ho => exact .inr ⟨_, _, ho, Draft.noConfusion, rfl, rfl⟩

theorem readContent_iff {parts : List (Option String)} (hd : d.Whole) (h : 3 < depth) :
    readContent depth d = .ok parts ↔ ContentSays d parts := by
  have hread : readContent depth d
      = (·.getD []) <$> readSingle "CandidateContent" "parts" (readList readPart) depth d := rfl
  rw [hread, readSeveral_iff hd (by omega) fun hi => readPart_iff hi (by omega)]
  constructor
  · rintro (⟨ho, rfl⟩ | ⟨items, ho, hparts⟩)
    · exact .missing ho
    · exact .parts ho hparts
  · intro hc
    cases hc with
    | missing ho => exact .inl ⟨ho, rfl⟩
    | parts ho hparts => exact .inr ⟨_, ho, hparts⟩

theorem readCandidate_iff {c : Candidate} (hd : d.Whole) (h : 4 < depth) :
    readCandidate depth d = .ok c ↔ CandidateSays d c := by
  have hread : readCandidate depth d
      = Option.join <$> readSingle "Candidate" "content" (readOptional readContent) depth d := rfl
  rw [hread, readMaybe_iff hd (by omega)]
  constructor
  · rintro (⟨ho | ho, rfl⟩ | ⟨v, parts, ho, -, hparts, rfl⟩)
    · exact .missing ho
    · exact .null ho
    · exact .content ho ((readContent_iff (ho.whole hd) (by omega)).1 hparts)
  · intro hc
    cases hc with
    | missing ho => exact .inl ⟨.inl ho, rfl⟩
    | null ho => exact .inl ⟨.inr ho, rfl⟩
    | @content v parts ho hv =>
      refine .inr ⟨v, parts, ho, ?_, (readContent_iff (ho.whole hd) (by omega)).2 hv, rfl⟩
      -- a content that is null says nothing
      rintro rfl
      obtain h | ⟨h, -⟩ := hv <;> cases h

theorem readCandidates_iff {cs : List Candidate} (hd : d.Whole) (h : 6 < depth) :
    readCandidates depth d = .ok cs ↔ AnswerSays d cs := by
  have hread : readCandidates depth d
      = (·.getD []) <$> readSingle "GenerateResponse" "candidates" (readList readCandidate) depth d := rfl
  rw [hread, readSeveral_iff hd (by omega) fun hi => readCandidate_iff hi (by omega)]
  constructor
  · rintro (⟨ho, rfl⟩ | ⟨items, ho, hcs⟩)
    · exact .missing ho
    · exact .candidates ho hcs
  · intro hc
    cases hc with
    | missing ho => exact .inl ⟨ho, rfl⟩
    | candidates ho hcs => exact .inr ⟨_, ho, hcs⟩

end

/-- A body is read just when it is a payload. -/
theorem readText_candidates_iff {body : String} {cs : List Candidate} :
    readText readCandidates body = .ok cs ↔ Payload body cs := by
  rw [readText_iff, Payload]
  refine exists_congr fun d => exists_congr fun rest => and_congr_right fun hd => and_congr_right fun _ => ?_
  exact readCandidates_iff (whole_ofText hd) (by decide)

theorem Payload.unique {body : String} {cs cs' : List Candidate} (h : Payload body cs) (h' : Payload body cs') :
    cs = cs' :=
  Except.ok.inj ((readText_candidates_iff.2 h).symm.trans (readText_candidates_iff.2 h'))

/-! ### Payloads that are written -/

/-- The value of a part. -/
def partValue : Option String → Value
  | none => .object []
  | some s => textPart s

/-- The value of a candidate. -/
def candidateValue : Candidate → Value
  | none => .object []
  | some parts => .object [("content", .object [("parts", .array (parts.map partValue))])]

/-- The value of an answer. -/
def answerValue (cs : List Candidate) : Value :=
  .object [("candidates", .array (cs.map candidateValue))]

theorem single_draft (name : String) (v : Value) : Single name (Value.object [(name, v)]).draft (some v.draft) := by
  rw [Value.draft, memberDrafts, memberDrafts]
  exact .object (.here String.ofList_toList (List.forall_mem_nil _))

theorem partSays_draft (p : Option String) : PartSays (partValue p).draft p := by
  cases p with
  | none => exact .missing (.object .nil)
  | some s =>
    have h : Single "text" (textPart s).draft (some (.string (.ok s.toList))) := single_draft "text" (.string s)
    have := PartSays.text h
    rwa [String.ofList_toList] at this

theorem forall₂_itemDrafts {α : Type} {R : Draft → α → Prop} {write : α → Value} {xs : List α}
    (h : ∀ x, R (write x).draft x) : List.Forall₂ R (itemDrafts (xs.map write)) xs := by
  rw [itemDrafts_eq_map, List.map_map, List.forall₂_map_left_iff, List.forall₂_same]
  exact fun x _ => h x

theorem candidateSays_draft (c : Candidate) : CandidateSays (candidateValue c).draft c := by
  cases c with
  | none => exact .missing (.object .nil)
  | some parts => exact .content (single_draft _ _) (.parts (single_draft _ _) (forall₂_itemDrafts partSays_draft))

theorem integral_answerValue (cs : List Candidate) : (answerValue cs).Integral := by
  have hpart : ∀ p, (partValue p).Integral := by
    rintro (_ | s) <;> simp [partValue, textPart, Value.Integral, IntegralMembers]
  have hcandidate : ∀ c, (candidateValue c).Integral := by
    rintro (_ | parts)
    · simp [candidateValue, Value.Integral, IntegralMembers]
    · simp [candidateValue, Value.Integral, IntegralMembers, integralItems_iff, hpart]
  simp [answerValue, Value.Integral, IntegralMembers, integralItems_iff, hcandidate]

/-- Every list of candidates is what some body says, in any layout. -/
theorem payload_spell (l : Layout) (cs : List Candidate) : Payload (String.ofList ((answerValue cs).spell l 0)) cs := by
  have hd := Value.ofText_spell l (answerValue cs) 0 [] (integral_answerValue cs) (by simp [Undigit])
  rw [List.append_nil] at hd
  refine ⟨(answerValue cs).draft, [], ?_, rfl, ?_⟩
  · rw [String.toList_ofList]
    exact hd
  · exact .candidates (single_draft _ _) (forall₂_itemDrafts candidateSays_draft)

/-! ## The text of an answer -/

/-- Some parts whose texts make up a text, in order. Parts without a text may stand anywhere. -/
inductive Split : List (Option String) → List Char → Prop
  | nil : Split [] []
  | textless {parts t} (h : Split parts t) : Split (none :: parts) t
  | text (s : String) {parts t} (h : Split parts t) : Split (some s :: parts) (s.toList ++ t)

/-- The text of the first candidate, which is empty if there is none, or if it has no content. -/
inductive FirstSays : List Candidate → List Char → Prop
  | missing : FirstSays [] []
  | silent (more : List Candidate) : FirstSays (none :: more) []
  | parts {parts t} (h : Split parts t) (more : List Candidate) : FirstSays (some parts :: more) t

theorem split_iff {parts : List (Option String)} {t : List Char} : Split parts t ↔ (joinTexts parts).toList = t := by
  induction parts generalizing t with
  | nil =>
    refine ⟨fun h => ?_, ?_⟩
    · cases h
      rfl
    · rintro rfl
      exact .nil
  | cons p parts ih =>
    cases p with
    | none =>
      have hjoin : joinTexts (none :: parts) = joinTexts parts := rfl
      rw [hjoin, ← ih]
      refine ⟨fun h => ?_, .textless⟩
      cases h with
      | textless h => exact h
    | some s =>
      have hjoin : (joinTexts (some s :: parts)).toList = s.toList ++ (joinTexts parts).toList := by simp [joinTexts]
      rw [hjoin]
      constructor
      · intro h
        cases h with
        | text _ h => rw [ih.1 h]
      · rintro rfl
        exact .text s (ih.2 rfl)

theorem firstSays_iff {cs : List Candidate} {t : List Char} : FirstSays cs t ↔ (spoken cs).toList = t := by
  rcases cs with _ | ⟨_ | parts, more⟩
  · refine ⟨fun h => ?_, ?_⟩
    · cases h
      rfl
    · rintro rfl
      exact .missing
  · refine ⟨fun h => ?_, ?_⟩
    · cases h
      rfl
    · rintro rfl
      exact .silent more
  · refine ⟨fun h => ?_, fun h => .parts (split_iff.2 h) more⟩
    cases h with
    | parts h => exact split_iff.1 h

/-! ## Replies -/

section
variable {status : Nat} {body text : String}

theorem eq_excerpt_iff : text = excerpt body
    ↔ text.toList <+: body.toList ∧ text.toList.length = min 500 body.toList.length := by
  rw [excerpt, ← String.toList_inj, String.toList_ofList, List.prefix_iff_eq_take]
  constructor
  · intro h
    have hl : text.toList.length = min 500 body.toList.length := by rw [h, List.length_take]
    exact ⟨by rw [hl, ← List.take_eq_take_min, h], hl⟩
  · rintro ⟨h, hl⟩
    rw [h, hl, ← List.take_eq_take_min]

theorem answerOf_of_payload {cs : List Candidate} (hs : Status.isSuccess status = true) (h : Payload body cs) :
    answerOf status body = if Text.allBlank (spoken cs).toList then .error .noText else .ok (spoken cs) := by
  rw [answerOf, readText_candidates_iff.2 h]
  by_cases hb : Text.allBlank (spoken cs).toList = true
  · simp [hs, hb, Except.mapError, bind, Except.bind, pure, Except.pure]
    rfl
  · simp [hs, hb, Except.mapError, bind, Except.bind, pure, Except.pure]

theorem answerOf_of_unreadable (hs : Status.isSuccess status = true) (h : ¬ ∃ cs, Payload body cs) :
    ∃ f, answerOf status body = .error (.payload f) := by
  cases hr : readText readCandidates body with
  | ok cs => exact absurd ⟨cs, readText_candidates_iff.1 hr⟩ h
  | error f => exact ⟨f, by simp [answerOf, hs, hr, Except.mapError, bind, Except.bind]⟩

/-- What becomes of a reply. -/
theorem answerOf_cases (status : Nat) (body : String) :
    Status.isSuccess status = false ∧ answerOf status body = .error (.status status (excerpt body))
    ∨ Status.isSuccess status = true ∧ (¬ ∃ cs, Payload body cs) ∧ (∃ f, answerOf status body = .error (.payload f))
    ∨ Status.isSuccess status = true ∧ ∃ cs, Payload body cs
      ∧ ((∀ c ∈ (spoken cs).toList, Text.isBlank c = true) ∧ answerOf status body = .error .noText
        ∨ (∃ c ∈ (spoken cs).toList, Text.isBlank c = false) ∧ answerOf status body = .ok (spoken cs)) := by
  cases hs : Status.isSuccess status with
  | false => exact .inl ⟨rfl, answerOf_of_refusal hs body⟩
  | true =>
    by_cases h : ∃ cs, Payload body cs
    · obtain ⟨cs, hcs⟩ := h
      refine .inr (.inr ⟨rfl, cs, hcs, ?_⟩)
      have hanswer := answerOf_of_payload hs hcs
      by_cases hb : Text.allBlank (spoken cs).toList = true
      · rw [if_pos hb] at hanswer
        exact .inl ⟨List.all_eq_true.1 hb, hanswer⟩
      · rw [if_neg hb] at hanswer
        refine .inr ⟨?_, hanswer⟩
        simpa [Text.allBlank] using hb
    · exact .inr (.inl ⟨rfl, h, answerOf_of_unreadable hs h⟩)

theorem answerOf_eq_status_iff {code : Nat} : answerOf status body = .error (.status code text)
    ↔ ¬ Status.isSuccess status = true ∧ code = status ∧ text = excerpt body := by
  rcases answerOf_cases status body with ⟨hs, h⟩ | ⟨hs, -, f, h⟩ | ⟨hs, cs, -, ⟨-, h⟩ | ⟨-, h⟩⟩ <;>
    simp [hs, h, eq_comm]

theorem answerOf_eq_payload_iff : (∃ f, answerOf status body = .error (.payload f))
    ↔ Status.isSuccess status = true ∧ ¬ ∃ cs, Payload body cs := by
  rcases answerOf_cases status body with ⟨hs, h⟩ | ⟨hs, hno, f, h⟩ | ⟨hs, cs, hcs, ⟨-, h⟩ | ⟨-, h⟩⟩
  · simp [hs, h]
  · simp [hs, h, not_exists.1 hno]
  · simp [hs, h, Exists.intro cs hcs]
  · simp [hs, h, Exists.intro cs hcs]

theorem answerOf_eq_noText_iff : answerOf status body = .error .noText ↔ Status.isSuccess status = true
    ∧ ∃ cs t, Payload body cs ∧ FirstSays cs t ∧ ∀ c ∈ t, Text.isBlank c = true := by
  rcases answerOf_cases status body with ⟨hs, h⟩ | ⟨hs, hno, f, h⟩ | ⟨hs, cs, hcs, ⟨hb, h⟩ | ⟨⟨c, hc, hb⟩, h⟩⟩
  · simp [hs, h]
  · simp [h, not_exists.1 hno]
  · exact ⟨fun _ => ⟨hs, cs, _, hcs, firstSays_iff.2 rfl, hb⟩, fun _ => h⟩
  · rw [h]
    refine ⟨fun h => (by cases h), ?_⟩
    rintro ⟨-, cs', t, hcs', hfirst, hblank⟩
    obtain rfl := hcs.unique hcs'
    rw [← firstSays_iff.1 hfirst] at hblank
    rw [hblank c hc] at hb
    cases hb

theorem answerOf_eq_ok_iff : answerOf status body = .ok text ↔ Status.isSuccess status = true
    ∧ ∃ cs, Payload body cs ∧ FirstSays cs text.toList ∧ ∃ c ∈ text.toList, Text.isBlank c = false := by
  rcases answerOf_cases status body with ⟨hs, h⟩ | ⟨hs, hno, f, h⟩ | ⟨hs, cs, hcs, ⟨hb, h⟩ | ⟨hc, h⟩⟩
  · simp [hs, h]
  · simp [h, not_exists.1 hno]
  · rw [h]
    refine ⟨fun h => (by cases h), ?_⟩
    rintro ⟨-, cs', hcs', hfirst, c, hc, hblank⟩
    obtain rfl := hcs.unique hcs'
    rw [← firstSays_iff.1 hfirst] at hc
    rw [hb c hc] at hblank
    cases hblank
  · rw [h, Except.ok.injEq]
    constructor
    · rintro rfl
      exact ⟨hs, cs, hcs, firstSays_iff.2 rfl, hc⟩
    · rintro ⟨-, cs', hcs', hfirst, -⟩
      obtain rfl := hcs.unique hcs'
      exact String.toList_inj.1 (firstSays_iff.1 hfirst)

theorem answerOf_ne_transport (status : Nat) (body reason : String) :
    answerOf status body ≠ .error (.transport reason) := by
  rcases answerOf_cases status body with ⟨-, h⟩ | ⟨-, -, f, h⟩ | ⟨-, cs, -, ⟨-, h⟩ | ⟨-, h⟩⟩ <;> simp [h]

end

/-- What is answered, when the service has replied with a text. Whatever the text, a status that does not report success
is the fault, with the beginning of the text. Otherwise it is a fault when the text is no payload. Otherwise the answer is
the text of the first candidate, unless all of that is blank. So a text that is not blank is answered however it is split
over the parts of the first candidate, whatever parts without a text are among them and whatever candidates follow. -/
theorem generate_answer {s : Service} {instruction : String} {frames : FrameSet} {es : List Event} {r : Reply} {b : Bytes}
    {body : String} (hsend : s.network.send none (s.request instruction frames) = ⟨es, .ok (.ok r)⟩)
    (hb : r.body = .ok b) (hbody : Utf8.toString? b = some body) :
    ∃ answer, s.generate instruction frames = ⟨es, .ok answer⟩
    ∧ (∀ reason, answer ≠ .error (.transport reason))
    ∧ (∀ code text, answer = .error (.status code text) ↔ ¬ (200 ≤ r.status ∧ r.status < 300)
      ∧ code = r.status ∧ text.toList <+: body.toList ∧ text.toList.length = min 500 body.toList.length)
    ∧ ((∃ f, answer = .error (.payload f)) ↔ (200 ≤ r.status ∧ r.status < 300) ∧ ¬ ∃ cs, Payload body cs)
    ∧ (answer = .error .noText ↔ (200 ≤ r.status ∧ r.status < 300)
      ∧ ∃ cs t, Payload body cs ∧ FirstSays cs t ∧ ∀ c ∈ t, Text.isBlank c = true)
    ∧ (∀ text, answer = .ok text ↔ (200 ≤ r.status ∧ r.status < 300)
      ∧ ∃ cs, Payload body cs ∧ FirstSays cs text.toList ∧ ∃ c ∈ text.toList, Text.isBlank c = false)
    ∧ ∀ (text : String) (parts : List (Option String)) (more : List Candidate),
      200 ≤ r.status ∧ r.status < 300 → Payload body (some parts :: more) → Split parts text.toList →
        (∃ c ∈ text.toList, Text.isBlank c = false) → answer = .ok text := by
  have hgenerate : s.generate instruction frames = ⟨es, .ok (answerOf r.status body)⟩ := by
    simp [generate, hsend, judge, hb, Utf8.decodeLossy_of_toString? hbody, Timed.andThen, Timed.value]
  refine ⟨_, hgenerate, answerOf_ne_transport r.status body, fun code text => ?_, ?_, ?_, fun text => ?_,
    fun text parts more hstatus hpayload hsplit hc => ?_⟩
  · rw [← Status.isSuccess_iff, answerOf_eq_status_iff, eq_excerpt_iff]
  · rw [← Status.isSuccess_iff, answerOf_eq_payload_iff]
  · rw [← Status.isSuccess_iff, answerOf_eq_noText_iff]
  · rw [← Status.isSuccess_iff, answerOf_eq_ok_iff]
  · rw [answerOf_eq_ok_iff, Status.isSuccess_iff]
    exact ⟨hstatus, _, hpayload, .parts hsplit more, hc⟩

/-! ## A text in two parts -/

/-- A text in two parts, with parts without a text between them and another candidate behind. -/
def splitBody : String :=
  "\x7b\"usage\": [1e999, \x7b\x7d], \"candidates\": [\x7b\"content\": \x7b\"role\": \"model\", \"parts\": ["
    ++ "\x7b\"text\": \"A \"\x7d, \x7b\"thought\": true\x7d, \x7b\"text\": null\x7d, [\"cat.\"]]\x7d\x7d, \x7b\x7d]\x7d"

/-- What the service replies. -/
def splitReply : Reply :=
  ⟨"https://a.example/", 200, .ok (Utf8.ofString splitBody)⟩

/-- A service that always replies so. -/
def splitService : Service :=
  ⟨fun _ => .value (.ok splitReply), "https://a.example/v1/", "m", "k"⟩

theorem send_splitService :
    splitService.network.send none (splitService.request "Describe it." []) = ⟨[], .ok (.ok splitReply)⟩ := by
  have hp : (Network.prepare? (splitService.request "Describe it." [])).isSome = true := by decide +kernel
  obtain ⟨r, hr⟩ := Option.isSome_iff_exists.1 hp
  rw [Network.send, hr]
  rfl

theorem payload_splitBody : Payload splitBody [some [some "A ", none, none, some "cat."], none] :=
  readText_candidates_iff.1 (eq_ok_of_toOption (by decide +kernel))

theorem split_text_answered :
    splitService.network.send none (splitService.request "Describe it." []) = ⟨[], .ok (.ok splitReply)⟩
    ∧ splitReply.body = .ok (Utf8.ofString splitBody) ∧ Utf8.toString? (Utf8.ofString splitBody) = some splitBody
    ∧ splitService.generate "Describe it." [] = ⟨[], .ok (.ok "A cat.")⟩ := by
  have hbody := Utf8.toString?_ofString splitBody
  obtain ⟨answer, hanswer, -, -, -, -, -, hsplit⟩ := generate_answer send_splitService rfl hbody
  have hparts : Split [some "A ", none, none, some "cat."] "A cat.".toList := split_iff.2 (by decide +kernel)
  obtain rfl := hsplit "A cat." _ _ ⟨by decide, by decide⟩ payload_splitBody hparts ⟨'A', by decide, by decide⟩
  exact ⟨send_splitService, rfl, hbody, hanswer⟩

end Captioning.Service
