import Captioning.Proofs.JsonWriting
/-!
# Reading records field by field

The members of an object are read into a record one after the other: a field of the record is taken when it has not
been read before (`readMembersInto_field`), and what is no field is kept as a value if the record keeps such members
(`readMembersInto_kept`). Members that were kept so (`KeptBeside`, `readMembersInto_keeps`) are kept alike when they
are written and read again (`readMembersInto_keptBeside`).
-/

namespace Captioning.Json

section
variable {σ : Type} {fields : List (Field σ)} {others : Others σ} {depth : Nat}
variable {k : String} {d : Draft} {r r' : σ}

/-- A field that is read for the first time. -/
theorem readMembersInto_field {f : Field σ} (hf : fields.find? (fun g => g.name == k) = some f)
    (hp : f.present r = false) (ht : f.take depth d r = .ok r') (more : List (Except Fault (List Char) × Draft)) :
    readMembersInto fields others depth ((.ok k.toList, d) :: more) r
      = readMembersInto fields others depth more r' := by
  simp [readMembersInto, String.ofList_toList, hf, hp, ht, bind, Except.bind]

/-- A member that is no field, where such members are kept. -/
theorem readMembersInto_kept {put : String → Value → σ → σ} {v : Value}
    (hf : fields.find? (fun g => g.name == k) = none) (hv : readValue depth d = .ok v)
    (more : List (Except Fault (List Char) × Draft)) :
    readMembersInto fields (.keep put) depth ((.ok k.toList, d) :: more) r
      = readMembersInto fields (.keep put) depth more (put k v r) := by
  simp [readMembersInto, String.ofList_toList, hf, hv, bind, Except.bind]

theorem find?_field_eq_none : fields.find? (fun g => g.name == k) = none ↔ k ∉ fields.map (·.name) := by
  simp

/-! ## Members beside the fields -/

/-- Members as they are kept beside fields of some names, where `depth` brackets may be opened. -/
structure KeptBeside (names : List String) (depth : Nat) (ms : List (String × Value)) : Prop where
  ordered : Ordered ms
  fits : FitMembers depth ms
  integral : IntegralMembers ms
  foreign : ∀ m ∈ ms, m.1 ∉ names

theorem keptBeside_nil (names : List String) (depth : Nat) : KeptBeside names depth [] :=
  ⟨List.Pairwise.nil, trivial, trivial, fun _ hm => absurd hm List.not_mem_nil⟩

theorem KeptBeside.putMember {names : List String} {ms : List (String × Value)} (h : KeptBeside names depth ms)
    (hk : k ∉ names) {v : Value} (hf : v.Fits depth) (hi : v.Integral) :
    KeptBeside names depth (putMember k v ms) := by
  refine ⟨h.ordered.putMember k v, h.fits.putMember k hf, h.integral.putMember k hi, fun m hm => ?_⟩
  rcases mem_putMember hm with rfl | hm
  · exact hk
  · exact h.foreign m hm

/-- What every field keeps, and every member that is no field, is kept by reading members all of whose numbers are
integers. -/
theorem readMembersInto_keeps {put : String → Value → σ → σ} (Keeps : σ → Prop)
    (htake : ∀ f ∈ fields, ∀ d r r', d.Integral → f.take depth d r = .ok r' → Keeps r → Keeps r')
    (hput : ∀ k v r, k ∉ fields.map (·.name) → v.Fits depth → v.Integral → Keeps r → Keeps (put k v r))
    {ds : List (Except Fault (List Char) × Draft)} (hd : IntegralMemberDrafts ds)
    (h : readMembersInto fields (.keep put) depth ds r = .ok r') (hr : Keeps r) : Keeps r' := by
  induction ds generalizing r with
  | nil =>
    obtain rfl := Except.ok.inj h
    exact hr
  | cons m ds ih =>
    obtain ⟨name, d⟩ := m
    obtain ⟨hi, hds⟩ := hd
    rw [readMembersInto] at h
    obtain ⟨s, -, h⟩ := bind_eq_ok.1 h
    dsimp only at h
    split at h
    · next f hf =>
      split at h
      · cases h
      · obtain ⟨next, ht, h⟩ := bind_eq_ok.1 h
        exact ih hds h (htake f (List.mem_of_find?_eq_some hf) d r next hi ht hr)
    · next hf =>
      obtain ⟨v, hv, h⟩ := bind_eq_ok.1 h
      obtain ⟨hfits, hint⟩ := read_value d depth v hv
      exact ih hds h (hput _ v r (find?_field_eq_none.1 hf) hfits (hint hi) hr)

/-- Kept members that are written are kept again, behind the ones found before. `into` is a record that has found some
members beside its fields. -/
theorem readMembersInto_keptBeside {put : String → Value → σ → σ} {into : List (String × Value) → σ}
    (hput : ∀ k v ms, put k v (into ms) = into (putMember k v ms)) (ms : List (String × Value))
    {found : List (String × Value)} (h : KeptBeside (fields.map (·.name)) depth (found ++ ms)) :
    readMembersInto fields (.keep put) depth (memberDrafts ms) (into found) = .ok (into (found ++ ms)) := by
  induction ms generalizing found with
  | nil => rw [List.append_nil]; rfl
  | cons m ms ih =>
    obtain ⟨k, v⟩ := m
    have hmem : (k, v) ∈ found ++ (k, v) :: ms := List.mem_append_right _ List.mem_cons_self
    have hv : readValue depth v.draft = .ok v :=
      readValue_draft v depth (fitMembers_iff.1 h.fits _ hmem) (integralMembers_iff.1 h.integral _ hmem)
    have hlast : putMember k v found = found ++ [(k, v)] :=
      putMember_last v fun m hm => (List.pairwise_append.1 h.ordered).2.2 m hm (k, v) List.mem_cons_self
    have happend : found ++ (k, v) :: ms = (found ++ [(k, v)]) ++ ms := by simp
    rw [happend] at h
    rw [memberDrafts, readMembersInto_kept (find?_field_eq_none.2 (h.foreign (k, v) (by simp))) hv, hput, hlast, ih h,
      happend]

end

/-! ## Objects and lists -/

section
variable {σ : Type} {shape : Shape σ} {start r : σ} {depth : Nat}

/-- A record that may not be an array is read from the members of an object. -/
theorem Shape.read_eq_ok {d : Draft} (ha : shape.asArray = false) (h : shape.read start depth d = .ok r) :
    ∃ members closing, d = .object members closing ∧ 1 < depth
      ∧ readMembersInto shape.fields shape.others (depth - 1) members start = .ok r := by
  cases d with
  | object members closing =>
    rw [Shape.read] at h
    obtain ⟨below, hb, h⟩ := bind_eq_ok.1 h
    obtain ⟨r', hr, h⟩ := bind_eq_ok.1 h
    obtain ⟨-, -, h⟩ := bind_eq_ok.1 h
    obtain rfl := Except.ok.inj h
    obtain ⟨hd, rfl⟩ := openBracket_eq_ok hb
    exact ⟨members, closing, rfl, hd, hr⟩
  | array items closing =>
    rw [Shape.read, ha, if_neg Bool.false_ne_true] at h
    cases h
  | _ => cases h

theorem Shape.read_object {members : List (Except Fault (List Char) × Draft)} (hd : 1 < depth)
    (h : readMembersInto shape.fields shape.others (depth - 1) members start = .ok r) :
    shape.read start depth (.object members .closed) = .ok r := by
  simp [Shape.read, openBracket_of_lt hd, h, Closing.wantingMembers, bind, Except.bind, pure, Except.pure]

variable {α : Type} {read : Reader α} {xs : List α}

theorem mapM_eq_ok {β : Type} {f : β → Except Fault α} {ys : List β} (h : ys.mapM f = .ok xs) :
    ∀ x ∈ xs, ∃ y ∈ ys, f y = .ok x := by
  induction ys generalizing xs with
  | nil =>
    obtain rfl := Except.ok.inj h
    exact fun x hx => absurd hx List.not_mem_nil
  | cons y ys ih =>
    rw [List.mapM_cons] at h
    obtain ⟨x', hy, h⟩ := bind_eq_ok.1 h
    obtain ⟨xs', hys, h⟩ := bind_eq_ok.1 h
    obtain rfl := Except.ok.inj h
    intro x hx
    rcases List.mem_cons.1 hx with rfl | hx
    · exact ⟨y, List.mem_cons_self, hy⟩
    · obtain ⟨z, hz, hzx⟩ := ih hys x hx
      exact ⟨z, List.mem_cons_of_mem _ hz, hzx⟩

/-- What is read as a list is read from the items of an array. -/
theorem readList_eq_ok {d : Draft} (h : readList read depth d = .ok xs) : ∃ items closing, d = .array items closing
    ∧ 1 < depth ∧ ∀ x ∈ xs, ∃ item ∈ items, read (depth - 1) item = .ok x := by
  cases d with
  | array items closing =>
    rw [readList] at h
    obtain ⟨below, hb, h⟩ := bind_eq_ok.1 h
    obtain ⟨ys, hys, h⟩ := bind_eq_ok.1 h
    obtain ⟨-, -, h⟩ := bind_eq_ok.1 h
    obtain rfl := Except.ok.inj h
    obtain ⟨hd, rfl⟩ := openBracket_eq_ok hb
    exact ⟨items, closing, rfl, hd, mapM_eq_ok hys⟩
  | _ => cases h

theorem readList_drafts {write : α → Draft} (hd : 1 < depth) (h : ∀ x ∈ xs, read (depth - 1) (write x) = .ok x) :
    readList read depth (.array (xs.map write) .closed) = .ok xs := by
  have hs : (xs.map write).mapM (read (depth - 1)) = .ok xs := by
    induction xs with
    | nil => rfl
    | cons x xs ih =>
      have hx := h x List.mem_cons_self
      have hxs := ih fun y hy => h y (List.mem_cons_of_mem _ hy)
      simp [List.mapM_cons, hx, hxs, bind, Except.bind, pure, Except.pure]
  simp only [readList, openBracket_of_lt hd, hs, Closing.wantingItems, bind, Except.bind, pure, Except.pure]

/-! ## Whole texts -/

theorem readText_eq_ok {s : String} {x : α} (h : readText read s = .ok x) :
    read maxDepth (Draft.ofText s.toList).1 = .ok x := by
  obtain ⟨y, hy, h⟩ := bind_eq_ok.1 h
  split at h
  · cases h
  · split at h
    · rw [hy, Except.ok.inj h]
    · cases h

/-- A value is read from its text, however that is laid out, if it is read from its draft. -/
theorem readText_spell (l : Layout) {v : Value} (hv : v.Integral) {x : α} (h : read maxDepth v.draft = .ok x) :
    readText read (String.ofList (v.spell l 0)) = .ok x := by
  have hd := Value.ofText_spell l v 0 [] hv (by simp [Undigit])
  rw [List.append_nil] at hd
  rw [readText, String.toList_ofList, hd]
  simp [readWhole, h, skipSpace, bind, Except.bind, pure, Except.pure]

theorem readText_pretty {v : Value} (hv : v.Integral) {x : α} (h : read maxDepth v.draft = .ok x) :
    readText read v.pretty = .ok x := by
  rw [Value.pretty, ← spell_pretty]
  exact readText_spell .pretty hv h

theorem readText_line {v : Value} (hv : v.Integral) {x : α} (h : read maxDepth v.draft = .ok x) :
    readText read v.line = .ok x := by
  rw [Value.line, ← spell_compact]
  exact readText_spell .compact hv h

end

/-! ## Strings and phrases -/

theorem readString_text (depth : Nat) (s : String) : readString depth (.string (.ok s.toList)) = .ok s := by
  simp [readString, Except.map]

theorem readList_texts {depth : Nat} (h : 1 < depth) (ss : List String) :
    readList readString depth (.array (ss.map fun s => .string (.ok s.toList)) .closed) = .ok ss :=
  readList_drafts h fun s _ => readString_text (depth - 1) s

@[simp] theorem phraseDraft_one (s : String) : phraseDraft (.one s) = .string (.ok s.toList) := rfl

@[simp] theorem phraseDraft_many (ss : List String) :
    phraseDraft (.many ss) = .array (ss.map fun s => .string (.ok s.toList)) .closed := rfl

end Captioning.Json
