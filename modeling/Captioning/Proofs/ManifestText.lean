import Captioning.Catalog.Manifest
import Captioning.Proofs.JsonFields
/-!
# Reading back a manifest

What is read as a manifest whose numbers are integers keeps only members that can be kept again
(`Manifest.sound_ofText`). From its own text such a manifest is read back whole, with all that is kept beside the
fields (`Manifest.ofText_text`).
-/

namespace Captioning

open Json (Draft.Integral IntegralMemberDrafts KeptBeside memberDrafts memberDrafts_append
  integralMembers_iff integralItems_iff integralItemDrafts_iff itemDrafts_eq_map readMembersInto readMembersInto_field
  readMembersInto_keeps readMembersInto_keptBeside)

namespace ManifestEntry

/-- The names of the fields of an entry. -/
def names : List String := fields.map (·.name)

/-- What an entry keeps that is read with `depth` brackets. -/
def Sound (depth : Nat) (e : ManifestEntry) : Prop :=
  KeptBeside names (depth - 1) e.extra

/-! ## Entries that were read -/

theorem extra_take {f : Json.Field Draft} (hf : f ∈ fields) {depth : Nat} {d : Json.Draft} {r r' : Draft}
    (h : f.take depth d r = .ok r') : r'.extra = r.extra := by
  simp only [fields, List.mem_cons, List.not_mem_nil, or_false] at hf
  rcases hf with rfl | rfl | rfl | rfl | rfl | rfl | rfl | rfl
  all_goals
    obtain ⟨x, -, h⟩ := bind_eq_ok.1 h
    obtain rfl := Except.ok.inj h
    rfl

theorem sound_read {depth : Nat} {d : Json.Draft} {e : ManifestEntry} (hd : d.Integral)
    (h : read depth d = .ok e) : e.Sound depth := by
  obtain ⟨r, hr, h⟩ := bind_eq_ok.1 h
  obtain ⟨id, -, h⟩ := bind_eq_ok.1 h
  obtain rfl := Except.ok.inj h
  obtain ⟨members, closing, rfl, -, hm⟩ := Json.Shape.read_eq_ok rfl hr
  refine readMembersInto_keeps (fun r => KeptBeside names (depth - 1) r.extra) ?_ ?_ hd hm
    (Json.keptBeside_nil _ _)
  · intro f hf d r r' _ ht hk
    show KeptBeside names (depth - 1) r'.extra
    rw [extra_take hf ht]
    exact hk
  · intro k v r hk hfits hint hr
    exact hr.putMember hk hfits hint

/-! ## Entries that are read again -/

theorem take_text (depth : Nat) (s : String) : readText? depth (.string (.ok s.toList)) = .ok (some s) := by
  simp [readText?, Json.readOptional, Json.readString_text, Except.map]

/-- A text that may be missing is read if it is there. `into` is the entry that has found it, or not. -/
theorem readMembersInto_textMember (depth : Nat) (name : String) (into : Option String → Draft) {f : Json.Field Draft}
    (hf : fields.find? (fun g => g.name == name) = some f) (hp : f.present (into none) = false)
    (ht : ∀ s, f.take depth (.string (.ok s.toList)) (into none) = .ok (into (some s))) (x : Option String)
    (more : List (Except Json.Fault (List Char) × Json.Draft)) :
    readMembersInto fields shape.others depth (memberDrafts (textMember name x) ++ more) (into none)
      = readMembersInto fields shape.others depth more (into x) := by
  cases x with
  | none => rfl
  | some s => exact readMembersInto_field hf hp (ht s) more

/-- The members of an entry that are its fields. -/
def fieldMembers (e : ManifestEntry) : List (String × Json.Value) :=
  [("id", .string e.id), ("original_url", .string e.originUrl)]
    ++ textMember "page_url" e.pageUrl ++ textMember "title" e.title
    ++ textMember "local_file" e.localFile ++ textMember "format" e.format
    ++ [("downloaded", .bool e.downloaded), ("described", .bool e.described)]

/-- An entry whose fields have been read. -/
def found (e : ManifestEntry) (extra : List (String × Json.Value)) : Draft :=
  ⟨some e.id, some e.originUrl, e.pageUrl.map some, e.title.map some, e.localFile.map some, e.format.map some,
    some e.downloaded, some e.described, extra⟩

theorem finish_found (e : ManifestEntry) : (e.found e.extra).finish = .ok e := by
  obtain ⟨id, originUrl, pageUrl, title, localFile, format, downloaded, described, extra⟩ := e
  cases pageUrl <;> cases title <;> cases localFile <;> cases format <;> rfl

/-- The fields of an entry are read one after the other. -/
theorem readMembersInto_fields (e : ManifestEntry) (depth : Nat)
    (more : List (Except Json.Fault (List Char) × Json.Draft)) :
    readMembersInto fields shape.others depth (memberDrafts e.fieldMembers ++ more) Draft.empty
      = readMembersInto fields shape.others depth more (e.found []) := by
  have hneeded : ∀ more, readMembersInto fields shape.others depth
      (memberDrafts [("id", .string e.id), ("original_url", .string e.originUrl)] ++ more) Draft.empty
      = readMembersInto fields shape.others depth more
        ⟨some e.id, some e.originUrl, none, none, none, none, none, none, []⟩ := by
    intro more
    simp [memberDrafts, Json.Value.draft, readMembersInto, fields, Json.readString_text, Draft.empty, bind,
      Except.bind, pure, Except.pure]
  have hpage := readMembersInto_textMember depth "page_url"
    (fun x => ⟨some e.id, some e.originUrl, x.map some, none, none, none, none, none, []⟩)
    rfl rfl (fun s => bind_eq_ok.2 ⟨_, take_text depth s, rfl⟩) e.pageUrl
  have htitle := readMembersInto_textMember depth "title"
    (fun x => ⟨some e.id, some e.originUrl, e.pageUrl.map some, x.map some, none, none, none, none, []⟩)
    rfl rfl (fun s => bind_eq_ok.2 ⟨_, take_text depth s, rfl⟩) e.title
  have hfile := readMembersInto_textMember depth "local_file"
    (fun x => ⟨some e.id, some e.originUrl, e.pageUrl.map some, e.title.map some, x.map some, none, none, none, []⟩)
    rfl rfl (fun s => bind_eq_ok.2 ⟨_, take_text depth s, rfl⟩) e.localFile
  have hformat := readMembersInto_textMember depth "format"
    (fun x => ⟨some e.id, some e.originUrl, e.pageUrl.map some, e.title.map some, e.localFile.map some, x.map some,
      none, none, []⟩)
    rfl rfl (fun s => bind_eq_ok.2 ⟨_, take_text depth s, rfl⟩) e.format
  simp only [fieldMembers, memberDrafts_append, List.append_assoc]
  refine (hneeded _).trans ((hpage _).trans ((htitle _).trans ((hfile _).trans ((hformat _).trans ?_))))
  simp [memberDrafts, Json.Value.draft, readMembersInto, fields, Json.readBool, found, bind, Except.bind, pure,
    Except.pure]

/-- An entry is read back from its value. -/
theorem read_draft {depth : Nat} {e : ManifestEntry} (h : e.Sound depth) (hd : 1 < depth) :
    read depth e.toValue.draft = .ok e := by
  have hextra : readMembersInto fields shape.others (depth - 1) (memberDrafts e.extra) (e.found [])
      = .ok (e.found e.extra) :=
    readMembersInto_keptBeside (fun _ _ _ => rfl) e.extra h
  have hmembers : readMembersInto fields shape.others (depth - 1)
      (memberDrafts (e.fieldMembers ++ e.extra)) Draft.empty
      = .ok (e.found e.extra) := by
    rw [memberDrafts_append, readMembersInto_fields, hextra]
  have hread : shape.read Draft.empty depth e.toValue.draft = .ok (e.found e.extra) :=
    Json.Shape.read_object hd hmembers
  exact bind_eq_ok.2 ⟨_, hread, finish_found e⟩

theorem integral_toValue {depth : Nat} {e : ManifestEntry} (h : e.Sound depth) : e.toValue.Integral := by
  refine integralMembers_iff.2 fun m hm => ?_
  have htext : ∀ name x, ∀ m ∈ textMember name x, m.2.Integral := by
    intro name x m hm
    cases x with
    | none => cases hm
    | some s =>
      rw [List.mem_singleton.1 hm]
      trivial
  rcases List.mem_append.1 hm with hm | hm
  · simp only [List.mem_append, List.mem_cons, List.not_mem_nil, or_false] at hm
    rcases hm with (((((rfl | rfl) | hm) | hm) | hm) | hm) | rfl | rfl
    any_goals trivial
    all_goals exact htext _ _ m hm
  · exact integralMembers_iff.1 h.integral m hm

end ManifestEntry

namespace Manifest

/-- The names of the fields of a manifest. -/
def names : List String := fields.map (·.name)

/-- What a manifest keeps that is read from a text. -/
structure Sound (m : Manifest) : Prop where
  extra : KeptBeside names 127 m.extra
  entries : ∀ e ∈ m.items, e.Sound 126

/-- Every field keeps what a manifest keeps, and so does every member that is no field. -/
theorem keeps_take {f : Json.Field Draft} (hf : f ∈ fields) {d : Json.Draft} {r r' : Draft} (hd : d.Integral)
    (h : f.take 127 d r = .ok r') : r'.extra = r.extra
      ∧ (r'.items = r.items ∨ ∃ es, r'.items = some es ∧ ∀ e ∈ es, e.Sound 126) := by
  simp only [fields, List.mem_cons, List.not_mem_nil, or_false] at hf
  rcases hf with rfl | rfl
  · obtain ⟨x, -, h⟩ := bind_eq_ok.1 h
    obtain rfl := Except.ok.inj h
    exact ⟨rfl, .inl rfl⟩
  · obtain ⟨es, hes, h⟩ := bind_eq_ok.1 h
    obtain rfl := Except.ok.inj h
    obtain ⟨items, closing, rfl, -, hread⟩ := Json.readList_eq_ok hes
    refine ⟨rfl, .inr ⟨es, rfl, fun e he => ?_⟩⟩
    obtain ⟨item, hitem, he⟩ := hread e he
    exact ManifestEntry.sound_read (integralItemDrafts_iff.1 hd item hitem) he

/-- A manifest whose numbers are integers keeps what can be kept again. -/
theorem sound_ofText {s : String} {m : Manifest} (hs : Json.OnlyIntegers s)
    (h : ofText s = .ok m) : m.Sound := by
  obtain ⟨r, hr, h⟩ := bind_eq_ok.1 (Json.readText_eq_ok h)
  obtain ⟨source, -, h⟩ := bind_eq_ok.1 h
  obtain rfl := Except.ok.inj h
  obtain ⟨members, closing, hd, -, hm⟩ := Json.Shape.read_eq_ok rfl hr
  have hints := hs.draft
  rw [hd] at hints
  let Keeps (r : Draft) : Prop := KeptBeside names 127 r.extra ∧ ∀ e ∈ r.items.getD [], e.Sound 126
  have hkeeps : Keeps r := by
    refine readMembersInto_keeps Keeps ?_ ?_ hints hm
      ⟨Json.keptBeside_nil _ _, fun e he => absurd he List.not_mem_nil⟩
    · intro f hf d r r' hd ht hk
      obtain ⟨hextra, hitems⟩ := keeps_take hf hd ht
      refine ⟨hextra ▸ hk.1, ?_⟩
      rcases hitems with hitems | ⟨es, hitems, hes⟩
      · rw [hitems]
        exact hk.2
      · rw [hitems]
        exact hes
    · intro k v r hk hfits hint hr
      exact ⟨hr.1.putMember hk hfits hint, hr.2⟩
  exact ⟨hkeeps.1, hkeeps.2⟩

/-- A manifest is read back from its own text. -/
theorem ofText_text {m : Manifest} (h : m.Sound) : ofText m.text = .ok m := by
  have hintegral : m.toValue.Integral := by
    refine integralMembers_iff.2 fun v hv => ?_
    rcases List.mem_append.1 hv with hv | hv
    · simp only [List.mem_cons, List.not_mem_nil, or_false] at hv
      rcases hv with rfl | rfl
      · trivial
      · refine integralItems_iff.2 fun v hv => ?_
        obtain ⟨e, he, rfl⟩ := List.mem_map.1 hv
        exact ManifestEntry.integral_toValue (h.entries e he)
    · exact integralMembers_iff.1 h.extra.integral v hv
  let found (extra : List (String × Json.Value)) : Draft := ⟨some m.source, some m.items, extra⟩
  have hitems : Json.readList ManifestEntry.read 127
      (.array (m.items.map fun e => e.toValue.draft) .closed) = .ok m.items :=
    Json.readList_drafts (by decide) fun e he => ManifestEntry.read_draft (h.entries e he) (by decide)
  have hfields : readMembersInto fields shape.others 127 (memberDrafts [("source", .string m.source),
      ("items", .array (m.items.map ManifestEntry.toValue))] ++ memberDrafts m.extra) Draft.empty
      = readMembersInto fields shape.others 127 (memberDrafts m.extra) (found []) := by
    simp [memberDrafts, Json.Value.draft, itemDrafts_eq_map, readMembersInto, fields, Json.readString_text, Draft.empty,
      Function.comp_def, hitems, found, bind, Except.bind, pure, Except.pure]
  have hextra : readMembersInto fields shape.others 127 (memberDrafts m.extra) (found []) = .ok (found m.extra) :=
    readMembersInto_keptBeside (fun _ _ _ => rfl) m.extra h.extra
  have hread : shape.read Draft.empty 128 m.toValue.draft = .ok (found m.extra) := by
    refine Json.Shape.read_object (by decide) ?_
    rw [memberDrafts_append]
    exact hfields.trans hextra
  exact Json.readText_pretty hintegral (bind_eq_ok.2 ⟨_, hread, rfl⟩)

end Manifest

end Captioning
