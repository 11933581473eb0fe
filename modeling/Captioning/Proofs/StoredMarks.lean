import Captioning.Proofs.AtomicSaves
import Captioning.Proofs.ManifestText
import Captioning.Proofs.MarkedEntries
/-!
# Marks that were stored

Marks change nothing of a manifest but which entries are described (`Manifest.flagged_marks`). When they have been
stored, the manifest is loaded with exactly these changes, and to store it once more writes the same bytes
(`SourceDir.stored_marks`).
-/

namespace Captioning

namespace Manifest

/-! ## What marks leave alone -/

/-- An entry apart from whether it is described. -/
def unflagged (e : ManifestEntry) : ManifestEntry :=
  { e with described := false }

/-- A manifest after some identities have been marked: the same but for entries that have become described, each of them
the first one of its identity. -/
structure Flagged (ids : List String) (m m' : Manifest) : Prop where
  source : m'.source = m.source
  extra : m'.extra = m.extra
  length : m'.items.length = m.items.length
  entry : ∀ (n : Nat) (e e' : ManifestEntry), m.items[n]? = some e → m'.items[n]? = some e' →
    e' = { e with described := e'.described }
      ∧ (e'.described = true
        ↔ e.described = true ∨ e.id ∈ ids ∧ ∀ (k : Nat) (f : ManifestEntry), k < n → m.items[k]? = some f → f.id ≠ e.id)

/-- Marks leave everything of a source but which entries are described. -/
theorem unflagged_marks (s : SourceDir) (ids : List String) : ∃ m, (Catalog.source s).marks ids = .source ⟨s.dir, m⟩
    ∧ m.source = s.manifest.source ∧ m.extra = s.manifest.extra
    ∧ m.items.map unflagged = s.manifest.items.map unflagged := by
  induction ids generalizing s with
  | nil => exact ⟨s.manifest, rfl, rfl, rfl, rfl⟩
  | cons id ids ih =>
    let n := (Catalog.source s).place id
    let items := s.manifest.items.modify n fun e => { e with described := true }
    have hmark : (Catalog.source s).mark id = .source { s with manifest := { s.manifest with items := items } } := by
      rw [Catalog.mark_eq_flagAt]
      rfl
    have hitems : items.map unflagged = s.manifest.items.map unflagged := by
      refine List.ext_getElem (by simp [items]) fun k _ _ => ?_
      simp only [items, List.getElem_map, List.getElem_modify]
      split <;> rfl
    obtain ⟨m, hm, hsource, hextra, hall⟩ := ih { s with manifest := { s.manifest with items := items } }
    refine ⟨m, ?_, hsource, hextra, hall.trans hitems⟩
    show ((Catalog.source s).mark id).marks ids = _
    rw [hmark, hm]

/-- The first place of an identity is where no entry in front has it. -/
theorem place_eq_iff {s : SourceDir} {n : Nat} {e : ManifestEntry} (h : s.manifest.items[n]? = some e) :
    (Catalog.source s).place e.id = n ↔ ∀ k f, k < n → s.manifest.items[k]? = some f → f.id ≠ e.id := by
  obtain ⟨hn, rfl⟩ := List.getElem?_eq_some_iff.1 h
  have hplace : (Catalog.source s).place s.manifest.items[n].id
      = s.manifest.items.findIdx fun f => f.id == s.manifest.items[n].id := List.findIdx_map ..
  rw [hplace, List.findIdx_eq hn]
  constructor
  · rintro ⟨-, hfront⟩ k f hk hf
    obtain ⟨hlt, rfl⟩ := List.getElem?_eq_some_iff.1 hf
    simpa using hfront k hk
  · intro hfront
    refine ⟨by simp, fun k hk => ?_⟩
    have hlt : k < s.manifest.items.length := Nat.lt_trans hk hn
    simpa using hfront k _ hk (List.getElem?_eq_getElem hlt)

theorem flagged_marks (s : SourceDir) (ids : List String) :
    ∃ m, (Catalog.source s).marks ids = .source ⟨s.dir, m⟩ ∧ Flagged ids s.manifest m := by
  obtain ⟨m, hm, hsource, hextra, hitems⟩ := unflagged_marks s ids
  refine ⟨m, hm, hsource, hextra, by simpa using congrArg List.length hitems, fun n e e' he he' => ?_⟩
  -- whether an entry is described is the same as for its item
  have hitem := Catalog.getElem?_marks ids (.source s) n
  simp only [hm, Catalog.items, SourceDir.items, List.getElem?_map, he, he', Option.map_some, Option.some.injEq] at hitem
  have hflag : e'.described = if e.id ∈ ids ∧ (Catalog.source s).place e.id = n then true else e.described := by
    have := congrArg Item.described hitem
    rwa [apply_ite Item.described] at this
  have hdescribed : e'.described = true ↔ e.described = true ∨ e.id ∈ ids ∧ (Catalog.source s).place e.id = n := by
    rw [hflag]
    split
    · next h => exact ⟨fun _ => .inr h, fun _ => rfl⟩
    · next h => exact ⟨.inl, fun hor => hor.resolve_right h⟩
  rw [place_eq_iff he] at hdescribed
  have hsame : unflagged e' = unflagged e := by
    have := congrArg (·[n]?) hitems
    simpa [he, he'] using this
  refine ⟨?_, hdescribed⟩
  obtain ⟨hid, horigin, hpage, htitle, hfile, hformat, hdownloaded, -, hextra⟩ := ManifestEntry.mk.inj hsame
  rw [← hid, ← horigin, ← hpage, ← htitle, ← hfile, ← hformat, ← hdownloaded, ← hextra]

/-- What can be kept again is not touched by marks. -/
theorem Flagged.sound {ids : List String} {m m' : Manifest} (h : Flagged ids m m') (hm : m.Sound) : m'.Sound := by
  refine ⟨h.extra ▸ hm.extra, fun e' he' => ?_⟩
  obtain ⟨n, hn, rfl⟩ := List.getElem_of_mem he'
  have hlt : n < m.items.length := h.length ▸ hn
  have he := (h.entry n _ _ (List.getElem?_eq_getElem hlt) (List.getElem?_eq_getElem hn)).1
  rw [he]
  exact hm.entries m.items[n] (List.getElem_mem hlt)

end Manifest

namespace SourceDir

open FileTree (Folder Replaced)

/-! ## Loading what was stored -/

section
variable {t u : FileTree} {dir text : String} {p : Place} {b : Bytes}

theorem readText_manifest (h : t.Folder dir p)
    (hb : t.get? (p ++ [manifestName]) = some (.file (Utf8.ofString text))) :
    t.readText (manifestPath dir) = .ok text := by
  unfold FileTree.readText
  rw [manifestPath, h.read_file isName_manifestName hb]
  simp only [bind, Except.bind, Utf8.toString?_ofString]

theorem load_of_ofText {m : Manifest} (ht : t.readText (manifestPath dir) = .ok text)
    (hm : Manifest.ofText text = .ok m) : load t dir = .ok ⟨dir, m⟩ := by
  unfold load
  rw [ht]
  dsimp only
  rw [hm]

/-- A source is loaded with what its manifest says. -/
theorem ofText_of_load {s : SourceDir} (h : load t dir = .ok s) (ht : t.readText (manifestPath dir) = .ok text) :
    Manifest.ofText text = .ok s.manifest := by
  rw [load, ht] at h
  dsimp only at h
  split at h
  · next m hm => rw [hm, ← Except.ok.inj h]
  · cases h

/-- When identities of a source are marked and the marks are stored, nothing of its manifest has changed but which
entries are described: those that were, and the first one of each identity that was marked. To store what is loaded then
writes the same bytes. -/
theorem stored_marks {s : SourceDir} (hl : load t dir = .ok s) (ht : t.readText (manifestPath dir) = .ok text)
    (hi : Json.OnlyIntegers text) (ids : List String) :
    ∃ (u v : FileTree) (m : Manifest) (b : Bytes), ((Catalog.source s).marks ids).save t = (u, .ok ())
      ∧ load u dir = .ok ⟨dir, m⟩ ∧ Manifest.Flagged ids s.manifest m ∧ u.read (manifestPath dir) = .ok b
      ∧ save u ⟨dir, m⟩ = (v, .ok ()) ∧ v.read (manifestPath dir) = .ok b := by
  obtain ⟨p, old, rfl, hfolder, hold⟩ := folder_of_load hl
  obtain ⟨m, hmarks, hflagged⟩ := Manifest.flagged_marks s ids
  have hsound : m.Sound := hflagged.sound (Manifest.sound_ofText hi (ofText_of_load hl ht))
  have hfile : t.get? (p ++ [manifestName]) ≠ some .directory := by simp [hold]
  obtain ⟨u, hu, hr⟩ := save_ok (s := ⟨s.dir, m⟩) hfolder hfile
  have hfolder' : u.Folder s.dir p := hfolder.grown (hr.grown hfile)
  have hfile' : u.get? (p ++ [manifestName]) ≠ some .directory := by simp [hr.file]
  obtain ⟨v, hv, hr'⟩ := save_ok (s := ⟨s.dir, m⟩) hfolder' hfile'
  have hload : load u s.dir = .ok ⟨s.dir, m⟩ :=
    load_of_ofText (readText_manifest hfolder' hr.file) (Manifest.ofText_text hsound)
  refine ⟨u, v, m, Utf8.ofString m.text, ?_, hload, hflagged, hfolder'.read_file isName_manifestName hr.file, hv,
    (hfolder'.grown (hr'.grown hfile')).read_file isName_manifestName hr'.file⟩
  rw [hmarks]
  exact hu

end

/-! ## A manifest with members of other names -/

namespace Strange

/-- A manifest out of order, with an identity that is repeated and members of other names in it and in its entries. -/
def text : String :=
  "\x7b\"items\": [\x7b\"z\": [-0, 18446744073709551615], \"id\": \"a\", \"x\": null\x7d, \x7b\"id\": \"a\"\x7d],\n"
    ++ "\"b\": 1, \"source\": \"s\", \"a\": \x7b\"k\": \"v\"\x7d\x7d"

/-- A directory with that manifest. -/
def tree : FileTree :=
  ⟨[], [(["s"], .directory), (["s", "manifest.json"], .file (Utf8.ofString text))]⟩

theorem folder_tree : tree.Folder "s" ["s"] := ⟨eq_ok_of_toOption (by decide +kernel), rfl⟩

theorem readText_tree : tree.readText (manifestPath "s") = .ok text := readText_manifest folder_tree rfl

theorem exists_load : ∃ s, load tree "s" = .ok s := by
  obtain ⟨m, hm⟩ : ∃ m, Manifest.ofText text = .ok m := exists_ok_of_toOption (by decide +kernel)
  exact ⟨⟨"s", m⟩, load_of_ofText readText_tree hm⟩

theorem onlyIntegers_text : Json.OnlyIntegers text := by decide +kernel

end Strange

theorem strange_marks_stored : ∃ s, load Strange.tree "s" = .ok s
    ∧ Strange.tree.readText (manifestPath "s") = .ok Strange.text
    ∧ Json.OnlyIntegers Strange.text
    ∧ ∃ (u v : FileTree) (m : Manifest) (b : Bytes), ((Catalog.source s).marks ["a", "c"]).save Strange.tree = (u, .ok ())
      ∧ load u "s" = .ok ⟨"s", m⟩ ∧ Manifest.Flagged ["a", "c"] s.manifest m ∧ u.read (manifestPath "s") = .ok b
      ∧ save u ⟨"s", m⟩ = (v, .ok ()) ∧ v.read (manifestPath "s") = .ok b := by
  obtain ⟨s, hl⟩ := Strange.exists_load
  exact ⟨s, hl, Strange.readText_tree, Strange.onlyIntegers_text,
    stored_marks hl Strange.readText_tree Strange.onlyIntegers_text ["a", "c"]⟩

end SourceDir

end Captioning
