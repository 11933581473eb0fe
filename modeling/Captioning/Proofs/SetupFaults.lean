import Captioning.Proofs.CommandSessions
import Captioning.Proofs.FoundSources
/-!
# Faults before anything is done

A catalog is only described once its log can be opened, and what ends that is a fault of the log or of storing marks
(`describeCatalog_fault`). A source is loaded before that, and a fault of loading it leaves everything as it was
(`describeSource_fault`). So whatever a command ends with, it has either done nothing yet, or a log or marks were at
fault, or a source behind the first one could not be loaded (`run_fault`). The other faults are those of a command
that is not ready, and they leave all files as they were (`setup_fault`).
-/

namespace Captioning

/-- Faults of an open catalog: its log cannot be read, opened or added to, or its marks cannot be stored. -/
inductive SetupFault.OfWork : SetupFault → Prop
  | log (path : String) (cause : FileFault) : OfWork (.output path cause)
  | marks (path : String) (cause : FileFault) : OfWork (.catalog (.write path cause))

/-- Faults of loading the source in a directory: its manifest cannot be read, or is not one. -/
inductive SetupFault.OfManifest (dir : String) : SetupFault → Prop
  | unread (cause : FileFault) : OfManifest dir (.catalog (.read (SourceDir.manifestPath dir) cause))
  | malformed (cause : Json.Fault) : OfManifest dir (.catalog (.form (SourceDir.manifestPath dir) cause))

/-- Faults of a command that is not ready: of its settings, of the key, of the client, or of what is to be described
first. -/
inductive SetupFault.OfSetup (t : FileTree) : Command → SetupFault → Prop
  | settings {c : Command} (reason : String) : OfSetup t c (.settings reason)
  | unsound {c : Command} (reason : String) : OfSetup t c (.unsound reason)
  | key {c : Command} (path : String) (cause : FileFault) : OfSetup t c (.key path cause)
  | emptyKey {c : Command} (path : String) : OfSetup t c (.emptyKey path)
  | noInput {c : Command} (reason : String) : OfSetup t c (.noInput reason)
  | httpClient {c : Command} (reason : String) : OfSetup t c (.httpClient reason)
  | table {path output : String} {resume : Bool} {limits : RunLimits} (file : String) (cause : FileFault) :
    OfSetup t (.table path output resume limits) (.catalog (.read file cause))
  | source {root : String} {only : Option String} {force : Bool} {limits : RunLimits} {dir : String}
    {more : List String} {f : SetupFault} (hfound : Command.findSources t root only = .ok (dir :: more))
    (hf : f.OfManifest dir) : OfSetup t (.sources root only force limits) f

namespace SetupFault

variable {t : FileTree} {c : Command} {f : SetupFault} {dir dir' : String}

/-- A fault of a manifest tells which one it is. -/
theorem OfManifest.path_eq (h : f.OfManifest dir) (h' : f.OfManifest dir') :
    SourceDir.manifestPath dir = SourceDir.manifestPath dir' := by
  cases h
  -- the path that the fault names is compared as a whole
  all_goals
    generalize SourceDir.manifestPath dir = path at h'
    cases h'
    rfl

/-- A command that is not ready has no catalog open. -/
theorem OfSetup.not_ofWork (h : f.OfSetup t c) : ¬ f.OfWork := by
  intro hw
  cases h with
  | source _ hf =>
    cases hf with
    | unread => cases hw
    | malformed => cases hw
  | _ => cases hw

end SetupFault

namespace Command

variable {z : Surroundings} {plan : FileTree → RunPlan} {mode : OpenMode} {p q : Progression} {f : SetupFault}

/-! ## Faults of one catalog -/

theorem skipSetFor_fault {t : FileTree} {output : String} (h : skipSetFor t output mode = .error f) : f.OfWork := by
  cases mode with
  | truncate => cases h
  | extend =>
    change RecordLog.loadSkipSet t output = .error f at h
    unfold RecordLog.loadSkipSet at h
    split at h
    · split at h
      · cases h
      · cases h
        exact .log _ _
    · split at h
      · cases h
      · cases h
        exact .log _ _

theorem openAt_fault {t : FileTree} {output : String} (h : RecordLog.openAt t output mode = .error f) : f.OfWork := by
  unfold RecordLog.openAt at h
  split at h
  · cases h
  · cases h
    exact .log _ _

theorem save_fault {t u : FileTree} {c : Catalog} {g : CatalogFault} (h : c.save t = (u, .error g)) :
    SetupFault.OfWork (.catalog g) := by
  cases c with
  | table tbl => cases (Prod.mk.inj h).2
  | source s =>
    change s.save t = (u, .error g) at h
    unfold SourceDir.save SourceDir.saveOn at h
    split at h
    · cases (Prod.mk.inj h).2
    · cases (Prod.mk.inj h).2
      exact .marks _ _

/-- What ends the work on a catalog. -/
theorem describeCatalog_fault {c : Catalog} {output : String}
    (h : describeCatalog z plan c output mode p = (q, .error f)) : f.OfWork := by
  rcases describeCatalog_eq_error h with ⟨hskip, -⟩ | ⟨hopen, -⟩ | ⟨_, _, _, _, -, _, _, _, -, hsave, rfl⟩
  · exact skipSetFor_fault hskip
  · exact openAt_fault hopen
  · exact save_fault hsave

/-! ## Faults of sources -/

theorem load_fault {t : FileTree} {dir : String} {g : CatalogFault} (h : SourceDir.load t dir = .error g) :
    SetupFault.OfManifest dir (.catalog g) := by
  unfold SourceDir.load at h
  split at h
  · cases h
    exact .unread _
  · split at h
    · cases h
    · cases h
      exact .malformed _

/-- What ends the work on a source. -/
theorem describeSource_fault {dir : String} (h : describeSource z plan mode dir p = (q, .error f)) :
    f.OfManifest dir ∧ q = p ∨ f.OfWork := by
  unfold describeSource at h
  split at h
  · next hload =>
    obtain ⟨rfl, hf⟩ := Prod.mk.inj h
    cases hf
    exact .inl ⟨load_fault hload, rfl⟩
  · exact .inr (describeCatalog_fault h)

/-- What ends the work on sources in turn: if one of them cannot be loaded, the others in front of it were described
first. -/
theorem describeAll_fault {dirs : List String} {c : Counters}
    (h : describeAll z plan mode dirs c p = (q, .error f)) :
    (∃ dir more, dirs = dir :: more ∧ f.OfManifest dir ∧ q = p) ∨ (∃ dir ∈ dirs.tail, f.OfManifest dir)
      ∨ f.OfWork := by
  induction dirs generalizing c p with
  | nil => cases (Prod.mk.inj h).2
  | cons dir more ih =>
    unfold describeAll at h
    split at h
    · next hd =>
      obtain ⟨rfl, hf⟩ := Prod.mk.inj h
      cases hf
      rcases describeSource_fault hd with ⟨hm, hq⟩ | hw
      · exact .inl ⟨dir, more, rfl, hm, hq⟩
      · exact .inr (.inr hw)
    · dsimp only at h
      split at h
      · cases (Prod.mk.inj h).2
      · rcases ih h with ⟨d, ds, rfl, hm, -⟩ | ⟨d, hd, hm⟩ | hw
        · exact .inr (.inl ⟨d, List.mem_cons_self, hm⟩)
        · exact .inr (.inl ⟨d, List.mem_of_mem_tail hd, hm⟩)
        · exact .inr (.inr hw)

/-! ## Faults of a command -/

variable {s : Settings} {limits : RunLimits} {t : FileTree}

/-- A table is only described once it has been loaded and the command is ready. -/
theorem describeTable_fault [Image.Library] {path output : String} {resume : Bool}
    (h : describeTable z s path output resume limits p = (q, .error f)) : q = p ∨ f.OfWork := by
  unfold describeTable at h
  split at h
  · exact .inl (Prod.mk.inj h).1.symm
  · dsimp only at h
    generalize hd : describeCatalog z _ _ output _ _ = d at h
    obtain ⟨rfl, hf⟩ := Prod.mk.inj h
    obtain ⟨q, r⟩ := d
    cases r with
    | error g =>
      cases hf
      exact .inr (describeCatalog_fault hd)
    | ok r => cases hf

/-- Sources are only described once they have been found, the command is ready and the first of them has been
loaded. -/
theorem describeSources_fault [Image.Library] {root : String} {only : Option String} {force : Bool}
    (h : describeSources z s root only force limits p = (q, .error f)) :
    (q.files = p.files ∧ q.runs = p.runs) ∨ f.OfWork
      ∨ ∃ dirs, findSources p.files root only = .ok dirs ∧ ∃ d ∈ dirs.tail, f.OfManifest d := by
  unfold describeSources at h
  split at h
  · obtain ⟨rfl, -⟩ := Prod.mk.inj h
    exact .inl ⟨rfl, rfl⟩
  · next dirs plan hready =>
    obtain ⟨found, hfound, hready⟩ := bind_eq_ok.1 hready
    obtain ⟨ready, -, hready⟩ := bind_eq_ok.1 hready
    obtain ⟨rfl, rfl⟩ := Prod.mk.inj (Except.ok.inj hready)
    dsimp only at h
    split at h
    · next hall =>
      obtain ⟨rfl, hf⟩ := Prod.mk.inj h
      cases hf
      rcases describeAll_fault hall with ⟨dir, more, -, -, rfl⟩ | hlater | hwork
      · exact .inl ⟨rfl, rfl⟩
      · exact .inr (.inr ⟨found, hfound, hlater⟩)
      · exact .inr (.inl hwork)
    · cases (Prod.mk.inj h).2

/-- Whatever ends a command: it has done nothing yet, or a log or marks were at fault, or a source behind the first
one could not be loaded. -/
theorem run_fault [Image.Library] {i : Invocation} (h : run z i t = (q, .error f)) :
    (q.files = t ∧ q.runs = []) ∨ f.OfWork
      ∨ ∃ root only force limits dirs, i.command = .sources root only force limits
        ∧ findSources t root only = .ok dirs ∧ ∃ d ∈ dirs.tail, f.OfManifest d := by
  unfold run at h
  dsimp only at h
  split at h
  · obtain ⟨rfl, -⟩ := Prod.mk.inj h
    exact .inl ⟨rfl, rfl⟩
  · split at h
    · rcases describeTable_fault h with rfl | hwork
      · exact .inl ⟨rfl, rfl⟩
      · exact .inr (.inl hwork)
    · next root only force limits hcommand =>
      rcases describeSources_fault h with hq | hwork | ⟨dirs, hfound, hlater⟩
      · exact .inl hq
      · exact .inr (.inl hwork)
      · exact .inr (.inr ⟨root, only, force, limits, dirs, hcommand, hfound, hlater⟩)

/-- No source that is found has the manifest of another. -/
theorem manifestPath_ne (ht : t.Regular) {root : String} {only : Option String} {dir d : String} {more : List String}
    (h : findSources t root only = .ok (dir :: more)) (hd : d ∈ more) :
    SourceDir.manifestPath dir ≠ SourceDir.manifestPath d := by
  obtain ⟨r, names, hfound⟩ := findSources_eq_ok ht h
  have hs := hfound.separate ht
  obtain ⟨p, hp⟩ := hs.folder dir List.mem_cons_self
  obtain ⟨q, hq⟩ := hs.folder d (List.mem_cons_of_mem dir hd)
  have hapart : FileTree.Apart t dir d := ((List.pairwise_cons.1 hs.apart).1 d hd).1
  intro e
  -- both manifests are at one place, so that the sources are, too
  have hplace : t.place (SourceDir.manifestPath d) = .ok (p ++ [SourceDir.manifestName]) :=
    e ▸ hp.leads_to SourceDir.isName_manifestName
  have hsame := Except.ok.inj ((hq.leads_to SourceDir.isName_manifestName).symm.trans hplace)
  obtain rfl := List.append_cancel_right hsame
  exact hapart q q hp hq SourceDir.manifestName (List.prefix_append q _)

/-- A command that ends since it is not ready leaves all files as they were, and has run no job. -/
theorem setup_fault [Image.Library] (ht : t.Regular) {i : Invocation} (h : run z i t = (q, .error f))
    (hf : f.OfSetup t i.command) : q.files = t ∧ q.runs = [] := by
  rcases run_fault h with hq | hwork | ⟨root, only, force, limits, dirs, hcommand, hfound, d, hd, hm⟩
  · exact hq
  · exact absurd hwork hf.not_ofWork
  · -- the fault of a later source would be that of the first one
    rw [hcommand] at hf
    cases hf with
    | source hfirst hfirst' =>
      obtain rfl := Except.ok.inj (hfound.symm.trans hfirst)
      exact absurd (hfirst'.path_eq hm) (manifestPath_ne ht hfound hd)
    | _ => cases hm

namespace FirstMalformed

/-- A source that has been described before. Its manifest is empty by now. -/
def tree : FileTree :=
  ⟨[], [(["r"], .directory), (["r", "b"], .directory), (["r", "b", "manifest.json"], .file []),
    (["r", "b", "descriptions.jsonl"], .file (Utf8.ofString "\x7b\"id\":\"a\"\x7d\n"))]⟩

/-- There is a key, and no network. -/
def surroundings : Surroundings :=
  ⟨[("GEMINI_API_KEY", "k")], .unreachable, fun _ _ => .value (.error .noEntry), "/tmp", ⟨⟨2025, 1, 1⟩, 0, 0⟩⟩

/-- To describe all sources anew. -/
def invocation : Invocation := ⟨none, false, .sources "r" none true ⟨none, none⟩⟩

theorem regular_tree : tree.Regular := ⟨by decide +kernel, by decide +kernel⟩

theorem found_tree : Found tree "r" none ["r"] ["b"] ["r/b"] where
  named := by decide
  below := ⟨eq_ok_of_toOption (by decide +kernel), rfl⟩
  paths := by decide +kernel
  sorted := List.pairwise_singleton _ "b"
  wanted := by
    have hin : ∀ n ∈ ["b"], n ∈ tree.children ["r"] ∧ SourceDir.isWanted tree "r" none n = true := by decide +kernel
    have hall : ∀ n ∈ tree.children ["r"], n ∈ ["b"] := by decide +kernel
    exact fun n => ⟨hin n, fun h => hall n h.1⟩

theorem findSources_tree : findSources tree "r" none = .ok ["r/b"] :=
  findSources_of_found found_tree regular_tree (List.cons_ne_nil _ _)

theorem exists_load : ∃ g, SourceDir.load tree "r/b" = .error g :=
  exists_error_of_toOption (by decide +kernel)

theorem exists_plan : ∃ plan, planFor surroundings (.default "") ⟨none, none⟩ true tree = .ok plan :=
  exists_ok_of_toOption (by decide +kernel)

/-- The command ends with the fault of that manifest. -/
theorem exists_run : ∃ q f, run surroundings invocation tree = (q, .error f) ∧ f.OfManifest "r/b" := by
  have hsettings : Settings.load tree surroundings.environment none = .ok (.default "") :=
    eq_ok_of_toOption (by decide +kernel)
  obtain ⟨plan, hplan⟩ := exists_plan
  obtain ⟨g, hload⟩ := exists_load
  refine ⟨⟨tree, [] ++ [foundNotice ["r/b"]], []⟩, .catalog g, ?_, load_fault hload⟩
  show run surroundings ⟨none, false, .sources "r" none true ⟨none, none⟩⟩ tree = _
  simp only [run, hsettings, describeSources, findSources_tree, hplan, bind, Except.bind, pure, Except.pure,
    describeAll, describeSource, hload]

end FirstMalformed

open FirstMalformed in
/-- To describe sources anew drops no record when the first of them is malformed. -/
theorem first_malformed : tree.Regular ∧ ∃ q f, run surroundings invocation tree = (q, .error f)
    ∧ f.OfSetup tree invocation.command ∧ q.files = tree ∧ q.runs = [] := by
  obtain ⟨q, f, h, hm⟩ := exists_run
  have hf : f.OfSetup tree invocation.command := .source findSources_tree hm
  exact ⟨regular_tree, q, f, h, hf, setup_fault regular_tree h hf⟩

end Command

end Captioning
