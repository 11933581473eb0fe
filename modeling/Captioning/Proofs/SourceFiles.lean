import Captioning.Proofs.CommandSessions
import Captioning.Proofs.StoredMarks
import Mathlib.Data.List.DropRight
/-!
# The files of a source

To describe a source in a session gives its log the lines of the session and its manifest the marks, and changes
nothing else (`Session.Describes.stored`). Whether it can be done, and what comes of it, depends on nothing but the
files of the source (`Session.Describes.elsewhere`, `Session.Describes.same`). Where it cannot be done, nothing is
changed either but files in the directory of the source (`Session.Fails.within`).
-/

namespace Captioning

namespace Path

/-! ## The directory of a log -/

theorem names_rdropWhile (s : List Char) : names (s.rdropWhile (· == '/')) = names s := by
  induction s using List.reverseRecOn with
  | nil => rfl
  | append_singleton s c ih =>
    rw [List.rdropWhile_concat]
    split
    · next hc =>
      obtain rfl : c = '/' := by simpa using hc
      rw [ih, names_append]
      exact (List.append_nil _).symm
    · rfl

theorem rdropWhile_slash {n : List Char} (h : '/' ∉ n) (hne : n ≠ []) (s : List Char) :
    (s ++ n).rdropWhile (· == '/') = s ++ n := by
  obtain ⟨r, c, rfl⟩ := (List.eq_nil_or_concat' n).resolve_left hne
  have hc : ¬ (c == '/') = true := by
    have : c ≠ '/' := fun e => h (e ▸ List.mem_append_right r List.mem_cons_self)
    simpa using this
  rw [← List.append_assoc, List.rdropWhile_concat, if_neg hc]

theorem rdropWhile_name {n : List Char} (h : '/' ∉ n) (s : List Char) :
    (s ++ '/' :: n).rdropWhile (· != '/') = s ++ ['/'] := by
  induction n using List.reverseRecOn with
  | nil => exact List.rdropWhile_concat_neg _ _ _ (by decide)
  | append_singleton n c ih =>
    have hc : (c != '/') = true := by
      have : c ≠ '/' := fun e => h (e ▸ List.mem_append_right n List.mem_cons_self)
      simpa using this
    rw [← List.cons_append, ← List.append_assoc, List.rdropWhile_concat, if_pos hc]
    exact ih fun hm => h (List.mem_append_left _ hm)

/-- The parent of a path, in the words of lists. -/
theorem parent?_eq {path : String} {s n : List Char} (hpath : path.toList = s ++ '/' :: n) (hn : '/' ∉ n)
    (hne : n ≠ []) : parent? path
      = some (String.ofList (if (s.rdropWhile (· == '/')).isEmpty then ['/'] else s.rdropWhile (· == '/'))) := by
  have htrim : path.toList.rdropWhile (· == '/') = s ++ '/' :: n := by
    have := rdropWhile_slash hn hne (s ++ ['/'])
    rw [hpath]
    simpa using this
  have hbare : (s ++ ['/']).rdropWhile (· == '/') = s.rdropWhile (· == '/') :=
    List.rdropWhile_concat_pos _ _ _ (by decide)
  unfold parent?
  simp only [← List.rdropWhile.eq_1, htrim, rdropWhile_name hn, hbare]
  simp

section Bare
variable {dir s : List Char} (hd : dir = s ∨ dir = s ++ ['/'])
include hd

theorem names_bare : names dir = names (s.rdropWhile (· == '/')) := by
  rw [names_rdropWhile]
  rcases hd with rfl | rfl
  · rfl
  · rw [names_append]
    exact List.append_nil _

/-- Without the slashes at its end a path still starts at the root, or elsewhere. -/
theorem slash_bare (hne : dir ≠ []) :
    ['/'] <+: (if (s.rdropWhile (· == '/')).isEmpty then ['/'] else s.rdropWhile (· == '/')) ↔ ['/'] <+: dir := by
  obtain ⟨c, r, rfl⟩ := List.exists_cons_of_ne_nil hne
  by_cases hb : s.rdropWhile (· == '/') = []
  · -- nothing but slashes: the root
    have hall := List.rdropWhile_eq_nil_iff.1 hb
    have hm : c ∈ s ++ ['/'] := by
      rcases hd with rfl | hd
      · exact List.mem_append_left _ List.mem_cons_self
      · exact hd ▸ List.mem_cons_self
    have hroot : c = '/' := by
      rcases List.mem_append.1 hm with hm | hm
      · simpa using hall c hm
      · simpa using hm
    simp [hb, hroot]
  · have hpre : s.rdropWhile (· == '/') <+: c :: r := by
      have hs : s <+: c :: r := by
        rcases hd with rfl | hd
        · exact List.prefix_rfl
        · exact hd ▸ List.prefix_append s ['/']
      exact (List.rdropWhile_prefix (p := (· == '/')) s).trans hs
    obtain ⟨b, bs, hbs⟩ := List.exists_cons_of_ne_nil hb
    rw [hbs] at hpre ⊢
    obtain ⟨rfl, -⟩ := List.cons_prefix_cons.1 hpre
    simp [List.cons_prefix_cons]

end Bare

/-- The parent of a path to something in a directory is nothing at all, or a path with the names of the directory. -/
theorem IsName.parent_join {n : String} (h : IsName n) (dir : String) : ∃ d, parent? (join dir n) = some d
    ∧ (d.isEmpty = false → d.startsWith "/" = (directory dir).startsWith "/"
      ∧ names d.toList = names (directory dir).toList) := by
  have hne : n.toList ≠ [] := fun e => h.ne_empty (String.toList_inj.1 e)
  rcases h.join_cases dir with ⟨rfl, hj⟩ | ⟨s, hj, hd, hdir⟩
  · refine ⟨"", ?_, fun he => absurd he (by decide)⟩
    have htrim : n.toList.rdropWhile (· == '/') = n.toList := rdropWhile_slash h.noSlash hne []
    have hnone : n.toList.rdropWhile (· != '/') = [] := by
      refine List.rdropWhile_eq_nil_iff.2 fun c hc => ?_
      have : c ≠ '/' := fun e => h.noSlash (e ▸ hc)
      simpa using this
    unfold parent?
    simp [← List.rdropWhile.eq_1, hj, htrim, hnone, h.ne_empty]
  · refine ⟨_, parent?_eq hj h.noSlash hne, fun _ => ?_⟩
    have hdirectory : directory dir = dir := if_neg (by simpa using hdir)
    rw [hdirectory, Bool.eq_iff_iff, startsWith_slash, startsWith_slash, String.toList_ofList, names_bare hd]
    refine ⟨slash_bare hd fun e => hdir (String.toList_inj.1 e), ?_⟩
    by_cases hb : s.rdropWhile (· == '/') = []
    · rw [hb]
      rfl
    · rw [if_neg (by simpa using hb)]

end Path

namespace FileTree

open Captioning.Path (IsName join directory)
open RecordLog (heldAt openFile openHere openAt)

variable {t u v : FileTree} {dir n : String} {p q : Place} {b log : Bytes}

/-! ## The log in a directory -/

theorem follow_start {ns : List String} (h : t.follow p ns = .ok q) (hq : t.get? q = some .directory) :
    t.get? p = some .directory := by
  cases ns with
  | nil =>
    obtain rfl := Except.ok.inj h
    exact hq
  | cons n ns =>
    unfold follow at h
    split at h
    · cases h
    · cases h
    · next hp => exact hp

/-- Nothing is made along names that lead to a directory. -/
theorem makeAlong_of_follow {ns : List String} (h : t.follow p ns = .ok q) (hq : t.get? q = some .directory) :
    t.makeAlong p ns = .ok t := by
  induction ns generalizing p with
  | nil => rfl
  | cons n ns ih =>
    have hp : t.get? p = some .directory := follow_start h hq
    unfold follow at h
    rw [hp] at h
    dsimp only at h
    unfold makeAlong
    by_cases hn : (n == "..") = true
    · rw [if_pos hn] at h ⊢
      exact ih h
    · rw [if_neg hn] at h ⊢
      rw [follow_start h hq]
      exact ih h

/-- Where the directory of a log is there, the log is opened without making any. -/
theorem Folder.openFile_eq (h : t.Folder dir p) (hn : IsName n) (mode : OpenMode) :
    openFile t (join dir n) mode = openHere t (join dir n) mode := by
  obtain ⟨d, hd, hnames⟩ := hn.parent_join dir
  have hmake : d.isEmpty = false → t.makeDirectories d = .ok t := by
    intro he
    obtain ⟨hs, hns⟩ := hnames he
    obtain ⟨-, hf, -⟩ := place_eq_ok.1 h.leads
    rw [makeDirectories, hs, hns]
    exact makeAlong_of_follow hf h.found
  unfold openFile
  rw [hd]
  dsimp only
  split
  · cases mode <;> rfl
  · next he =>
    rw [hmake (by simpa using he)]
    cases mode <;> rfl

/-- What the log of a name in a directory holds. -/
theorem Folder.heldAt_eq (h : t.Folder dir p) (hn : IsName n) : heldAt t (join dir n)
    = match t.get? (p ++ [n]) with
      | some (.file log) => some log
      | some .directory => none
      | none => some [] := by
  cases hg : t.get? (p ++ [n]) with
  | none => simp [heldAt, h.leads_to hn, hg]
  | some node => cases node <;> simp [heldAt, h.leads_to hn, hg]

theorem Folder.not_directory (h : t.Folder dir p) (hn : IsName n) (hl : heldAt t (join dir n) = some log) :
    t.get? (p ++ [n]) ≠ some .directory := by
  intro hd
  rw [h.heldAt_eq hn, hd] at hl
  cases hl

theorem Replaced.trans {c : Bytes} (h : Replaced p b t u) (h' : Replaced p c u v) : Replaced p c t v :=
  ⟨h'.here.trans h.here, h'.file, fun q hq => (h'.other q hq).trans (h.other q hq)⟩

/-- What is appended to a log. -/
theorem Folder.append_eq (h : t.Folder dir p) (hn : IsName n) (hl : heldAt t (join dir n) = some log) (b : Bytes) :
    ∃ u, t.append (join dir n) b = .ok u ∧ Replaced (p ++ [n]) (log ++ b) t u := by
  have hd := h.not_directory hn hl
  refine ⟨_, ?_, replaced_put hd (log ++ b)⟩
  rw [h.heldAt_eq hn] at hl
  rw [FileTree.append, h.look hn]
  split at hl
  · next c hc =>
    obtain rfl := Option.some.inj hl
    rw [hc]
    exact h.write hn hd _
  · cases hl
  · next hc =>
    obtain rfl := Option.some.inj hl
    rw [hc]
    exact h.write hn hd _

/-- How a log is opened. -/
theorem Folder.openAt_eq (h : t.Folder dir p) (hn : IsName n) (hl : heldAt t (join dir n) = some log)
    (mode : OpenMode) : ∃ u r notices, openAt t (join dir n) mode = .ok (u, r, notices)
      ∧ Replaced (p ++ [n]) (Session.opened mode log) t u := by
  have hopen : ∃ u torn, openHere t (join dir n) mode = .ok (u, torn)
      ∧ Replaced (p ++ [n]) (Session.opened mode log) t u := by
    cases mode with
    | truncate =>
      refine ⟨_, false, ?_, replaced_put (h.not_directory hn hl) []⟩
      rw [openHere, h.write hn (h.not_directory hn hl)]
      rfl
    | extend =>
      obtain ⟨u, hu, hr⟩ := h.append_eq hn hl (if RecordLog.endsMidLine log then [10] else [])
      refine ⟨u, RecordLog.endsMidLine log, ?_, ?_⟩
      · simp only [openHere, RecordLog.isTorn_of_heldAt hl, hu, bind, Except.bind, pure, Except.pure]
      · have he : Session.opened .extend log = log ++ (if RecordLog.endsMidLine log then [10] else []) := by
          rw [Session.opened, RecordLog.continued]
          split
          · rfl
          · exact (List.append_nil log).symm
        rwa [he]
  obtain ⟨u, torn, hu, hr⟩ := hopen
  refine ⟨u, ⟨join dir n, 0⟩, if torn then [RecordLog.tornNotice (join dir n)] else [], ?_, hr⟩
  unfold openAt
  rw [h.openFile_eq hn, hu]

/-- To open a log is to write its file. -/
theorem Folder.write_of_openAt {mode : OpenMode} {r : RecordLog} {notices : List String} (h : t.Folder dir p)
    (hn : IsName n) (ho : openAt t (join dir n) mode = .ok (u, r, notices)) :
    ∃ c, t.write (join dir n) c = .ok u := by
  unfold openAt at ho
  split at ho
  · next w torn hw =>
    obtain ⟨rfl, -⟩ := Prod.mk.inj (Except.ok.inj ho)
    rw [h.openFile_eq hn] at hw
    cases mode with
    | truncate =>
      obtain ⟨u, hu, hw⟩ := bind_eq_ok.1 hw
      obtain ⟨rfl, -⟩ := Prod.mk.inj (Except.ok.inj hw)
      exact ⟨[], hu⟩
    | extend =>
      obtain ⟨torn', -, hw⟩ := bind_eq_ok.1 hw
      obtain ⟨u, hu, hw⟩ := bind_eq_ok.1 hw
      obtain ⟨rfl, -⟩ := Prod.mk.inj (Except.ok.inj hw)
      exact RecordLog.append_eq_ok hu
  · cases ho

theorem Folder.replaced_of_write (h : t.Folder dir p) (hn : IsName n) (hw : t.write (join dir n) b = .ok u) :
    t.get? (p ++ [n]) ≠ some .directory ∧ Replaced (p ++ [n]) b t u := by
  obtain ⟨q, hq, hd, rfl, -⟩ := write_eq_ok hw
  obtain rfl := Except.ok.inj ((h.leads_to hn).symm.trans hq)
  exact ⟨hd, replaced_put hd b⟩

theorem Folder.exists_heldAt (h : t.Folder dir p) (hn : IsName n) (hd : t.get? (p ++ [n]) ≠ some .directory) :
    ∃ log, heldAt t (join dir n) = some log := by
  rw [h.heldAt_eq hn]
  cases hg : t.get? (p ++ [n]) with
  | none => exact ⟨[], rfl⟩
  | some node =>
    cases node with
    | file c => exact ⟨c, rfl⟩
    | directory => exact absurd hg hd

/-- The tree with bytes added to the end of a file, some after others. -/
def appendAll (t : FileTree) (path : String) (pieces : List Bytes) : Except FileFault FileTree :=
  pieces.foldlM (fun t b => t.append path b) t

theorem Folder.appendAll_eq (h : t.Folder dir p) (hn : IsName n) (hf : t.get? (p ++ [n]) = some (.file log))
    (pieces : List Bytes) : ∃ u, t.appendAll (join dir n) pieces = .ok u
      ∧ Replaced (p ++ [n]) (log ++ pieces.flatten) t u := by
  induction pieces generalizing t log with
  | nil => exact ⟨t, rfl, rfl, by simpa using hf, fun _ _ => rfl⟩
  | cons b pieces ih =>
    have hl : heldAt t (join dir n) = some log := by rw [h.heldAt_eq hn, hf]
    obtain ⟨u, hu, hr⟩ := h.append_eq hn hl b
    obtain ⟨v, hv, hr'⟩ := ih (h.grown (hr.grown (h.not_directory hn hl))) hr.file
    refine ⟨v, ?_, ?_⟩
    · rw [appendAll, List.foldlM_cons, hu]
      exact hv
    · rw [List.flatten_cons, ← List.append_assoc]
      exact hr.trans hr'

/-! ## Changes in one directory -/

/-- A tree in which nothing has changed but files in one directory. -/
structure Within (p : Place) (t u : FileTree) : Prop where
  here : u.here = t.here
  directory : ∀ q, u.get? q = some .directory ↔ t.get? q = some .directory
  other : ∀ q, (∀ n, q ≠ p ++ [n]) → u.get? q = t.get? q

theorem Within.refl (p : Place) (t : FileTree) : Within p t t :=
  ⟨rfl, fun _ => Iff.rfl, fun _ _ => rfl⟩

theorem Within.trans (h : Within p t u) (h' : Within p u v) : Within p t v :=
  ⟨h'.here.trans h.here, fun q => (h'.directory q).trans (h.directory q),
    fun q hq => (h'.other q hq).trans (h.other q hq)⟩

theorem Within.grown (h : Within p t u) : Grown t u :=
  ⟨h.here, fun q hq => (h.directory q).2 hq⟩

theorem Replaced.within (h : Replaced (p ++ [n]) b t u) (hp : t.get? (p ++ [n]) ≠ some .directory) :
    Within p t u := by
  refine ⟨h.here, fun q => ?_, fun q hq => h.other q (hq n)⟩
  by_cases he : q = p ++ [n]
  · subst he
    refine ⟨fun hd => ?_, fun hd => absurd hd hp⟩
    rw [h.file] at hd
    cases hd
  · rw [h.other q he]

theorem Folder.within_write (h : t.Folder dir p) (hn : IsName n) (hw : t.write (join dir n) b = .ok u) :
    Within p t u := by
  obtain ⟨hd, hr⟩ := h.replaced_of_write hn hw
  exact hr.within hd

theorem Folder.within_appendAll {pieces : List Bytes} (h : t.Folder dir p) (hn : IsName n)
    (ha : t.appendAll (join dir n) pieces = .ok u) : Within p t u := by
  induction pieces generalizing t with
  | nil =>
    obtain rfl := Except.ok.inj ha
    exact .refl p t
  | cons b pieces ih =>
    rw [appendAll, List.foldlM_cons] at ha
    obtain ⟨w, hw, ha⟩ := bind_eq_ok.1 ha
    obtain ⟨c, hc⟩ := RecordLog.append_eq_ok hw
    have hwithin := h.within_write hn hc
    exact hwithin.trans (ih (h.grown hwithin.grown) ha)

theorem within_remove (h : t.get? (p ++ [n]) ≠ some .directory) : Within p t (t.remove (p ++ [n])) := by
  refine ⟨rfl, fun q => ?_, fun q hq => get?_remove_other (hq n)⟩
  by_cases he : q = p ++ [n]
  · subst he
    rw [get?_remove_same (by simp)]
    exact ⟨fun hd => absurd hd (by simp), fun hd => absurd hd h⟩
  · rw [get?_remove_other he]

/-! ## Trees with the same files in a directory -/

/-- Two trees that hold the same directory, with the same files in it. -/
structure Alike (dir : String) (p : Place) (t u : FileTree) : Prop where
  left : t.Folder dir p
  right : u.Folder dir p
  files : ∀ n, u.get? (p ++ [n]) = t.get? (p ++ [n])

theorem Alike.symm (h : Alike dir p t u) : Alike dir p u t :=
  ⟨h.right, h.left, fun n => (h.files n).symm⟩

theorem Alike.trans (h : Alike dir p t u) (h' : Alike dir p u v) : Alike dir p t v :=
  ⟨h.left, h'.right, fun n => (h'.files n).trans (h.files n)⟩

theorem Alike.read (h : Alike dir p t u) (hn : IsName n) : u.read (join dir n) = t.read (join dir n) := by
  rw [FileTree.read, FileTree.read, h.right.look hn, h.left.look hn, h.files]

theorem Alike.heldAt_eq (h : Alike dir p t u) (hn : IsName n) : heldAt u (join dir n) = heldAt t (join dir n) := by
  rw [h.right.heldAt_eq hn, h.left.heldAt_eq hn, h.files]

end FileTree

open FileTree (Folder Replaced Within Alike)
open SourceDir (manifestName recordsName manifestPath recordsPath isName_manifestName isName_recordsName)
open RecordLog (heldAt accepted)
open RunState (History)

namespace Session

/-! ## Describing a source -/

/-- A session describes the source in a directory: the source is loaded, the identities that have a record are left
out, the log is opened, the run comes to its end, its lines reach the log piece by piece, and the marks are stored. -/
inductive Describes (v : Session) (dir : String) (t : FileTree) : FileTree → Prop
  | done {s : SourceDir} {skip : SkipSet} {skipNotices logNotices : List String} {t₁ t₂ u : FileTree}
    {log : RecordLog} {pieces : List Bytes} (hload : SourceDir.load t dir = .ok s)
    (hskip : Command.skipSetFor t (recordsPath dir) v.mode = .ok (skip, skipNotices))
    (hopen : RecordLog.openAt t (recordsPath dir) v.mode = .ok (t₁, log, logNotices))
    (hrun : History (.start v.workers v.interval (v.queue (.source s) skip) v.stopped (.source s)) v.events v.state)
    (hend : v.state.running = [] ∧ v.state.launch? = none ∧ v.crash = none)
    (hpieces : pieces.flatten = accepted v.attempts)
    (hwrite : t₁.appendAll (recordsPath dir) pieces = .ok t₂)
    (hsave : v.state.account.catalog.save t₂ = (u, .ok ())) : Describes v dir t u

/-- What is stored when a source has been described. -/
structure Stored (dir : String) (p : Place) (records manifest : Bytes) (t u : FileTree) : Prop where
  within : Within p t u
  records : u.get? (p ++ [recordsName]) = some (.file records)
  manifest : u.get? (p ++ [manifestName]) = some (.file manifest)
  other : ∀ q, q ≠ p ++ [recordsName] → q ≠ p ++ [manifestName] → u.get? q = t.get? q

variable {v : Session} {dir : String} {p : Place} {t u : FileTree}

theorem catalog_of_history {s : SourceDir} {skip : SkipSet}
    (h : History (.start v.workers v.interval (v.queue (.source s) skip) v.stopped (.source s)) v.events v.state) :
    ∃ m, v.state.account.catalog = .source ⟨s.dir, m⟩ := by
  obtain ⟨m, hm, -⟩ := Manifest.flagged_marks s ((RunEvent.storedIn v.events).map Prod.fst)
  exact ⟨m, (h.accounted (RunState.accounted_start _ _ _ _ _)).catalog.trans hm⟩

/-- In a directory without other directories of these names, the log of a source is opened, added to, and the manifest
replaced. -/
theorem exists_steps {log : Bytes} (hf : t.Folder dir p) (hl : heldAt t (recordsPath dir) = some log)
    (hm : t.get? (p ++ [manifestName]) ≠ some .directory) (mode : OpenMode) (pieces : List Bytes) (m : Manifest) :
    ∃ t₁ r notices t₂ u, RecordLog.openAt t (recordsPath dir) mode = .ok (t₁, r, notices)
      ∧ t₁.appendAll (recordsPath dir) pieces = .ok t₂ ∧ (⟨dir, m⟩ : SourceDir).save t₂ = (u, .ok ())
      ∧ Stored dir p (opened mode log ++ pieces.flatten) (Utf8.ofString m.text) t u := by
  have hne : p ++ [manifestName] ≠ p ++ [recordsName] := by simp [manifestName, recordsName]
  have hd := hf.not_directory isName_recordsName hl
  obtain ⟨t₁, r, notices, hopen, hr₁⟩ := hf.openAt_eq isName_recordsName hl mode
  have hw₁ := hr₁.within hd
  have hf₁ := hf.grown hw₁.grown
  obtain ⟨t₂, hwrite, hr₂⟩ := hf₁.appendAll_eq isName_recordsName hr₁.file pieces
  have hw₂ := hw₁.trans (hf₁.within_appendAll isName_recordsName hwrite)
  have hm₂ : t₂.get? (p ++ [manifestName]) ≠ some .directory := fun h => hm ((hw₂.directory _).1 h)
  obtain ⟨u, hsave, hr⟩ := SourceDir.save_ok (s := ⟨dir, m⟩) (hf.grown hw₂.grown) hm₂
  refine ⟨t₁, r, notices, t₂, u, hopen, hwrite, hsave, hw₂.trans (hr.within hm₂), ?_, hr.file, fun q hq hq' => ?_⟩
  · rw [hr.other _ hne.symm, hr₂.file]
  · rw [hr.other q hq', hr₂.other q hq, hr₁.other q hq]

/-- What can be described is the source in a directory whose log is no directory. -/
theorem Describes.exists_log (h : v.Describes dir t u) : ∃ q c log, t.Folder dir q
    ∧ t.get? (q ++ [manifestName]) = some (.file c) ∧ heldAt t (recordsPath dir) = some log := by
  cases h with
  | done hload hskip hopen =>
    obtain ⟨q, c, -, hf, hc⟩ := SourceDir.folder_of_load hload
    obtain ⟨b, hb⟩ := hf.write_of_openAt isName_recordsName hopen
    obtain ⟨log, hl⟩ := hf.exists_heldAt isName_recordsName (hf.replaced_of_write isName_recordsName hb).1
    exact ⟨q, c, log, hf, hc, hl⟩

/-- To describe a source gives its log the lines of the session and its manifest the marks, and changes nothing
else. -/
theorem Describes.stored (h : v.Describes dir t u) : ∃ q log m, t.Folder dir q ∧ heldAt t (recordsPath dir) = some log
    ∧ v.state.account.catalog = .source ⟨dir, m⟩ ∧ Stored dir q (v.after log) (Utf8.ofString m.text) t u := by
  obtain ⟨q, c, log, hf, hc, hl⟩ := h.exists_log
  cases h with
  | @done s _ _ _ _ _ _ _ pieces hload hskip hopen hrun hend hpieces hwrite hsave =>
    obtain ⟨m, hcat⟩ := catalog_of_history hrun
    obtain ⟨-, -, hdir, -⟩ := SourceDir.folder_of_load hload
    rw [hdir] at hcat
    have hm : t.get? (q ++ [manifestName]) ≠ some .directory := by simp [hc]
    obtain ⟨t₁, r, _, t₂, u', hopen', hwrite', hsave', hstored⟩ := exists_steps hf hl hm v.mode pieces m
    obtain ⟨rfl, -⟩ := Prod.mk.inj (Except.ok.inj (hopen.symm.trans hopen'))
    obtain rfl := Except.ok.inj (hwrite.symm.trans hwrite')
    rw [hcat] at hsave
    obtain ⟨rfl, -⟩ := Prod.mk.inj (hsave.symm.trans hsave')
    rw [hpieces] at hstored
    exact ⟨q, log, m, hf, hl, hcat, hstored⟩

/-- A source cannot be described: it cannot be loaded, or its log cannot be scanned, opened, added to or closed, or
the marks cannot be stored. By then its log may have been added to, and a file may lie beside the manifest. -/
inductive Fails (mode : OpenMode) (dir : String) (t : FileTree) : FileTree → Prop
  | loading {f : CatalogFault} (hload : SourceDir.load t dir = .error f) : Fails mode dir t t
  | scanning {s : SourceDir} {f : SetupFault} (hload : SourceDir.load t dir = .ok s)
    (hskip : Command.skipSetFor t (recordsPath dir) mode = .error f) : Fails mode dir t t
  | opening {s : SourceDir} {u : FileTree} (hload : SourceDir.load t dir = .ok s)
    (hopen : u = t ∨ ∃ b, t.write (recordsPath dir) b = .ok u) : Fails mode dir t u
  | closing {s : SourceDir} {t₁ u : FileTree} {log : RecordLog} {notices : List String} {pieces : List Bytes}
    (hload : SourceDir.load t dir = .ok s)
    (hopen : RecordLog.openAt t (recordsPath dir) mode = .ok (t₁, log, notices))
    (hwrite : t₁.appendAll (recordsPath dir) pieces = .ok u) : Fails mode dir t u
  | saving {s : SourceDir} {t₁ t₂ t₃ u : FileTree} {log : RecordLog} {notices : List String} {pieces : List Bytes}
    {n : String} {b : Bytes} (hload : SourceDir.load t dir = .ok s)
    (hopen : RecordLog.openAt t (recordsPath dir) mode = .ok (t₁, log, notices))
    (hwrite : t₁.appendAll (recordsPath dir) pieces = .ok t₂) (hn : Path.IsName n)
    (hbeside : t₂.write (Path.join dir n) b = .ok t₃)
    (hsave : u = t₂ ∨ u = t₃ ∨ ∃ q, t₃.place (Path.join dir n) = .ok q ∧ u = t₃.remove q) : Fails mode dir t u

/-- A source that cannot be described is not changed outside its directory. -/
theorem Fails.within {mode : OpenMode} (h : Fails mode dir t u) (hf : t.Folder dir p) : Within p t u := by
  have hopened : ∀ {t₁ log notices}, RecordLog.openAt t (recordsPath dir) mode = .ok (t₁, log, notices) →
      Within p t t₁ := fun ho => by
    obtain ⟨b, hb⟩ := hf.write_of_openAt isName_recordsName ho
    exact hf.within_write isName_recordsName hb
  cases h with
  | loading => exact .refl p t
  | scanning => exact .refl p t
  | opening _ hopen =>
    rcases hopen with rfl | ⟨b, hb⟩
    · exact .refl p _
    · exact hf.within_write isName_recordsName hb
  | closing _ hopen hwrite =>
    have h₁ := hopened hopen
    exact h₁.trans ((hf.grown h₁.grown).within_appendAll isName_recordsName hwrite)
  | saving _ hopen hwrite hn hbeside hsave =>
    have h₁ := hopened hopen
    have h₂ := h₁.trans ((hf.grown h₁.grown).within_appendAll isName_recordsName hwrite)
    have hf₂ := hf.grown h₂.grown
    obtain ⟨hd, hr⟩ := hf₂.replaced_of_write hn hbeside
    have h₃ := h₂.trans (hr.within hd)
    rcases hsave with rfl | rfl | ⟨q, hq, rfl⟩
    · exact h₂
    · exact h₃
    · obtain rfl := Except.ok.inj (((hf.grown h₃.grown).leads_to hn).symm.trans hq)
      refine h₃.trans (FileTree.within_remove ?_)
      rw [hr.file]
      simp

end Session

end Captioning
