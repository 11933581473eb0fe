import Captioning.Proofs.DirectoryPlaces
/-!
# Manifests replaced at once

A manifest is written to another file, piece by piece, which then takes its place. Between two of these changes the tree
is that of the start with the other file in it, and `Ahead` tells which changes are left to be made. Each change that is
made leads on (`Ahead.step`), so after any number of them the manifest is the old one or, behind the last, the new one
(`Ahead.run`), and without the other file the tree is the old one again. This holds for every disk (`save_atomic`); on a
sound one a source in a directory is saved unless its manifest is a directory itself (`save_ok`).
-/

namespace Captioning

namespace FileTree

open Captioning.Path (IsName join)

variable {t u : FileTree} {dir n m : String} {p : Place} {text : Bytes}

/-! ## A file beside another -/

theorem get?_put_name (t : FileTree) (p : Place) (n : String) (node : Node) :
    (t.put (p ++ [n]) node).get? (p ++ [n]) = some node :=
  get?_put_same (by simp) node

/-- What was put at a name in a directory is read there. -/
theorem Folder.read_put (h : t.Folder dir p) (hn : IsName n) (hd : t.get? (p ++ [n]) ≠ some .directory) (b : Bytes) :
    (t.put (p ++ [n]) (.file b)).read (join dir n) = .ok b :=
  (h.grown (grown_put_file hd b)).read_file hn (get?_put_name ..)

/-- A file in a directory that is to be replaced, and a free name beside it. -/
structure Beside (t : FileTree) (dir : String) (p : Place) (n m : String) : Prop where
  folder : t.Folder dir p
  name : IsName n
  target : IsName m
  ne : n ≠ m
  free : t.get? (p ++ [n]) = none

namespace Beside

theorem target_ne (h : t.Beside dir p n m) : p ++ [m] ≠ p ++ [n] := by
  simpa using h.ne.symm

theorem folder_put (h : t.Beside dir p n m) (c : Bytes) : (t.put (p ++ [n]) (.file c)).Folder dir p :=
  h.folder.grown (grown_put_file (by simp [h.free]) c)

theorem create (h : t.Beside dir p n m) :
    Change.apply t (.create (join dir n)) = .ok (t.put (p ++ [n]) (.file [])) := by
  have hno : t.holds (join dir n) = false := by
    rw [holds, h.folder.look h.name, h.free]
    rfl
  rw [Change.apply, hno, if_neg Bool.false_ne_true]
  exact h.folder.write h.name (by simp [h.free]) []

theorem extend (h : t.Beside dir p n m) (c b : Bytes) :
    Change.apply (t.put (p ++ [n]) (.file c)) (.extend (join dir n) b) = .ok (t.put (p ++ [n]) (.file (c ++ b))) := by
  rw [Change.apply, FileTree.append, (h.folder_put c).look h.name, get?_put_name]
  dsimp only
  rw [(h.folder_put c).write h.name (by simp [get?_put_name]), put_put]

/-- What a file that takes the place of another leaves: the tree of the start, with its contents there. -/
theorem rename (h : t.Beside dir p n m) (hm : t.get? (p ++ [m]) ≠ some .directory) (c : Bytes) :
    Change.apply (t.put (p ++ [n]) (.file c)) (.rename (join dir n) (join dir m))
      = .ok (t.put (p ++ [m]) (.file c)) := by
  have hm' : (t.put (p ++ [n]) (.file c)).get? (p ++ [m]) ≠ some .directory := by rwa [get?_put_other h.target_ne]
  have hf := (h.folder_put c).grown (grown_put_file hm' c)
  have hsame : ((((t.put (p ++ [n]) (.file c)).put (p ++ [m]) (.file c)).place (join dir m)).toOption
      == some (p ++ [n])) = false := by
    rw [hf.leads_to h.target]
    show (some (p ++ [m]) == some (p ++ [n])) = false
    simpa using h.ne.symm
  simp only [Change.apply, FileTree.rename, (h.folder_put c).leads_to h.name,
    (h.folder_put c).read_file h.name (get?_put_name ..), (h.folder_put c).write h.target hm', bind, Except.bind, pure,
    Except.pure]
  rw [hsame, if_neg Bool.false_ne_true, remove_put_other h.target_ne, remove_put h.free]

theorem rename_onto_directory (h : t.Beside dir p n m) (hm : t.get? (p ++ [m]) = some .directory) (c : Bytes) :
    Change.apply (t.put (p ++ [n]) (.file c)) (.rename (join dir n) (join dir m)) = .error .isDirectory := by
  have hm' : (t.put (p ++ [n]) (.file c)).get? (p ++ [m]) = some .directory := by rwa [get?_put_other h.target_ne]
  have hwrite : (t.put (p ++ [n]) (.file c)).write (join dir m) c = .error .isDirectory := by
    simp [FileTree.write, (h.folder_put c).leads_to h.target, hm', bind, Except.bind]
  simp only [Change.apply, FileTree.rename, (h.folder_put c).leads_to h.name,
    (h.folder_put c).read_file h.name (get?_put_name ..), hwrite, bind, Except.bind]

/-- While the other file is written the one to be replaced is read as before. -/
theorem read_target (h : t.Beside dir p n m) (c : Bytes) :
    (t.put (p ++ [n]) (.file c)).read (join dir m) = t.read (join dir m) := by
  rw [FileTree.read, FileTree.read, (h.folder_put c).look h.target, h.folder.look h.target, get?_put_other h.target_ne]

end Beside

/-! ## On the way to the new text -/

/-- What is left to be done at a tree so that the file at `m` has a new text: everything; the other pieces of the text,
which a file at `n` holds in part; to move that file; or nothing. -/
inductive Ahead (t : FileTree) (dir : String) (p : Place) (n m : String) (text : Bytes) : FileTree → List Change → Prop
  | start {pieces : List Bytes} (h : pieces.flatten = text) :
    Ahead t dir p n m text t (SourceDir.replacement (join dir n) (join dir m) pieces)
  | writing {c : Bytes} {pieces : List Bytes} (h : c ++ pieces.flatten = text) :
    Ahead t dir p n m text (t.put (p ++ [n]) (.file c))
      (pieces.map (.extend (join dir n)) ++ [.sync (join dir n), .rename (join dir n) (join dir m)])
  | synced :
    Ahead t dir p n m text (t.put (p ++ [n]) (.file text)) [.rename (join dir n) (join dir m)]
  | done (h : t.get? (p ++ [m]) ≠ some .directory) :
    Ahead t dir p n m text (t.put (p ++ [m]) (.file text)) []

namespace Ahead

variable {c : Change} {cs front rest : List Change} {refuses : Nat → Option FileFault}

/-- The next change leads on. Only the last one can fail, and only where there is a directory. -/
theorem step (hb : t.Beside dir p n m) (h : Ahead t dir p n m text u (c :: cs)) :
    (∃ v, c.apply u = .ok v ∧ Ahead t dir p n m text v cs)
      ∨ t.get? (p ++ [m]) = some .directory ∧ c.apply u = .error .isDirectory ∧ cs = [] := by
  -- what is left is no pattern while the pieces are open, so it is told apart by an equation
  generalize hcs : c :: cs = all at h
  cases h with
  | start h =>
    obtain ⟨rfl, rfl⟩ := List.cons.inj hcs
    exact .inl ⟨_, hb.create, .writing h⟩
  | @writing content pieces h =>
    cases pieces with
    | nil =>
      obtain ⟨rfl, rfl⟩ := List.cons.inj hcs
      obtain rfl : content = text := by simpa using h
      exact .inl ⟨_, rfl, .synced⟩
    | cons piece pieces =>
      obtain ⟨rfl, rfl⟩ := List.cons.inj hcs
      exact .inl ⟨_, hb.extend content piece, .writing (by simpa using h)⟩
  | synced =>
    obtain ⟨rfl, rfl⟩ := List.cons.inj hcs
    by_cases hm : t.get? (p ++ [m]) = some .directory
    · exact .inr ⟨hm, hb.rename_onto_directory hm text, rfl⟩
    · exact .inl ⟨_, hb.rename hm text, .done hm⟩
  | done => cases hcs

/-- The tree on the way: that of the start, perhaps with another file, or the one with the new text. -/
theorem tree (h : Ahead t dir p n m text u cs) :
    cs ≠ [] ∧ (u = t ∨ ∃ c, u = t.put (p ++ [n]) (.file c))
      ∨ cs = [] ∧ t.get? (p ++ [m]) ≠ some .directory ∧ u = t.put (p ++ [m]) (.file text) := by
  cases h with
  | start => exact .inl ⟨by simp [SourceDir.replacement], .inl rfl⟩
  | writing => exact .inl ⟨by simp, .inr ⟨_, rfl⟩⟩
  | synced => exact .inl ⟨by simp, .inr ⟨_, rfl⟩⟩
  | done hm => exact .inr ⟨rfl, hm, rfl⟩

/-- However far a disk gets, the tree is one on the way, and nothing has failed exactly if it got to the end. -/
theorem run (hb : t.Beside dir p n m) (refuses : Nat → Option FileFault)
    (h : Ahead t dir p n m text u (front ++ rest)) :
    ∃ left, Ahead t dir p n m text (u.performOn refuses front).1 (left ++ rest)
      ∧ ((u.performOn refuses front).2 = none ↔ left = []) := by
  induction front generalizing u refuses with
  | nil => exact ⟨[], h, by simp⟩
  | cons c front ih =>
    -- a change that is refused or fails is left, and so is what comes behind it
    cases hr : refuses 0 with
    | some f => exact ⟨c :: front, by simpa [performOn, hr] using h, by simp [performOn, hr]⟩
    | none =>
      rcases h.step hb with ⟨v, hv, hnext⟩ | ⟨-, hfault, -⟩
      · simpa [performOn, hr, hv] using ih (fun k => refuses (k + 1)) hnext
      · exact ⟨c :: front, by simpa [performOn, hr, hfault] using h, by simp [performOn, hr, hfault]⟩

/-- All that is left is made, or something failed and there may be another file. -/
theorem performed (hb : t.Beside dir p n m) (refuses : Nat → Option FileFault) (h : Ahead t dir p n m text u cs) :
    (∃ v f, u.performOn refuses cs = (v, some f) ∧ (v = t ∨ ∃ c, v = t.put (p ++ [n]) (.file c)))
      ∨ t.get? (p ++ [m]) ≠ some .directory
        ∧ u.performOn refuses cs = (t.put (p ++ [m]) (.file text), none) := by
  rw [← List.append_nil cs] at h
  obtain ⟨left, hleft, hnone⟩ := h.run hb refuses
  rw [List.append_nil] at hleft
  generalize u.performOn refuses cs = made at hleft hnone
  obtain ⟨v, _ | f⟩ := made
  · rcases hleft.tree with ⟨hne, -⟩ | ⟨-, hm, rfl⟩
    · exact absurd (hnone.1 rfl) hne
    · exact .inr ⟨hm, rfl⟩
  · rcases hleft.tree with ⟨-, hv⟩ | ⟨hnil, -⟩
    · exact .inl ⟨v, f, rfl, hv⟩
    · cases hnone.2 hnil

/-- A disk that refuses nothing of what is left gets to the end, unless it finds a directory there. -/
theorem performed_iff (hb : t.Beside dir p n m) (h : Ahead t dir p n m text u cs)
    (hr : ∀ k < cs.length, refuses k = none) :
    (u.performOn refuses cs).2 = none ↔ t.get? (p ++ [m]) ≠ some .directory := by
  induction cs generalizing u refuses with
  | nil =>
    rcases h.tree with ⟨hne, -⟩ | ⟨-, hm, -⟩
    · exact absurd rfl hne
    · simpa using hm
  | cons c cs ih =>
    have h0 : refuses 0 = none := hr 0 (Nat.succ_pos _)
    rcases h.step hb with ⟨v, hv, hnext⟩ | ⟨hm, hfault, -⟩
    · simpa [performOn, h0, hv] using ih hnext fun k hk => hr (k + 1) (Nat.succ_lt_succ hk)
    · simp [performOn, h0, hfault, hm]

/-- The first change that is refused is the one that fails. -/
theorem performed_of_refused {k : Nat} {f : FileFault} (hb : t.Beside dir p n m) (h : Ahead t dir p n m text u cs)
    (hk : k < cs.length) (hf : refuses k = some f) (hr : ∀ j < k, refuses j = none) :
    (u.performOn refuses cs).2 = some f := by
  induction cs generalizing u refuses k with
  | nil => cases hk
  | cons c cs ih =>
    cases k with
    | zero => simp [performOn, hf]
    | succ k =>
      have hk : k < cs.length := Nat.lt_of_succ_lt_succ hk
      have h0 : refuses 0 = none := hr 0 (Nat.succ_pos k)
      rcases h.step hb with ⟨v, hv, hnext⟩ | ⟨-, -, rfl⟩
      · simpa [performOn, h0, hv] using ih hnext hk hf fun j hj => hr (j + 1) (Nat.succ_lt_succ hj)
      · cases hk

end Ahead

end FileTree

namespace SourceDir

open Captioning.Path (IsName join directory)
open FileTree (Ahead Beside Folder Replaced performOn)

variable {t : FileTree} {s : SourceDir} {p : Place}

/-! ## Saving a source -/

theorem numberedName_ne_manifestName (n : Nat) : numberedName n ≠ manifestName := by
  have hhead : (numberedName n).toList.head? = some '.' := by
    simp [toList_numberedName]
  have hhead' : manifestName.toList.head? = some 'm' := by decide
  intro e
  rw [e, hhead'] at hhead
  cases hhead

/-- The fresh name in a directory is beside the manifest. -/
theorem beside_manifest (h : t.Folder s.dir p) : t.Beside s.dir p (freshName t s.dir) manifestName := by
  obtain ⟨n, hfresh, hfree⟩ := exists_freshName h
  rw [hfresh]
  exact ⟨h, isName_numberedName n, isName_manifestName, numberedName_ne_manifestName n,
    FileTree.get?_concat_eq_none hfree⟩

theorem ahead_savingChanges (disk : Disk) (t : FileTree) (s : SourceDir) (p : Place) :
    Ahead t s.dir p (freshName t s.dir) manifestName (Utf8.ofString s.manifest.text) t (s.savingChanges disk t) :=
  .start (disk.flatten_pieces _)

/-- To save a source in a directory puts the new manifest there, or fails and leaves everything as it was. -/
theorem saveOn_cases (disk : Disk) (h : t.Folder s.dir p) :
    (∃ f, (t.performOn disk.refuses (s.savingChanges disk t)).2 = some f
        ∧ s.saveOn disk t = (t, .error (.write (manifestPath s.dir) f)))
      ∨ (t.performOn disk.refuses (s.savingChanges disk t)).2 = none
        ∧ t.get? (p ++ [manifestName]) ≠ some .directory
        ∧ s.saveOn disk t = (t.put (p ++ [manifestName]) (.file (Utf8.ofString s.manifest.text)), .ok ()) := by
  have hb := beside_manifest h
  rcases (ahead_savingChanges disk t s p).performed hb disk.refuses with ⟨v, f, hp, hv⟩ | ⟨hm, hp⟩
  · refine .inl ⟨f, by rw [hp], ?_⟩
    have hdiscard : v.discard (s.temporaryPath t) = t := by
      rcases hv with rfl | ⟨c, rfl⟩
      · simp only [FileTree.discard, temporaryPath, hb.folder.leads_to hb.name]
        exact FileTree.remove_of_get?_eq_none hb.free
      · simp only [FileTree.discard, temporaryPath, (hb.folder_put c).leads_to hb.name]
        exact FileTree.remove_put hb.free _
    simp only [saveOn, hp, hdiscard]
  · exact .inr ⟨by rw [hp], hm, by rw [saveOn, hp]⟩

/-- Without its directory a source cannot be saved: the other file cannot be made. -/
theorem performOn_savingChanges_of_not_folder (disk : Disk) (h : ∀ p, ¬ t.Folder s.dir p) (k : Nat) :
    (t.performOn disk.refuses ((s.savingChanges disk t).take k)).1 = t
      ∧ ∃ f, t.performOn disk.refuses (s.savingChanges disk t) = (t, some f)
        ∧ ∃ g, t.place (s.temporaryPath t) = .error g := by
  have hlist : (t.list (directory s.dir)).toOption = none := by
    cases hl : t.list (directory s.dir) with
    | error f => rfl
    | ok names =>
      obtain ⟨p, hp, hd⟩ := bind_eq_ok.1 hl
      split at hd
      · next hg => exact absurd ⟨hp, hg⟩ (h p)
      · cases hd
      · cases hd
  have hfresh : freshName t s.dir = numberedName 0 := by
    simp [freshName, hlist, numberedName]
  obtain ⟨g, hg⟩ : ∃ g, t.place (s.temporaryPath t) = .error g := by
    cases hq : t.place (s.temporaryPath t) with
    | error g => exact ⟨g, rfl⟩
    | ok q =>
      rw [temporaryPath, hfresh] at hq
      obtain ⟨p, hp, -⟩ := (FileTree.place_join (isName_numberedName 0)).1 hq
      exact absurd hp (h p)
  have hcreate : FileTree.Change.apply t (.create (s.temporaryPath t)) = .error g := by
    simp [FileTree.Change.apply, FileTree.holds, FileTree.look, FileTree.write, hg, bind, Except.bind, Except.toOption]
  obtain ⟨f, hf⟩ : ∃ f, t.performOn disk.refuses (s.savingChanges disk t) = (t, some f) := by
    rw [savingChanges, replacement, performOn, hcreate]
    cases disk.refuses 0 with
    | some f => exact ⟨f, rfl⟩
    | none => exact ⟨g, rfl⟩
  refine ⟨?_, f, hf, g, hg⟩
  cases k with
  | zero => rfl
  | succ k =>
    rw [savingChanges, replacement, List.take_succ_cons, performOn, hcreate]
    cases disk.refuses 0 <;> rfl

/-- To save a source replaces its manifest, and nothing else. -/
theorem save_ok (h : t.Folder s.dir p) (hm : t.get? (p ++ [manifestName]) ≠ some .directory) :
    ∃ u, s.save t = (u, .ok ()) ∧ Replaced (p ++ [manifestName]) (Utf8.ofString s.manifest.text) t u := by
  have hnone : (t.performOn Disk.sound.refuses (s.savingChanges .sound t)).2 = none :=
    ((ahead_savingChanges .sound t s p).performed_iff (beside_manifest h) fun _ _ => rfl).2 hm
  rcases saveOn_cases .sound h with ⟨f, hf, -⟩ | ⟨-, -, hsave⟩
  · rw [hnone] at hf
    cases hf
  · exact ⟨_, hsave, FileTree.replaced_put hm _⟩

theorem saveOn_eq_ok_iff (disk : Disk) (h : t.Folder s.dir p) :
    (s.saveOn disk t).2 = .ok () ↔ t.get? (p ++ [manifestName]) ≠ some .directory
      ∧ ∀ n < (s.savingChanges disk t).length, disk.refuses n = none := by
  have hahead := ahead_savingChanges disk t s p
  rcases saveOn_cases disk h with ⟨f, hf, hsave⟩ | ⟨hnone, hm, hsave⟩
  · rw [hsave]
    refine ⟨fun he => (by cases he), fun ⟨hm, hr⟩ => ?_⟩
    rw [(hahead.performed_iff (beside_manifest h) hr).2 hm] at hf
    cases hf
  · rw [hsave]
    exact ⟨fun _ => ⟨hm, fun n hn => FileTree.refuses_of_performOn hnone hn⟩, fun _ => rfl⟩

/-- What is read where a save is stopped. -/
theorem read_stopped (disk : Disk) (h : t.Folder s.dir p) (k : Nat) :
    let u := (t.performOn disk.refuses ((s.savingChanges disk t).take k)).1
    u.read (manifestPath s.dir) = t.read (manifestPath s.dir)
      ∨ u.read (manifestPath s.dir) = .ok (Utf8.ofString s.manifest.text) := by
  have hb := beside_manifest h
  have hahead := ahead_savingChanges disk t s p
  rw [← List.take_append_drop k (s.savingChanges disk t)] at hahead
  obtain ⟨left, hleft, -⟩ := hahead.run hb disk.refuses
  rcases hleft.tree with ⟨-, hu | ⟨c, hu⟩⟩ | ⟨-, hm, hu⟩ <;> dsimp only <;> rw [hu]
  · exact .inl rfl
  · exact .inl (hb.read_target c)
  · exact .inr (h.read_put isName_manifestName hm _)

/-- A manifest is saved as a whole or not at all, in whatever pieces a disk takes it and whatever change it refuses.
Where that fails it says so, and no file is other than it was; else the new manifest is there, and nothing else has
changed. In a directory it is saved exactly if nothing is refused and it is no directory itself, and the first change
that is refused is the one that is told of. Wherever it is stopped, the manifest is read as it was before or as it is
to be. -/
theorem save_atomic (disk : Disk) (t : FileTree) (s : SourceDir) :
    ((∃ f, s.saveOn disk t = (t, .error (.write (manifestPath s.dir) f)))
      ∨ ∃ p, t.Folder s.dir p
        ∧ s.saveOn disk t = (t.put (p ++ [manifestName]) (.file (Utf8.ofString s.manifest.text)), .ok ())
        ∧ (s.saveOn disk t).1.read (manifestPath s.dir) = .ok (Utf8.ofString s.manifest.text))
    ∧ (∀ p, t.Folder s.dir p →
      ((s.saveOn disk t).2 = .ok () ↔ t.get? (p ++ [manifestName]) ≠ some .directory
        ∧ ∀ n < (s.savingChanges disk t).length, disk.refuses n = none)
      ∧ ∀ n < (s.savingChanges disk t).length, ∀ f, disk.refuses n = some f → (∀ k < n, disk.refuses k = none) →
        s.saveOn disk t = (t, .error (.write (manifestPath s.dir) f)))
    ∧ ∀ k, let u := (t.performOn disk.refuses ((s.savingChanges disk t).take k)).1
      u.read (manifestPath s.dir) = t.read (manifestPath s.dir)
        ∨ u.read (manifestPath s.dir) = .ok (Utf8.ofString s.manifest.text) := by
  refine ⟨?_, fun p h => ⟨saveOn_eq_ok_iff disk h, fun n hn f hf hr => ?_⟩, fun k => ?_⟩
  · by_cases h : ∃ p, t.Folder s.dir p
    · obtain ⟨p, h⟩ := h
      rcases saveOn_cases disk h with ⟨f, -, hsave⟩ | ⟨-, hm, hsave⟩
      · exact .inl ⟨f, hsave⟩
      · exact .inr ⟨p, h, hsave, hsave ▸ h.read_put isName_manifestName hm _⟩
    · obtain ⟨-, f, hp, g, hg⟩ := performOn_savingChanges_of_not_folder disk (not_exists.1 h) 0
      refine .inl ⟨f, ?_⟩
      simp only [saveOn, hp, FileTree.discard, hg]
  · have hfirst := (ahead_savingChanges disk t s p).performed_of_refused (beside_manifest h) hn hf hr
    rcases saveOn_cases disk h with ⟨g, hg, hsave⟩ | ⟨hnone, -⟩
    · rw [hsave, Option.some.inj (hfirst.symm.trans hg)]
    · rw [hnone] at hfirst
      cases hfirst
  · by_cases h : ∃ p, t.Folder s.dir p
    · exact read_stopped disk h.choose_spec k
    · obtain ⟨hu, -⟩ := performOn_savingChanges_of_not_folder disk (not_exists.1 h) k
      dsimp only
      exact .inl (by rw [hu])

namespace FullDisk

/-- A disk that takes one byte after another and has no room left for one of the changes. -/
def disk (n : Nat) : Disk where
  pieces b := b.map fun x => [x]
  flatten_pieces b := by simp [← List.flatMap_def]
  refuses k := if k = n then some (.system 28) else none

def tree : FileTree :=
  ⟨[], [(["a"], .directory), (["a", "manifest.json"], .file [])]⟩

def source : SourceDir :=
  ⟨"a", ⟨"s", [], []⟩⟩

/-- The last of 37 changes takes the new manifest to its place. -/
example : (source.saveOn (disk 36) tree).1 = tree
    ∧ (source.saveOn (disk 37) tree).1
      = tree.put ["a", "manifest.json"] (.file (Utf8.ofString source.manifest.text)) := by
  decide +kernel

end FullDisk

end SourceDir

end Captioning
