import Captioning.Proofs.FoundSources
/-!
# Sources in any listing

The names in a directory come in no order that could be relied on. The sources below a root are the same paths, in the
order of their names, whatever that order is: they are the directories that hold a manifest, carry the name that is
asked for and are not marked by an underscore (`SourceDir.sources_of_any_listing`). What a path leads to is read off the
places of the tree (`SourceDir.isWanted_iff`).
-/

namespace Captioning

open Captioning.Path (IsName join directory)

/-! ## The order of paths -/

namespace Path

/-- A path stands in front of another if its names do: the first of them that differ are compared. -/
def Before (a b : String) : Prop := names a.toList < names b.toList

instance (a b : String) : Decidable (Before a b) :=
  inferInstanceAs (Decidable (names a.toList < names b.toList))

/-- Names stand in a directory as they stand alone. -/
theorem IsName.before_join {n m : String} (hn : IsName n) (hm : IsName m) (dir : String) (h : n < m) :
    Before (join dir n) (join dir m) := by
  unfold Before
  rw [hn.names_join, hm.names_join]
  have hlast : [n.toList] < [m.toList] := List.Lex.rel (String.lt_iff_toList_lt.1 h)
  exact List.append_left_lt hlast

end Path

/-! ## What a path in a directory leads to -/

namespace FileTree

variable {t : FileTree} {dir n : String} {p : Place}

theorem Folder.isDirectory_join (h : t.Folder dir p) (hn : IsName n) :
    t.isDirectory (join dir n) = true ↔ t.get? (p ++ [n]) = some .directory := by
  unfold isDirectory
  rw [h.look hn]
  cases t.get? (p ++ [n]) with
  | none => simp
  | some node => cases node <;> simp

theorem Folder.isFile_join (h : t.Folder dir p) (hn : IsName n) :
    t.isFile (join dir n) = true ↔ ∃ b, t.get? (p ++ [n]) = some (.file b) := by
  unfold isFile
  rw [h.look hn]
  cases t.get? (p ++ [n]) with
  | none => simp
  | some node => cases node <;> simp

end FileTree

namespace SourceDir

open Captioning.Path (Before)

variable {t : FileTree} {root : String} {only : Option String} {r : Place} {n : String}

/-! ## Sources -/

/-- A source in the directory at a place: a directory with a manifest, whose name has no underscore in front and is the
one that is asked for, if one is. -/
structure IsSource (t : FileTree) (r : Place) (only : Option String) (n : String) : Prop where
  directory : t.get? (r ++ [n]) = some .directory
  unmarked : n.toList.head? ≠ some '_'
  asked : ∀ m ∈ only, n = m
  manifest : ∃ b, t.get? (r ++ [n, manifestName]) = some (.file b)

theorem startsWith_underscore {s : String} : s.startsWith "_" = true ↔ s.toList.head? = some '_' := by
  have hp : s.startsWith "_" = true ↔ ['_'] <+: s.toList := String.startsWith_string_iff
  rw [hp]
  cases s.toList with
  | nil => simp
  | cons c cs => simp [List.cons_prefix_cons, eq_comm]

/-- The wish for a name, if there is one, is met by that name alone. -/
theorem asked_iff : (match only with | some wanted => wanted == n | none => true) = true ↔ ∀ m ∈ only, n = m := by
  cases only with
  | none => simp
  | some wanted =>
    rw [beq_iff_eq]
    exact ⟨fun h m hm => h.symm.trans (Option.some.inj hm), fun h => (h wanted rfl).symm⟩

/-- The directories that are wanted are the sources. -/
theorem isWanted_iff (hr : t.Folder root r) (hn : IsName n) :
    isWanted t root only n = true ↔ IsSource t r only n := by
  have hplace : r ++ [n, manifestName] = r ++ [n] ++ [manifestName] := by simp
  have hmanifest (hd : t.get? (r ++ [n]) = some .directory) :
      t.isFile (manifestPath (join root n)) = true ↔ ∃ b, t.get? (r ++ [n, manifestName]) = some (.file b) := by
    rw [hplace]
    exact ((FileTree.folder_join hn).2 ⟨r, hr, rfl, hd⟩).isFile_join isName_manifestName
  unfold isWanted
  simp only [Bool.and_eq_true, Bool.not_eq_true', hr.isDirectory_join hn, ← Bool.not_eq_true, startsWith_underscore]
  constructor
  · rintro ⟨⟨⟨hd, hu⟩, ha⟩, hm⟩
    exact ⟨hd, hu, asked_iff.1 ha, (hmanifest hd).1 hm⟩
  · rintro ⟨hd, hu, ha, hm⟩
    exact ⟨⟨⟨hd, hu⟩, asked_iff.2 ha⟩, (hmanifest hd).2 hm⟩

/-! ## Listings -/

/-- The order of the names in a listing makes no difference. -/
theorem choose_perm (t : FileTree) (root : String) (only : Option String) {names listing : List String}
    (hnodup : names.Nodup) (h : listing.Perm names) :
    choose t root only (listing.map .ok) = choose t root only (names.map .ok) := by
  have hsorted {ns : List String} (hns : ns.Nodup) := Command.sorted_mergeSort (hns.filter (isWanted t root only))
  have heq : (listing.filter (isWanted t root only)).mergeSort (fun a b => decide (a ≤ b))
      = (names.filter (isWanted t root only)).mergeSort fun a b => decide (a ≤ b) := by
    refine (hsorted (h.nodup_iff.2 hnodup)).eq_of_mem_iff (hsorted hnodup) fun n => ?_
    simp only [List.mem_mergeSort, List.mem_filter, h.mem_iff]
  rw [Command.choose_eq, Command.choose_eq, heq]

/-- A name that cannot be listed spoils the listing. -/
theorem choose_unlisted (t : FileTree) (root : String) (only : Option String)
    {listing : List (Except FileFault String)} {f : FileFault} (h : .error f ∈ listing) :
    ∃ g, .error g ∈ listing ∧ choose t root only listing = .error (.read root g) := by
  have hspoilt : ∃ g, .error g ∈ listing ∧ listing.mapM id = .error g := by
    induction listing with
    | nil => cases h
    | cons entry listing ih =>
      cases entry with
      | error g => exact ⟨g, List.mem_cons_self, rfl⟩
      | ok n =>
        have htail : .error f ∈ listing := by simpa using h
        obtain ⟨g, hg, hm⟩ := ih htail
        refine ⟨g, List.mem_cons_of_mem _ hg, ?_⟩
        rw [List.mapM_cons, hm]
        rfl
  obtain ⟨g, hg, hm⟩ := hspoilt
  refine ⟨g, hg, ?_⟩
  unfold choose
  rw [hm]
  rfl

/-- The names in a directory that are chosen from a listing are the sources found below it. -/
theorem exists_found (ht : t.Regular) (hp : t.place root = .ok r) (hd : t.get? r = some .directory)
    (only : Option String) : ∃ names, choose t root only ((t.children r).map .ok) = .ok (names.map (join root))
      ∧ Found t root only r names (names.map (join root)) := by
  have hne : root ≠ "" := by simpa using (FileTree.place_eq_ok.1 hp).1
  have hroot : t.Folder root r := ⟨by rwa [directory, if_neg (by simpa using hne)], hd⟩
  have hsorted := Command.sorted_mergeSort ((ht.nodup_children r).filter (isWanted t root only))
  refine ⟨_, Command.choose_eq .., hne, hroot, rfl, hsorted, fun n => ?_⟩
  rw [List.mem_mergeSort, List.mem_filter]

/-- What is found in a directory: the sources in it, in order, whatever the order of the listing is. -/
theorem find_directory (ht : t.Regular) (hp : t.place root = .ok r) (hd : t.get? r = some .directory)
    (only : Option String) : ∃ dirs, find t root only = .ok dirs
      ∧ (∀ listing : List String, listing.Perm (t.children r) →
        findListed t root only (.ok (listing.map .ok)) = .ok dirs)
      ∧ dirs.Pairwise Before
      ∧ ∀ dir, dir ∈ dirs ↔ ∃ n ∈ t.children r, dir = join root n ∧ IsSource t r only n := by
  obtain ⟨names, hchoose, hfound⟩ := exists_found ht hp hd only
  have hlisted (listing : List String) (h : listing.Perm (t.children r)) :
      findListed t root only (.ok (listing.map .ok)) = .ok (names.map (join root)) :=
    (choose_perm t root only (ht.nodup_children r) h).trans hchoose
  have hfind : find t root only = .ok (names.map (join root)) := by
    have hlist : t.list root = .ok (t.children r) := by simp [FileTree.list, hp, hd, bind, Except.bind]
    rw [find_eq_findListed, hlist]
    exact hlisted _ (.refl _)
  refine ⟨_, hfind, hlisted, ?_, fun dir => ?_⟩
  · rw [List.pairwise_map]
    exact hfound.sorted.imp_of_mem fun hn hm hlt => (hfound.isName ht hn).before_join (hfound.isName ht hm) root hlt
  · rw [List.mem_map]
    constructor
    · rintro ⟨n, hn, rfl⟩
      obtain ⟨hmem, hw⟩ := (hfound.wanted n).1 hn
      exact ⟨n, hmem, rfl, (isWanted_iff hfound.below (ht.isName hmem)).1 hw⟩
    · rintro ⟨n, hmem, rfl, hs⟩
      exact ⟨n, (hfound.wanted n).2 ⟨hmem, (isWanted_iff hfound.below (ht.isName hmem)).2 hs⟩, rfl⟩

/-- There are no sources below a root that does not exist. -/
theorem find_absent (h : t.look root = .error .noEntry) (only : Option String) : find t root only = .ok [] := by
  have hlist : t.list root = .error .noEntry := by
    cases hp : t.place root with
    | error f =>
      simp only [FileTree.look, FileTree.list, hp, bind, Except.bind] at h ⊢
      rw [Except.error.inj h]
    | ok p =>
      cases hg : t.get? p with
      | none => simp [FileTree.list, hp, hg, bind, Except.bind]
      | some node => simp [FileTree.look, hp, hg, bind, Except.bind] at h
  rw [find_eq_findListed, hlist]
  rfl

/-- The sources below a root do not depend on the order in which its names are listed: they are the directories in it
that are sources, each once and in order. A root that does not exist has none, and a name that cannot be listed is a
fault of the whole listing. -/
theorem sources_of_any_listing (t : FileTree) (ht : t.Regular) (root : String) (only : Option String) :
    (∀ r, t.place root = .ok r → t.get? r = some .directory →
      ∃ dirs, find t root only = .ok dirs
        ∧ (∀ listing : List String, listing.Perm (t.children r) →
          findListed t root only (.ok (listing.map .ok)) = .ok dirs)
        ∧ dirs.Pairwise Before
        ∧ ∀ dir, dir ∈ dirs ↔ ∃ n ∈ t.children r, dir = join root n ∧ IsSource t r only n)
    ∧ (t.look root = .error .noEntry → find t root only = .ok [])
    ∧ ∀ listing f, .error f ∈ listing →
      ∃ g, .error g ∈ listing ∧ findListed t root only (.ok listing) = .error (.read root g) :=
  ⟨fun _ hp hd => find_directory ht hp hd only, fun h => find_absent h only,
    fun _ _ h => choose_unlisted t root only h⟩

namespace ListedTwice

/-- A directory with two sources, one that is marked, one without a manifest, one whose manifest is a directory, and a
file. -/
def tree : FileTree :=
  ⟨[], [(["s"], .directory), (["s", "b"], .directory), (["s", "b", "manifest.json"], .file []),
    (["s", "_t"], .directory), (["s", "_t", "manifest.json"], .file []), (["s", "e"], .directory),
    (["s", "d"], .directory), (["s", "d", "manifest.json"], .directory), (["s", "f"], .file []),
    (["s", "a"], .directory), (["s", "a", "manifest.json"], .file [])]⟩

theorem regular_tree : tree.Regular := ⟨by decide +kernel, by decide +kernel⟩

theorem place_tree : tree.place "s" = .ok ["s"] := eq_ok_of_toOption (by decide +kernel)

theorem absent_tree : tree.look "x" = .error .noEntry := by decide +kernel

theorem find_tree : find tree "s" none = .ok ["s/a", "s/b"] := by
  have hlist : tree.list "s" = .ok ["b", "_t", "e", "d", "f", "a"] := eq_ok_of_toOption (by decide +kernel)
  have hwanted : ["b", "_t", "e", "d", "f", "a"].filter (isWanted tree "s" none) = ["b", "a"] := by decide +kernel
  have hsorted : (["b", "a"].mergeSort fun a b => decide (a ≤ b)) = ["a", "b"] := by simp [List.mergeSort]
  unfold find
  rw [hlist]
  dsimp only
  rw [Command.choose_eq, hwanted, hsorted]
  exact congrArg Except.ok (by decide +kernel)

end ListedTwice

open ListedTwice in
/-- Two listings of one directory, in which the same sources are found, in the same order. -/
theorem sources_of_two_listings : tree.Regular
    ∧ findListed tree "s" none (.ok (["f", "a", "e", "b", "_t", "d"].map .ok)) = .ok ["s/a", "s/b"]
    ∧ findListed tree "s" none (.ok (["_t", "b", "d", "a", "e", "f"].map .ok)) = .ok ["s/a", "s/b"]
    ∧ findListed tree "s" none (.ok [.ok "a", .error .noEntry, .ok "b"]) = .error (.read "s" .noEntry)
    ∧ find tree "x" none = .ok [] := by
  obtain ⟨hdirectory, -, hunlisted⟩ := sources_of_any_listing tree regular_tree "s" none
  obtain ⟨dirs, hfind, hlisted, -⟩ := hdirectory ["s"] place_tree rfl
  obtain rfl : dirs = ["s/a", "s/b"] := Except.ok.inj (hfind.symm.trans find_tree)
  refine ⟨regular_tree, hlisted _ (by decide +kernel), hlisted _ (by decide +kernel), ?_,
    (sources_of_any_listing tree regular_tree "x" none).2.1 absent_tree⟩
  obtain ⟨g, hg, h⟩ := hunlisted [.ok "a", .error .noEntry, .ok "b"] .noEntry (by simp)
  obtain rfl : g = .noEntry := by simpa using hg
  exact h

end SourceDir

end Captioning
