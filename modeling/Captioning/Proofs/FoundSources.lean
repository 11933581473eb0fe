import Captioning.Command.Run
import Captioning.Proofs.DirectoryPlaces
import Mathlib.Data.List.Nodup
import Mathlib.Data.List.Sort
import Mathlib.Data.String.Basic
/-!
# Sources below a root

The sources that are found below a root are the directories in it that are wanted, each once, in the order of their
names (`Command.findSources_eq_ok`). They are different directories, and so no file of one is a file of another
(`Found.separate`).
-/

namespace Captioning

open Captioning.Path (IsName join directory)

namespace FileTree

variable {t : FileTree} {dir dir' n : String} {p q : Place}

/-! ## Regular trees -/

/-- A tree as a file system has it: each place has one entry, and leads there by names. -/
structure Regular (t : FileTree) : Prop where
  distinct : (t.entries.map Prod.fst).Nodup
  names : ∀ e ∈ t.entries, ∀ n ∈ e.1, IsName n

/-- The last name of a place in a directory. -/
def nameIn? (p q : Place) : Option String :=
  if q.dropLast == p && !q.isEmpty then q.getLast? else none

theorem nameIn?_eq_some : nameIn? p q = some n ↔ q = p ++ [n] := by
  unfold nameIn?
  constructor
  · intro h
    split at h
    · next hq =>
      obtain ⟨hd, -⟩ : q.dropLast = p ∧ q ≠ [] := by simpa using hq
      rw [← hd, List.dropLast_append_getLast? n h]
    · cases h
  · rintro rfl
    simp

theorem children_eq (t : FileTree) (p : Place) : t.children p = (t.entries.map Prod.fst).filterMap (nameIn? p) := by
  rw [List.filterMap_map]
  rfl

/-- No name is in a directory twice. -/
theorem Regular.nodup_children (h : t.Regular) (p : Place) : (t.children p).Nodup := by
  rw [children_eq]
  refine h.distinct.filterMap fun q q' n hq hq' => ?_
  rw [nameIn?_eq_some.1 hq, nameIn?_eq_some.1 hq']

theorem Regular.isName (h : t.Regular) (hn : n ∈ t.children p) : IsName n := by
  rw [children_eq] at hn
  obtain ⟨q, hq, hqn⟩ := List.mem_filterMap.1 hn
  obtain ⟨e, he, rfl⟩ := List.mem_map.1 hq
  refine h.names e he n ?_
  rw [nameIn?_eq_some.1 hqn]
  exact List.mem_append_right p List.mem_cons_self

/-! ## Directories apart from each other -/

/-- No file of one directory is another directory, or below it. -/
def Apart (t : FileTree) (dir dir' : String) : Prop :=
  ∀ p q, t.Folder dir p → t.Folder dir' q → ∀ n, ¬ q <+: p ++ [n]

theorem not_prefix_sibling {m : String} (hne : n ≠ m) (r : Place) (k : String) : ¬ r ++ [m] <+: r ++ [n] ++ [k] := by
  rw [List.append_assoc, List.prefix_append_right_inj]
  intro h
  rw [List.singleton_append, List.cons_prefix_cons] at h
  exact hne h.1.symm

/-- A path to a directory in another leads to its name there. -/
theorem folder_join (hn : IsName n) : t.Folder (join dir n) q ↔ ∃ p, t.Folder dir p ∧ q = p ++ [n]
    ∧ t.get? (p ++ [n]) = some .directory := by
  have hself : directory (join dir n) = join dir n := if_neg (by simp [hn.join_ne_empty dir])
  constructor
  · rintro ⟨hq, hd⟩
    rw [hself] at hq
    obtain ⟨p, hp, rfl⟩ := (place_join hn).1 hq
    exact ⟨p, hp, rfl, hd⟩
  · rintro ⟨p, hp, rfl, hd⟩
    exact ⟨by rw [hself]; exact hp.leads_to hn, hd⟩

/-- Directories of different names in one directory are apart. -/
theorem apart_join {m : String} (hn : IsName n) (hm : IsName m) (hne : n ≠ m) :
    Apart t (join dir n) (join dir m) := by
  intro p q hp hq k
  obtain ⟨r, hr, rfl, -⟩ := (folder_join hn).1 hp
  obtain ⟨r', hr', rfl, -⟩ := (folder_join hm).1 hq
  obtain rfl := hr.unique hr'
  exact not_prefix_sibling hne _ k

/-- Directories that are all there, and apart from each other. -/
structure Separate (t : FileTree) (dirs : List String) : Prop where
  folder : ∀ dir ∈ dirs, ∃ p, t.Folder dir p
  apart : dirs.Pairwise fun a b => Apart t a b ∧ Apart t b a

end FileTree

/-! ## Finding sources -/

open SourceDir (isWanted)

/-- The sources that are found below a root: those that are wanted, each once and sorted by name. -/
structure Found (t : FileTree) (root : String) (only : Option String) (r : Place) (names dirs : List String) :
    Prop where
  named : root ≠ ""
  below : t.Folder root r
  paths : dirs = names.map (join root)
  sorted : names.Pairwise (· < ·)
  wanted : ∀ n, n ∈ names ↔ n ∈ t.children r ∧ isWanted t root only n = true

namespace Found

variable {t : FileTree} {root : String} {only : Option String} {r : Place} {names dirs : List String}

theorem isName (h : Found t root only r names dirs) (ht : t.Regular) {n : String} (hn : n ∈ names) : IsName n :=
  ht.isName ((h.wanted n).1 hn).1

/-- Each of the sources is a directory. -/
theorem folder (h : Found t root only r names dirs) (ht : t.Regular) {n : String} (hn : n ∈ names) :
    t.Folder (join root n) (r ++ [n]) := by
  have hname := h.isName ht hn
  refine (FileTree.folder_join hname).2 ⟨r, h.below, rfl, ?_⟩
  have hw := ((h.wanted n).1 hn).2
  unfold isWanted at hw
  have hd : t.isDirectory (join root n) = true := by
    simp only [Bool.and_eq_true] at hw
    exact hw.1.1.1
  unfold FileTree.isDirectory at hd
  rw [h.below.look hname] at hd
  cases hg : t.get? (r ++ [n]) with
  | none => simp [hg] at hd
  | some node =>
    cases node with
    | file c => simp [hg] at hd
    | directory => rfl

/-- No file of one source is a file of another. -/
theorem separate (h : Found t root only r names dirs) (ht : t.Regular) : t.Separate dirs where
  folder := by
    intro dir hd
    rw [h.paths] at hd
    obtain ⟨n, hn, rfl⟩ := List.mem_map.1 hd
    exact ⟨_, h.folder ht hn⟩
  apart := by
    rw [h.paths, List.pairwise_map]
    refine h.sorted.imp_of_mem fun hn hm hlt => ?_
    have hne := ne_of_lt hlt
    exact ⟨FileTree.apart_join (h.isName ht hn) (h.isName ht hm) hne,
      FileTree.apart_join (h.isName ht hm) (h.isName ht hn) hne.symm⟩

end Found

namespace Command

variable {t : FileTree} {root : String} {only : Option String} {dirs : List String}

theorem choose_eq (t : FileTree) (root : String) (only : Option String) (ns : List String) :
    SourceDir.choose t root only (ns.map Except.ok)
      = .ok (((ns.filter (isWanted t root only)).mergeSort fun a b => decide (a ≤ b)).map (join root)) := by
  have hall : (ns.map (Except.ok : String → Except FileFault String)).mapM id = .ok ns := by
    induction ns with
    | nil => rfl
    | cons n ns ih =>
      rw [List.map_cons, List.mapM_cons, ih]
      rfl
  unfold SourceDir.choose
  rw [hall]
  rfl

/-- Sorted names that are all different are in strict order. -/
theorem sorted_mergeSort {ns : List String} (h : ns.Nodup) :
    (ns.mergeSort fun a b => decide (a ≤ b)).Pairwise (· < ·) := by
  have hle : (ns.mergeSort fun a b => decide (a ≤ b)).Pairwise (· ≤ ·) := List.pairwise_mergeSort' (· ≤ ·) ns
  have hnodup := (List.mergeSort_perm ns fun a b => decide (a ≤ b)).nodup_iff.2 h
  exact (hle.and hnodup).imp fun h => lt_of_le_of_ne h.1 h.2

/-- The sources that a command finds. -/
theorem findSources_eq_ok (ht : t.Regular) (h : findSources t root only = .ok dirs) :
    ∃ r names, Found t root only r names dirs := by
  obtain ⟨found, hfind, h⟩ := bind_eq_ok.1 h
  have hsome : dirs = found ∧ dirs ≠ [] := by
    dsimp only at h
    split at h
    · cases h
    · next hne =>
      obtain rfl := Except.ok.inj h
      exact ⟨rfl, by simpa using hne⟩
  obtain ⟨rfl, hne⟩ := hsome
  replace hfind : SourceDir.find t root only = .ok dirs := by
    cases hf : SourceDir.find t root only with
    | error f => simp [hf, Except.mapError] at hfind
    | ok ds =>
      rw [hf] at hfind
      exact congrArg Except.ok (Except.ok.inj hfind)
  unfold SourceDir.find at hfind
  split at hfind
  · split at hfind
    · exact absurd (Except.ok.inj hfind).symm hne
    · cases hfind
  · next ns hlist =>
    rw [choose_eq] at hfind
    obtain ⟨r, hr, hlist⟩ := bind_eq_ok.1 hlist
    have hnamed : root ≠ "" := by simpa using (FileTree.place_eq_ok.1 hr).1
    split at hlist
    · next hd =>
      obtain rfl := Except.ok.inj hlist
      have hroot : t.Folder root r := ⟨by rwa [directory, if_neg (by simpa using hnamed)], hd⟩
      refine ⟨r, _, hnamed, hroot, (Except.ok.inj hfind).symm, sorted_mergeSort ((ht.nodup_children r).filter _), ?_⟩
      intro n
      rw [List.mem_mergeSort, List.mem_filter]
    · cases hlist
    · cases hlist

/-- The names of a directory that are wanted, in order, are the sources that a command finds. -/
theorem findSources_of_found {r : Place} {names : List String} (h : Found t root only r names dirs) (ht : t.Regular)
    (hne : dirs ≠ []) : findSources t root only = .ok dirs := by
  have hlist : t.list root = .ok (t.children r) := by
    have := h.below.list
    rwa [directory, if_neg (by simpa using h.named)] at this
  have hnodup := (ht.nodup_children r).filter (isWanted t root only)
  have hnames : ((t.children r).filter (isWanted t root only)).mergeSort (fun a b => decide (a ≤ b)) = names := by
    refine (sorted_mergeSort hnodup).eq_of_mem_iff h.sorted fun n => ?_
    rw [List.mem_mergeSort, List.mem_filter, h.wanted]
  have hfind : SourceDir.find t root only = .ok dirs := by
    unfold SourceDir.find
    rw [hlist]
    dsimp only
    rw [choose_eq, hnames, h.paths]
  unfold findSources
  rw [hfind]
  simp [bind, Except.bind, pure, Except.pure, Except.mapError, hne]

end Command

end Captioning
