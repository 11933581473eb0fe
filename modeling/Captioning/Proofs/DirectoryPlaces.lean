import Captioning.Catalog.Sources
import Captioning.Proofs.DecimalDigits
import Captioning.Proofs.LogFiles
/-!
# Files in a directory

A name joined to the path of a directory leads to that name in the place of the directory (`place_join`), and a file is
written there unless the name leads to a directory (`Folder.write`). What is in a directory is among its names
(`mem_children`), so a fresh name is free (`SourceDir.exists_freshName`).
-/

namespace Captioning

namespace Path

/-! ## Names -/

/-- A name that leads from a directory to something in it. -/
structure IsName (n : String) : Prop where
  noSlash : '/' ∉ n.toList
  ne_empty : n ≠ ""
  ne_dot : n ≠ "."
  ne_parent : n ≠ ".."

instance (n : String) : Decidable (IsName n) :=
  decidable_of_iff ('/' ∉ n.toList ∧ n ≠ "" ∧ n ≠ "." ∧ n ≠ "..")
    ⟨fun ⟨hs, he, hd, hp⟩ => ⟨hs, he, hd, hp⟩, fun h => ⟨h.noSlash, h.ne_empty, h.ne_dot, h.ne_parent⟩⟩

theorem names_append (s r : List Char) : names (s ++ '/' :: r) = names s ++ names r := by
  unfold names
  rw [List.splitOn_append_cons_self, List.filter_append]

theorem IsName.names_eq {n : String} (h : IsName n) : Path.names n.toList = [n.toList] := by
  have he : n.toList ≠ [] := fun e => h.ne_empty (String.toList_inj.1 e)
  have hd : n.toList ≠ ['.'] := fun e => h.ne_dot (String.toList_inj.1 e)
  rw [Path.names, List.splitOn_eq_singleton h.noSlash]
  simp [he, hd]

theorem startsWith_slash {s : String} : s.startsWith "/" = true ↔ ['/'] <+: s.toList :=
  String.startsWith_string_iff

theorem endsWith_slash {s : String} : s.endsWith "/" = true ↔ ['/'] <:+ s.toList := by
  rw [String.endsWith_eq_endsWith_toSlice, String.Slice.endsWith_string_iff]
  simp

theorem IsName.not_startsWith {n : String} (h : IsName n) : ¬ n.startsWith "/" = true := by
  intro hs
  exact h.noSlash ((startsWith_slash.1 hs).subset List.mem_cons_self)

/-- The characters of a name joined to a directory: either none is needed in front of it, or a slash stands there. -/
theorem IsName.join_cases {n : String} (h : IsName n) (dir : String) :
    dir = "" ∧ join dir n = n
      ∨ ∃ s, (join dir n).toList = s ++ '/' :: n.toList ∧ (dir.toList = s ∨ dir.toList = s ++ ['/']) ∧ dir ≠ "" := by
  unfold join
  rw [if_neg h.not_startsWith]
  by_cases he : dir = ""
  · subst he
    exact .inl ⟨rfl, by simp⟩
  · have hne : dir.isEmpty = false := by simpa using he
    refine .inr ?_
    by_cases hs : dir.endsWith "/" = true
    · obtain ⟨s, hd⟩ := endsWith_slash.1 hs
      exact ⟨s, by simp [hs, String.toList_append, ← hd], .inr hd.symm, he⟩
    · exact ⟨dir.toList, by simp [hne, hs, String.toList_append], .inl rfl, he⟩

theorem names_directory (dir : String) : names (directory dir).toList = names dir.toList := by
  unfold directory
  split
  · next h =>
    have he : dir = "" := by simpa using h
    subst he
    rfl
  · rfl

/-- The names of a path to something in a directory. -/
theorem IsName.names_join {n : String} (h : IsName n) (dir : String) :
    Path.names (join dir n).toList = Path.names (directory dir).toList ++ [n.toList] := by
  rw [names_directory]
  rcases h.join_cases dir with ⟨rfl, hj⟩ | ⟨s, hj, hd | hd, -⟩
  · rw [hj, h.names_eq]
    rfl
  · rw [hj, names_append, h.names_eq, hd]
  · rw [hj, names_append, h.names_eq, hd, names_append]
    simp [Path.names]

theorem IsName.startsWith_join {n : String} (h : IsName n) (dir : String) :
    (join dir n).startsWith "/" = (directory dir).startsWith "/" := by
  rw [Bool.eq_iff_iff, startsWith_slash, startsWith_slash]
  rcases h.join_cases dir with ⟨rfl, hj⟩ | ⟨s, hj, hd, hne⟩
  · rw [hj]
    refine ⟨fun hs => absurd (startsWith_slash.2 hs) h.not_startsWith, fun hs => ?_⟩
    exact absurd hs (by decide)
  · have hdir : directory dir = dir := if_neg (by simpa using hne)
    have hnil : dir.toList ≠ [] := fun e => hne (String.toList_inj.1 e)
    rw [hj, hdir]
    rcases hd with hd | hd
    · obtain ⟨c, s', rfl⟩ := List.exists_cons_of_ne_nil (hd ▸ hnil)
      simp [hd, List.cons_prefix_cons]
    · cases s with
      | nil => simp [hd]
      | cons c s => simp [hd, List.cons_prefix_cons]

theorem IsName.endsWith_join {n : String} (h : IsName n) (dir : String) : ¬ (join dir n).endsWith "/" = true := by
  intro hs
  have hlast : ∀ r, ¬ ['/'] <:+ r ++ n.toList := by
    rintro r ⟨u, hu⟩
    have hne : n.toList ≠ [] := fun e => h.ne_empty (String.toList_inj.1 e)
    have hl := congrArg List.getLast? hu
    rw [List.getLast?_append_of_ne_nil _ hne, List.getLast?_concat] at hl
    exact h.noSlash (List.mem_of_getLast? hl.symm)
  rcases h.join_cases dir with ⟨-, hj⟩ | ⟨s, hj, -⟩
  · rw [hj] at hs
    exact hlast [] (endsWith_slash.1 hs)
  · refine hlast (s ++ ['/']) ?_
    have hs := endsWith_slash.1 hs
    rw [hj] at hs
    simpa using hs

theorem directory_ne_empty (dir : String) : (directory dir).isEmpty = false := by
  unfold directory
  split
  · rfl
  · next h => simpa using h

theorem IsName.join_ne_empty {n : String} (h : IsName n) (dir : String) : (join dir n).isEmpty = false := by
  have hne : join dir n ≠ "" := by
    intro e
    have hn := h.names_join dir
    rw [e] at hn
    simp [Path.names] at hn
  simpa using hne

end Path

namespace FileTree

open Captioning.Path (IsName join directory)

variable {t u : FileTree} {dir n : String} {p q : Place}

/-! ## Places in a directory -/

theorem follow_concat (hn : n ≠ "..") (p : Place) (ns : List String) : t.follow p (ns ++ [n]) = .ok q
    ↔ ∃ r, t.follow p ns = .ok r ∧ t.get? r = some .directory ∧ q = r ++ [n] := by
  induction ns generalizing p with
  | nil =>
    simp only [List.nil_append, follow]
    cases hp : t.get? p with
    | none => simp [hp]
    | some node =>
      cases node with
      | file c => simp [hp]
      | directory =>
        have hb : ¬ (n == "..") = true := by simpa using hn
        show (if (n == "..") = true then _ else Except.ok (p ++ [n])) = Except.ok q ↔ _
        rw [if_neg hb]
        refine ⟨fun h => ⟨p, rfl, hp, (Except.ok.inj h).symm⟩, ?_⟩
        rintro ⟨r, hr, -, rfl⟩
        rw [← Except.ok.inj hr]
  | cons m ns ih =>
    simp only [List.cons_append, follow]
    cases hp : t.get? p with
    | none => simp
    | some node =>
      cases node with
      | file c => simp
      | directory =>
        by_cases hm : (m == "..") = true
        · simp only [hm, if_true]
          exact ih _
        · simp only [hm]
          exact ih _

/-- A directory, and its place. -/
structure Folder (t : FileTree) (dir : String) (p : Place) : Prop where
  leads : t.place (directory dir) = .ok p
  found : t.get? p = some .directory

/-- A name in a directory leads to that name in its place. -/
theorem place_join (hn : IsName n) : t.place (join dir n) = .ok q ↔ ∃ p, t.Folder dir p ∧ q = p ++ [n] := by
  have hnames : (Path.names (join dir n).toList).map String.ofList
      = (Path.names (directory dir).toList).map String.ofList ++ [n] := by
    rw [hn.names_join, List.map_append, List.map_singleton, String.ofList_toList]
  rw [place_eq_ok, hn.startsWith_join, hnames, follow_concat hn.ne_parent]
  constructor
  · rintro ⟨-, ⟨p, hp, hd, rfl⟩, -⟩
    refine ⟨p, ⟨place_eq_ok.2 ⟨Path.directory_ne_empty dir, hp, fun _ c hc => ?_⟩, hd⟩, rfl⟩
    rw [hd] at hc
    cases hc
  · rintro ⟨p, hf, rfl⟩
    obtain ⟨-, hp, -⟩ := place_eq_ok.1 hf.leads
    exact ⟨hn.join_ne_empty dir, ⟨p, hp, hf.found, rfl⟩, fun he => absurd he (hn.endsWith_join dir)⟩

theorem Folder.leads_to (h : t.Folder dir p) (hn : IsName n) : t.place (join dir n) = .ok (p ++ [n]) :=
  (place_join hn).2 ⟨p, h, rfl⟩

theorem Folder.grown (h : t.Folder dir p) (hg : Grown t u) : u.Folder dir p := by
  have hd := hg.directory p h.found
  refine ⟨place_mono hg h.leads fun _ c hc => ?_, hd⟩
  rw [hd] at hc
  cases hc

theorem Folder.unique (h : t.Folder dir p) (h' : t.Folder dir q) : q = p :=
  Except.ok.inj (h'.leads.symm.trans h.leads)

/-- What is in a directory is among its names. -/
theorem mem_children {node : Node} (h : t.get? (p ++ [n]) = some node) : n ∈ t.children p := by
  have hne : (p ++ [n]).isEmpty = false := by simp
  simp only [get?, hne, Bool.false_eq_true, if_false, Option.map_eq_some_iff] at h
  obtain ⟨e, he, -⟩ := h
  have hp : e.1 = p ++ [n] := by simpa using List.find?_some he
  exact List.mem_filterMap.2 ⟨e, List.mem_of_find?_eq_some he, by simp [hp]⟩

theorem Folder.list (h : t.Folder dir p) : t.list (directory dir) = .ok (t.children p) := by
  simp [FileTree.list, h.leads, h.found, bind, Except.bind]

theorem get?_concat_eq_none (h : n ∉ t.children p) : t.get? (p ++ [n]) = none := by
  cases hn : t.get? (p ++ [n]) with
  | none => rfl
  | some node => exact absurd (mem_children hn) h

/-! ## Changes in a directory -/

/-- A tree in which nothing but one place has changed, where a file is now. -/
structure Replaced (p : Place) (b : Bytes) (t u : FileTree) : Prop where
  here : u.here = t.here
  file : u.get? p = some (.file b)
  other : ∀ q, q ≠ p → u.get? q = t.get? q

theorem replaced_put (hp : t.get? p ≠ some .directory) (b : Bytes) : Replaced p b t (t.put p (.file b)) :=
  ⟨rfl, get?_put_file hp b, fun _ hq => get?_put_other hq _⟩

theorem Replaced.grown {b : Bytes} (h : Replaced p b t u) (hp : t.get? p ≠ some .directory) : Grown t u := by
  refine ⟨h.here, fun q hq => ?_⟩
  by_cases he : q = p
  · subst he
    exact absurd hq hp
  · rw [h.other q he, hq]

/-- What is written into a directory. -/
theorem Folder.write (h : t.Folder dir p) (hn : IsName n) (hp : t.get? (p ++ [n]) ≠ some .directory) (b : Bytes) :
    t.write (join dir n) b = .ok (t.put (p ++ [n]) (.file b)) := by
  have hend : (join dir n).endsWith "/" = false := by simpa using hn.endsWith_join dir
  rw [FileTree.write, h.leads_to hn]
  simp only [bind, Except.bind, List.dropLast_concat, h.found, hend, Bool.false_eq_true, if_false]
  cases hg : t.get? (p ++ [n]) with
  | none => rfl
  | some node =>
    cases node with
    | file c => rfl
    | directory => exact absurd hg hp

theorem Folder.look (h : t.Folder dir p) (hn : IsName n) : t.look (join dir n)
    = match t.get? (p ++ [n]) with
      | some node => .ok node
      | none => .error .noEntry :=
  RecordLog.look_of_place (h.leads_to hn)

theorem Folder.read_file {b : Bytes} (h : t.Folder dir p) (hn : IsName n) (hb : t.get? (p ++ [n]) = some (.file b)) :
    t.read (join dir n) = .ok b := by
  rw [FileTree.read, h.look hn, hb]
  rfl

end FileTree

namespace SourceDir

open Captioning.Path (IsName join directory)
open FileTree (Folder Replaced)

variable {t : FileTree} {dir : String} {p : Place}

/-! ## Names in a source -/

/-- The names that a fresh name is taken from. -/
def numberedName (n : Nat) : String := ".manifest-" ++ toString n

theorem numberedName_inj {m n : Nat} (h : numberedName m = numberedName n) : m = n := by
  have hd : Decimal.digitsOf m = Decimal.digitsOf n := by
    have := congrArg String.toList ((String.append_right_inj _).1 h)
    simpa [Nat.repr, Decimal.digitsOf] using this
  rw [← Decimal.valueOf_digitsOf m, ← Decimal.valueOf_digitsOf n, hd]

theorem toList_numberedName (n : Nat) : (numberedName n).toList = ".manifest-".toList ++ Decimal.digitsOf n := by
  simp [numberedName, Nat.repr, Decimal.digitsOf]

theorem isName_numberedName (n : Nat) : IsName (numberedName n) := by
  have hlong : 2 < (numberedName n).toList.length := by
    rw [toList_numberedName, List.length_append]
    exact Nat.lt_of_lt_of_le (by decide) (Nat.le_add_right 10 _)
  refine ⟨fun hs => ?_, ?_, ?_, ?_⟩
  · rw [toList_numberedName] at hs
    rcases List.mem_append.1 hs with hs | hs
    · exact absurd hs (by decide)
    · exact absurd (Decimal.isDigit_of_mem_digitsOf hs) (by decide)
  all_goals
    intro e
    rw [e] at hlong
    exact absurd hlong (by decide)

/-- A fresh name is one of more numbered names than there are names in the directory. -/
theorem exists_freshName (h : t.Folder dir p) :
    ∃ n, freshName t dir = numberedName n ∧ numberedName n ∉ t.children p := by
  let names := (List.range ((t.children p).length + 1)).map numberedName
  have hnodup : names.Nodup := List.nodup_range.map fun _ _ => numberedName_inj
  have hfind : ∃ x, names.find? (fun n => !(t.children p).contains n) = some x := by
    cases hx : names.find? (fun n => !(t.children p).contains n) with
    | some x => exact ⟨x, rfl⟩
    | none =>
      have hall : names ⊆ t.children p := by
        intro x hx'
        simpa using List.find?_eq_none.1 hx x hx'
      have hlen : names.length = (t.children p).length + 1 := by simp [names]
      have := hnodup.length_le_of_subset hall
      omega
  obtain ⟨x, hx⟩ := hfind
  obtain ⟨n, -, rfl⟩ := List.mem_map.1 (List.mem_of_find?_eq_some hx)
  refine ⟨n, ?_, by simpa using List.find?_some hx⟩
  have hname : freshName t dir = (names.find? fun n => !(t.children p).contains n).getD ".manifest" := by
    simp only [freshName, h.list, names]
    rfl
  rw [hname, hx]
  rfl

theorem isName_manifestName : IsName manifestName := by decide

theorem isName_recordsName : IsName recordsName := by decide

/-- A source that was loaded is in a directory. -/
theorem folder_of_load {s : SourceDir} (h : load t dir = .ok s) :
    ∃ p b, s.dir = dir ∧ t.Folder dir p ∧ t.get? (p ++ [manifestName]) = some (.file b) := by
  unfold load at h
  split at h
  · cases h
  · next text hread =>
    split at h
    · next m hm =>
      obtain rfl := Except.ok.inj h
      obtain ⟨b, hb, -⟩ := bind_eq_ok.1 hread
      obtain ⟨node, hl, hn⟩ := bind_eq_ok.1 hb
      obtain ⟨q, hq, hg⟩ := bind_eq_ok.1 hl
      obtain ⟨p, hp, rfl⟩ := (FileTree.place_join isName_manifestName).1 hq
      cases node with
      | file c =>
        refine ⟨p, c, rfl, hp, ?_⟩
        split at hg
        · next n hn' => rw [hn', Except.ok.inj hg]
        · cases hg
      | directory => cases hn
    · cases h

end SourceDir

end Captioning
