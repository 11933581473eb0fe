import Captioning.Command.Run
import Captioning.Proofs.Sessions
/-!
# Logs in files

What a log holds when its file is opened and appended to: opening makes it what `Session.opened` says
(`heldAt_openFile`), and appending a record adds its line (`heldAt_append`). A path leads to the same place as long
as no directory goes away (`place_mono`), so a log is read back where it was written, and nothing keeps a record from
being appended to one that has been opened (`writeRecords_of_openAt`).
-/

namespace Captioning

namespace FileTree

/-! ## Places -/

/-- A tree in which all directories of another still are. -/
structure Grown (t u : FileTree) : Prop where
  here : u.here = t.here
  directory : ∀ p, t.get? p = some .directory → u.get? p = some .directory

theorem follow_mono {t u : FileTree} (hg : Grown t u) {p q : Place} {names : List String}
    (h : t.follow p names = .ok q) : u.follow p names = .ok q := by
  induction names generalizing p with
  | nil => exact h
  | cons n names ih =>
    unfold follow at h ⊢
    cases hp : t.get? p with
    | none => simp [hp] at h
    | some node =>
      cases node with
      | file c => simp [hp] at h
      | directory =>
        rw [hp] at h
        rw [hg.directory p hp]
        dsimp only at h ⊢
        split at h
        · next hn =>
          rw [if_pos hn]
          exact ih h
        · next hn =>
          rw [if_neg hn]
          exact ih h

/-- A path leads to a place when its names do, and what is there is a directory if the path says so. -/
theorem place_eq_ok {t : FileTree} {path : String} {p : Place} : t.place path = .ok p
    ↔ path.isEmpty = false
      ∧ t.follow (if path.startsWith "/" then [] else t.here) ((Path.names path.toList).map String.ofList) = .ok p
      ∧ (path.endsWith "/" = true → ∀ c, t.get? p ≠ some (.file c)) := by
  unfold place
  dsimp only
  generalize t.follow _ _ = followed
  cases path.isEmpty with
  | true => simp
  | false =>
    cases followed with
    | error f => simp [bind, Except.bind]
    | ok q =>
      simp only [bind, Except.bind, Bool.false_eq_true, if_false, true_and, Except.ok.injEq]
      constructor
      · intro h
        split at h
        · cases h
        · next hno =>
          obtain rfl := Except.ok.inj h
          exact ⟨rfl, fun he c hc => hno c he hc⟩
      · rintro ⟨rfl, hno⟩
        split
        · next he hc => exact absurd hc (hno he _)
        · rfl

theorem place_mono {t u : FileTree} (hg : Grown t u) {path : String} {p : Place} (h : t.place path = .ok p)
    (hp : path.endsWith "/" = true → ∀ c, u.get? p ≠ some (.file c)) : u.place path = .ok p := by
  obtain ⟨hne, hf, -⟩ := place_eq_ok.1 h
  refine place_eq_ok.2 ⟨hne, ?_, hp⟩
  rw [hg.here]
  exact follow_mono hg hf

/-- To put a file where no directory is takes no directory away. -/
theorem grown_put_file {t : FileTree} {p : Place} (hp : t.get? p ≠ some .directory) (b : Bytes) :
    Grown t (t.put p (.file b)) := by
  refine ⟨rfl, fun q hq => ?_⟩
  have hqp : q ≠ p := by
    rintro rfl
    exact hp hq
  rw [get?_put_other hqp, hq]

theorem get?_put_file {t : FileTree} {p : Place} (hp : t.get? p ≠ some .directory) (b : Bytes) :
    (t.put p (.file b)).get? p = some (.file b) := by
  refine get?_put_same ?_ _
  rintro rfl
  exact hp rfl

/-- What is written to a path is found there, and nothing else changes. -/
theorem write_eq_ok {t u : FileTree} {path : String} {b : Bytes} (h : t.write path b = .ok u) :
    ∃ p, t.place path = .ok p ∧ t.get? p ≠ some .directory ∧ u = t.put p (.file b) ∧ u.place path = .ok p := by
  unfold write at h
  cases hp : t.place path with
  | error f => simp [hp, bind, Except.bind] at h
  | ok p =>
    rw [hp] at h
    simp only [bind, Except.bind] at h
    have hput : ∀ {v}, t.get? p ≠ some .directory → ¬ path.endsWith "/" = true → v = t.put p (.file b) →
        ∃ q, Except.ok (ε := FileFault) p = .ok q ∧ t.get? q ≠ some .directory ∧ v = t.put q (.file b)
          ∧ v.place path = .ok q := by
      rintro v hd he rfl
      exact ⟨p, rfl, hd, rfl, place_mono (grown_put_file hd b) hp fun he' => absurd he' he⟩
    split at h
    · cases h
    · next c hc =>
      refine hput (by simp [hc]) (fun he => ?_) (Except.ok.inj h).symm
      exact (place_eq_ok.1 hp).2.2 he c hc
    · next hn =>
      split at h
      · split at h
        · cases h
        · next he => exact hput (by simp [hn]) he (Except.ok.inj h).symm
      · cases h
      · cases h

/-- A tree with the files of another, and perhaps more directories. -/
structure Housed (t u : FileTree) : Prop where
  here : u.here = t.here
  kept : ∀ p n, t.get? p = some n → u.get? p = some n
  file : ∀ p c, u.get? p = some (.file c) → t.get? p = some (.file c)

theorem Housed.trans {t u v : FileTree} (h : Housed t u) (h' : Housed u v) : Housed t v :=
  ⟨h'.here.trans h.here, fun p n hp => h'.kept p n (h.kept p n hp), fun p c hp => h.file p c (h'.file p c hp)⟩

theorem Housed.grown {t u : FileTree} (h : Housed t u) : Grown t u :=
  ⟨h.here, fun p hp => h.kept p _ hp⟩

theorem housed_put_directory {t : FileTree} {p : Place} (hp : t.get? p = none) : Housed t (t.put p .directory) := by
  have hne : p ≠ [] := by
    rintro rfl
    cases hp
  refine ⟨rfl, fun q n hq => ?_, fun q c hq => ?_⟩
  · have hqp : q ≠ p := by
      rintro rfl
      rw [hp] at hq
      cases hq
    rw [get?_put_other hqp, hq]
  · by_cases hqp : q = p
    · subst hqp
      rw [get?_put_same hne] at hq
      cases hq
    · rwa [get?_put_other hqp] at hq

theorem housed_makeAlong {t u : FileTree} {p : Place} {names : List String} (h : t.makeAlong p names = .ok u) :
    Housed t u := by
  induction names generalizing t p with
  | nil =>
    obtain rfl := Except.ok.inj h
    exact ⟨rfl, fun _ _ h => h, fun _ _ h => h⟩
  | cons n names ih =>
    unfold makeAlong at h
    split at h
    · exact ih h
    · split at h
      · exact ih h
      · cases h
      · next hn => exact (housed_put_directory hn).trans (ih h)

end FileTree

namespace RecordLog

open FileTree

/-! ## Logs -/

/-- What the log at a path holds. One that is not there yet holds nothing. -/
def heldAt (t : FileTree) (path : String) : Option Bytes :=
  match t.place path with
  | .ok p => match t.get? p with
    | some (.file log) => some log
    | some .directory => none
    | none => some []
  | .error _ => none

variable {t u : FileTree} {path : String} {log : Bytes}

theorem heldAt_eq_some : heldAt t path = some log ↔ ∃ p, t.place path = .ok p
    ∧ (t.get? p = some (.file log) ∨ t.get? p = none ∧ log = []) := by
  unfold heldAt
  constructor
  · intro h
    split at h
    · next p hp =>
      refine ⟨p, hp, ?_⟩
      split at h
      · next c hc => exact .inl (by rw [hc, Option.some.inj h])
      · cases h
      · next hn => exact .inr ⟨hn, (Option.some.inj h).symm⟩
    · cases h
  · rintro ⟨p, hp, hc | ⟨hn, rfl⟩⟩
    · rw [hp]
      dsimp only
      rw [hc]
    · rw [hp]
      dsimp only
      rw [hn]

theorem look_of_place {p : Place} (hp : t.place path = .ok p) :
    t.look path = match t.get? p with
      | some n => .ok n
      | none => .error .noEntry := by
  unfold look
  rw [hp]
  rfl

/-- A log is read, or it is not there. -/
theorem read_of_heldAt (h : heldAt t path = some log) :
    t.read path = .ok log ∨ t.read path = .error .noEntry ∧ log = [] := by
  obtain ⟨p, hp, hc | ⟨hn, rfl⟩⟩ := heldAt_eq_some.1 h
  · refine .inl ?_
    rw [FileTree.read, look_of_place hp, hc]
    rfl
  · refine .inr ⟨?_, rfl⟩
    rw [FileTree.read, look_of_place hp, hn]
    rfl

/-- A log that is written holds what was written. -/
theorem heldAt_write {b : Bytes} (h : t.write path b = .ok u) : heldAt u path = some b := by
  obtain ⟨p, hp, hd, rfl, hu⟩ := write_eq_ok h
  exact heldAt_eq_some.2 ⟨p, hu, .inl (get?_put_file hd b)⟩

theorem append_eq_ok {b : Bytes} (h : t.append path b = .ok u) : ∃ c, t.write path c = .ok u := by
  unfold FileTree.append at h
  split at h
  · exact ⟨_, h⟩
  · exact ⟨_, h⟩

/-- A log that is appended to holds what it held, and what was appended. -/
theorem heldAt_append {b : Bytes} (hl : heldAt t path = some log) (h : t.append path b = .ok u) :
    heldAt u path = some (log ++ b) := by
  obtain ⟨p, hp, hc | ⟨hn, rfl⟩⟩ := heldAt_eq_some.1 hl
  · have hlook : t.look path = .ok (.file log) := by rw [look_of_place hp, hc]
    rw [FileTree.append, hlook] at h
    exact heldAt_write h
  · have hlook : t.look path = .error .noEntry := by rw [look_of_place hp, hn]
    rw [FileTree.append, hlook] at h
    exact heldAt_write h

/-- When directories are made, a log holds what it held, or is a directory now. -/
theorem heldAt_housed (hg : Housed t u) (hl : heldAt t path = some log) :
    heldAt u path = some log ∨ u.look path = .ok .directory := by
  obtain ⟨p, hp, hc⟩ := heldAt_eq_some.1 hl
  have hu : u.place path = .ok p := place_mono hg.grown hp fun he c hf =>
    (place_eq_ok.1 hp).2.2 he c (hg.file p c hf)
  rcases hc with hc | ⟨hn, rfl⟩
  · exact .inl (heldAt_eq_some.2 ⟨p, hu, .inl (hg.kept p _ hc)⟩)
  · cases hup : u.get? p with
    | none => exact .inl (heldAt_eq_some.2 ⟨p, hu, .inr ⟨hup, rfl⟩⟩)
    | some n =>
      cases n with
      | file c =>
        rw [hg.file p c hup] at hn
        cases hn
      | directory =>
        refine .inr ?_
        rw [look_of_place hu, hup]

/-! ## Opening -/

theorem isTorn_of_heldAt (h : heldAt t path = some log) : isTorn t path = .ok (endsMidLine log) := by
  unfold isTorn
  rcases read_of_heldAt h with hr | ⟨hr, rfl⟩
  · rw [hr]
  · rw [hr]
    rfl

theorem isTorn_directory (h : t.look path = .ok .directory) : isTorn t path = .error .isDirectory := by
  unfold isTorn FileTree.read
  rw [h]
  rfl

/-- Opens the file of a log where the directories above it are there. -/
def openHere (t : FileTree) (path : String) : OpenMode → Except FileFault (FileTree × Bool)
  | .truncate => do return (← t.write path [], false)
  | .extend => do
    let torn ← isTorn t path
    return (← t.append path (if torn then [10] else []), torn)

/-- The directories above a log are made, and then it is opened. -/
theorem openFile_eq_ok {mode : OpenMode} {torn : Bool} (h : openFile t path mode = .ok (u, torn)) :
    ∃ v, Housed t v ∧ openHere v path mode = .ok (u, torn) := by
  have hsame : Housed t t := ⟨rfl, fun _ _ h => h, fun _ _ h => h⟩
  unfold openFile at h
  dsimp only at h
  split at h
  · split at h
    · exact ⟨t, hsame, h⟩
    · obtain ⟨v, hv, h⟩ := bind_eq_ok.1 h
      exact ⟨v, housed_makeAlong hv, h⟩
  · exact ⟨t, hsame, h⟩

/-- An open log holds what a session opens it to. -/
theorem heldAt_openFile {mode : OpenMode} {torn : Bool} (hl : heldAt t path = some log)
    (h : openFile t path mode = .ok (u, torn)) : heldAt u path = some (Session.opened mode log) := by
  obtain ⟨v, hv, h⟩ := openFile_eq_ok h
  cases mode with
  | truncate =>
    obtain ⟨w, hw, h⟩ := bind_eq_ok.1 h
    obtain ⟨rfl, -⟩ := Prod.mk.inj (Except.ok.inj h)
    exact heldAt_write hw
  | extend =>
    obtain ⟨torn', ht, h⟩ := bind_eq_ok.1 h
    obtain ⟨w, ha, h⟩ := bind_eq_ok.1 h
    obtain ⟨rfl, -⟩ := Prod.mk.inj (Except.ok.inj h)
    rcases heldAt_housed hv hl with hl | hd
    · obtain rfl := Except.ok.inj ((isTorn_of_heldAt hl).symm.trans ht)
      rw [heldAt_append hl ha, Session.opened, continued]
      split
      · rfl
      · rw [List.append_nil]
    · rw [isTorn_directory hd] at ht
      cases ht

theorem heldAt_openAt {mode : OpenMode} {r : RecordLog} {notices : List String} (hl : heldAt t path = some log)
    (h : openAt t path mode = .ok (u, r, notices)) :
    heldAt u path = some (Session.opened mode log) ∧ r.path = path := by
  unfold openAt at h
  split at h
  · next w torn ho =>
    obtain ⟨rfl, hr⟩ := Prod.mk.inj (Except.ok.inj h)
    obtain ⟨rfl, -⟩ := Prod.mk.inj hr
    exact ⟨heldAt_openFile hl ho, rfl⟩
  · cases h

/-- The identities that are left out are those that a session reads. -/
theorem skipFor_of_loadSkipSet {skip : SkipSet} {notices : List String} (hl : heldAt t path = some log)
    (h : loadSkipSet t path = .ok (skip, notices)) : Session.skipFor .extend log = .ok skip := by
  unfold loadSkipSet at h
  rcases read_of_heldAt hl with hr | ⟨hr, rfl⟩
  · rw [hr] at h
    dsimp only at h
    split at h
    · next ls hs =>
      obtain ⟨rfl, -⟩ := Prod.mk.inj (Except.ok.inj h)
      rw [Session.skipFor, hs]
      rfl
    · cases h
  · rw [hr] at h
    obtain ⟨rfl, -⟩ := Prod.mk.inj (Except.ok.inj h)
    rfl

/-! ## Appending -/

/-- What is written is a file, -/
theorem look_of_write {b : Bytes} (h : t.write path b = .ok u) : u.look path = .ok (.file b) := by
  obtain ⟨p, -, hd, rfl, hu⟩ := write_eq_ok h
  rw [look_of_place hu, get?_put_file hd b]

/-- and so is a log that has been opened. -/
theorem look_of_openAt {mode : OpenMode} {r : RecordLog} {notices : List String}
    (h : openAt t path mode = .ok (u, r, notices)) : r.path = path ∧ ∃ log, u.look path = .ok (.file log) := by
  unfold openAt at h
  split at h
  · next w torn ho =>
    obtain ⟨rfl, hr⟩ := Prod.mk.inj (Except.ok.inj h)
    obtain ⟨rfl, -⟩ := Prod.mk.inj hr
    obtain ⟨v, -, ho⟩ := openFile_eq_ok ho
    refine ⟨rfl, ?_⟩
    cases mode with
    | truncate =>
      obtain ⟨w, hw, ho⟩ := bind_eq_ok.1 ho
      obtain ⟨rfl, -⟩ := Prod.mk.inj (Except.ok.inj ho)
      exact ⟨_, look_of_write hw⟩
    | extend =>
      obtain ⟨torn, -, ho⟩ := bind_eq_ok.1 ho
      obtain ⟨w, ha, ho⟩ := bind_eq_ok.1 ho
      obtain ⟨rfl, -⟩ := Prod.mk.inj (Except.ok.inj ho)
      obtain ⟨c, hw⟩ := append_eq_ok ha
      exact ⟨c, look_of_write hw⟩
  · cases h

/-- A file can be appended to, and still is one. -/
theorem exists_append (h : t.look path = .ok (.file log)) (b : Bytes) :
    ∃ u, t.append path b = .ok u ∧ u.look path = .ok (.file (log ++ b)) := by
  obtain ⟨p, hp, hn⟩ := bind_eq_ok.1 h
  have hfile : t.get? p = some (.file log) := by
    cases hg : t.get? p with
    | none => simp [hg] at hn
    | some n => rw [hg] at hn; exact congrArg some (Except.ok.inj hn)
  have hwrite : t.append path b = .ok (t.put p (.file (log ++ b))) := by
    rw [FileTree.append, h]
    simp only [FileTree.write, hp, hfile, bind, Except.bind]
  exact ⟨_, hwrite, look_of_write (by rwa [FileTree.append, h] at hwrite)⟩

/-- Records can be appended to a log that has been opened. -/
theorem writeRecords_of_openAt {mode : OpenMode} {r : RecordLog} {notices : List String}
    (h : openAt t path mode = .ok (u, r, notices)) (records : List Record) :
    ∃ v r', Command.writeRecords u r records = .ok (v, r') := by
  obtain ⟨rfl, log, hlook⟩ := look_of_openAt h
  clear h
  unfold Command.writeRecords
  induction records generalizing u r log with
  | nil => exact ⟨u, r, rfl⟩
  | cons record records ih =>
    obtain ⟨v, hv, hnext⟩ := exists_append hlook (bytesOf record)
    obtain ⟨w, r', hw⟩ := @ih v ⟨r.path, r.written + 1⟩ _ hnext
    have happend : RecordLog.append u r record = .ok (v, ⟨r.path, r.written + 1⟩) := by
      rw [RecordLog.append, hv]
      rfl
    refine ⟨w, r', ?_⟩
    rw [List.foldlM_cons]
    dsimp only
    rw [happend]
    exact hw

/-- Records that are written are added to the log, each with its line. -/
theorem heldAt_writeRecords {r r' : RecordLog} {records : List Record} (hl : heldAt t r.path = some log)
    (h : Command.writeRecords t r records = .ok (u, r')) :
    heldAt u r.path = some (log ++ records.flatMap bytesOf) := by
  unfold Command.writeRecords at h
  induction records generalizing t r log with
  | nil =>
    obtain ⟨rfl, rfl⟩ := Prod.mk.inj (Except.ok.inj h)
    simpa using hl
  | cons record records ih =>
    rw [List.foldlM_cons] at h
    obtain ⟨⟨v, s⟩, hv, h⟩ := bind_eq_ok.1 h
    obtain ⟨w, hw, hv⟩ := bind_eq_ok.1 hv
    obtain ⟨rfl, rfl⟩ := Prod.mk.inj (Except.ok.inj hv)
    have hnext : heldAt w (⟨r.path, r.written + 1⟩ : RecordLog).path = some (log ++ bytesOf record) :=
      heldAt_append hl hw
    rw [List.flatMap_cons, ← List.append_assoc]
    exact ih (r := ⟨r.path, r.written + 1⟩) hnext h

end RecordLog

end Captioning
