import Captioning.Proofs.RunHistory
import Captioning.Run.Timeline
import Mathlib.Algebra.GroupWithZero.Nat
import Mathlib.Data.List.Nodup
/-!
# Runs in time have a history

A run in time is one of the histories that are possible (`Tracks`): every moment launches jobs, stops the run
and settles reports as a history may. And it goes on to the end (`run_ends`): each step of `run` leaves less
work to do (`Tracks.moment`, `Tracks.wait`), and the steps that are allowed are enough for all. So `complete` comes
to a state of a history in which nothing runs and nothing can be launched (`complete_ends`).
-/

namespace Captioning.Timeline

open RunState (Step History)

/-! ## The work that is left -/

/-- The work in a job that goes on at this moment. A pause that is over will be passed at once. -/
def readyWork (j : OpenJob) : Nat :=
  match j.ahead with
  | .pause s :: more => if s.nanos = 0 then 2 * more.length + 1 else 2 * more.length + 3
  | es => 2 * es.length + 1

/-- The work in a job that pauses. -/
def pausingWork (j : OpenJob) : Nat :=
  2 * j.ahead.length

/-- The work in a job that has not begun. -/
def plannedWork (j : OpenJob) : Nat :=
  2 * j.ahead.length + 2

/-- The work that is left in a run. Each step makes it less. -/
def work (t : Timeline) : Nat :=
  (t.planned.map plannedWork).sum + (t.pausing.map pausingWork).sum + (t.ready.map readyWork).sum

/-- A job that waits for the end of a pause. -/
def Pauses (j : OpenJob) : Prop :=
  ∃ s more, j.ahead = .pause s :: more

theorem readyWork_pos (j : OpenJob) : 0 < readyWork j := by
  unfold readyWork
  split
  · split <;> omega
  · omega

theorem readyWork_lt_planned (j : OpenJob) : readyWork j < plannedWork j := by
  unfold readyWork plannedWork
  split
  · next h =>
    rw [h, List.length_cons]
    split <;> omega
  · omega

theorem Pauses.work_pos {j : OpenJob} (h : Pauses j) : 0 < pausingWork j := by
  obtain ⟨s, more, h⟩ := h
  rw [pausingWork, h, List.length_cons]
  omega

/-- A job whose pause is over has less work left than while it paused. -/
theorem Pauses.readyWork_lt {j : OpenJob} (h : Pauses j) (hr : OpenJob.rest j = 0) :
    readyWork j < pausingWork j := by
  obtain ⟨s, more, h⟩ := h
  have hs : s.nanos = 0 := by simpa [OpenJob.rest, h] using hr
  simp only [readyWork, pausingWork, h, hs, if_true, List.length_cons]
  omega

/-- What is ahead of a job after a moment is nothing or begins with a pause, and is not more than before. -/
theorem now_ahead (es : List Event) :
    ((now es).2 = [] ∨ ∃ s more, (now es).2 = .pause s :: more) ∧ (now es).2.length ≤ es.length := by
  induction es with
  | nil => exact ⟨.inl rfl, Nat.le_refl _⟩
  | cons e es ih =>
    have hskip : ((now es).2 = [] ∨ ∃ s more, (now es).2 = .pause s :: more)
        ∧ (now es).2.length ≤ (e :: es).length := ⟨ih.1, Nat.le_succ_of_le ih.2⟩
    cases e with
    | pause s =>
      unfold now
      split
      · exact hskip
      · exact ⟨.inr ⟨s, es, rfl⟩, Nat.le_refl _⟩
    | call => exact hskip
    | note text => exact hskip
    | stop => exact hskip

theorem now_work (j : OpenJob) : 2 * (now j.ahead).2.length < readyWork j := by
  unfold readyWork
  split
  · next s more h =>
    rw [h, now]
    by_cases hs : s.nanos = 0
    · have := (now_ahead more).2
      simp only [hs, beq_self_eq_true, if_true]
      omega
    · simp only [hs, beq_iff_eq, if_false, List.length_cons]
      omega
  · have := (now_ahead j.ahead).2
    omega

/-! ## What the jobs have to do with the state -/

/-- A run in time has come to its state by a history in which only reports of `R` were settled, and no record was
stored in part. Its planned jobs are those of the items to come, and its other jobs, together with `others`, those
of the items that run. -/
structure Tracks (s₀ : RunState) (R : List Report) (t : Timeline) (others : List OpenJob) : Prop where
  reached : ∃ es, History s₀ es t.state ∧ ∀ e ∈ es, e.Clean ∧ ∀ r ∈ e.report?, r ∈ R
  planned : t.planned.map (·.item) = t.state.held.toList ++ t.state.waiting
  running : t.state.running.Perm ((t.pausing ++ t.ready ++ others).map (·.item))
  reports : ∀ j ∈ t.planned ++ (t.pausing ++ t.ready ++ others), j.report.id = j.item.id ∧ j.report ∈ R
  distinct : ((t.planned ++ (t.pausing ++ t.ready ++ others)).map (·.item.id)).Nodup
  pauses : ∀ j ∈ t.pausing, Pauses j

section Steps

variable {s₀ : RunState} {R : List Report} {t : Timeline} {others : List OpenJob}

/-- Only the items of the jobs count, and their reports. -/
theorem Tracks.congr {t' : Timeline} {others' : List OpenJob} (h : Tracks s₀ R t others)
    (hs : t'.state = t.state) (hp : t'.planned = t.planned)
    (hj : ((t'.pausing ++ t'.ready ++ others').map fun j => (j.item, j.report)).Perm
      ((t.pausing ++ t.ready ++ others).map fun j => (j.item, j.report)))
    (hpauses : ∀ j ∈ t'.pausing, Pauses j) : Tracks s₀ R t' others' := by
  have hitems : ((t'.pausing ++ t'.ready ++ others').map (·.item)).Perm
      ((t.pausing ++ t.ready ++ others).map (·.item)) := by
    simpa only [List.map_map, Function.comp_def] using hj.map Prod.fst
  refine ⟨?_, ?_, ?_, ?_, ?_, hpauses⟩
  · rw [hs]
    exact h.reached
  · rw [hs, hp]
    exact h.planned
  · rw [hs]
    exact h.running.trans hitems.symm
  · rw [hp]
    intro j hm
    rcases List.mem_append.1 hm with hm | hm
    · exact h.reports j (List.mem_append_left _ hm)
    · have hm : (j.item, j.report) ∈ (t.pausing ++ t.ready ++ others).map fun j => (j.item, j.report) :=
        hj.mem_iff.1 (List.mem_map_of_mem hm)
      obtain ⟨k, hk, he⟩ := List.mem_map.1 hm
      obtain ⟨hi, hr⟩ := Prod.mk.inj he
      rw [← hi, ← hr]
      exact h.reports k (List.mem_append_right _ hk)
  · rw [hp]
    refine (List.Perm.nodup_iff ?_).2 h.distinct
    have hids : ((t'.pausing ++ t'.ready ++ others').map (·.item.id)).Perm
        ((t.pausing ++ t.ready ++ others).map (·.item.id)) := by
      simpa only [List.map_map, Function.comp_def] using hitems.map (·.id)
    rw [@List.map_append _ _ _ t.planned, @List.map_append _ _ _ t.planned]
    exact hids.append_left _

theorem Tracks.stop (h : Tracks s₀ R t others) : Tracks s₀ R { t with state := t.state.stop } others := by
  obtain ⟨es, hes, hR⟩ := h.reached
  refine ⟨⟨es ++ [.stopped], hes.step .stop, List.forall_mem_append.2 ⟨hR, ?_⟩⟩, h.planned, h.running, h.reports,
    h.distinct, h.pauses⟩
  exact List.forall_mem_singleton.2 ⟨trivial, fun r hr => by cases hr⟩

theorem perm_moved {α : Type} (x : α) (a b c : List α) : (a ++ [x] ++ b ++ c).Perm (a ++ b ++ x :: c) := by
  rw [List.append_assoc, List.append_assoc, List.append_assoc]
  show (a ++ x :: (b ++ c)).Perm (a ++ (b ++ x :: c))
  exact List.perm_middle.symm.append_left a

/-! ## Moments -/

/-- One job goes on: it ends, or pauses again. -/
theorem Tracks.goOn {j : OpenJob} {gone : List OpenJob} (h : Tracks s₀ R t (j :: others ++ gone)) :
    ∃ gone', (goOn (t, gone.map (·.report)) j).2 = gone'.map (·.report)
      ∧ Tracks s₀ R (goOn (t, gone.map (·.report)) j).1 (others ++ gone')
      ∧ work (goOn (t, gone.map (·.report)) j).1 < work t + readyWork j := by
  have hw := now_work j
  obtain ⟨ha, -⟩ := now_ahead j.ahead
  have hstate : Tracks s₀ R { t with
      state := if (now j.ahead).1.contains .stop then t.state.stop else t.state } (j :: others ++ gone) := by
    split
    · exact h.stop
    · exact h
  unfold Timeline.goOn
  dsimp only
  split
  · next hn =>
    refine ⟨gone ++ [j], by rw [List.map_append]; rfl, hstate.congr rfl rfl ?_ h.pauses, ?_⟩
    · refine List.Perm.map _ (List.Perm.append_left _ ?_)
      rw [← List.append_assoc]
      exact List.perm_append_singleton j (others ++ gone)
    · exact Nat.lt_add_of_pos_right (readyWork_pos j)
  · next hn =>
    refine ⟨gone, rfl, hstate.congr rfl rfl ?_ ?_, ?_⟩
    · simpa only [List.map_append, List.map_cons, List.map_nil, List.cons_append] using perm_moved _ _ _ _
    · intro k hk
      rcases List.mem_append.1 hk with hk | hk
      · exact h.pauses k hk
      · obtain rfl := List.mem_singleton.1 hk
        exact ha.resolve_left fun he => hn (by rw [he]; rfl)
    · simp only [work, List.map_append, List.sum_append, List.map_cons, List.map_nil, List.sum_cons, List.sum_nil,
        pausingWork]
      omega

/-- All jobs of a list go on, one after another. -/
theorem Tracks.goOn_all {jobs gone : List OpenJob} (h : Tracks s₀ R t (jobs ++ gone)) :
    ∃ gone', (jobs.foldl Timeline.goOn (t, gone.map (·.report))).2 = gone'.map (·.report)
      ∧ Tracks s₀ R (jobs.foldl Timeline.goOn (t, gone.map (·.report))).1 gone'
      ∧ work (jobs.foldl Timeline.goOn (t, gone.map (·.report))).1 + jobs.length
          ≤ work t + (jobs.map readyWork).sum := by
  induction jobs generalizing t gone with
  | nil => exact ⟨gone, rfl, h, Nat.le_refl _⟩
  | cons j jobs ih =>
    obtain ⟨gone', he, ht, hw⟩ := h.goOn
    obtain ⟨gone'', he', ht', hw'⟩ := ih ht
    rw [← he] at he' ht' hw'
    refine ⟨gone'', he', ht', ?_⟩
    rw [List.foldl_cons, List.length_cons, List.map_cons, List.sum_cons]
    have : work (List.foldl Timeline.goOn (Timeline.goOn (t, gone.map (·.report)) j) jobs).1 + jobs.length
        ≤ work (Timeline.goOn (t, gone.map (·.report)) j).1 + (jobs.map readyWork).sum := hw'
    omega

/-- The report of a job that has ended is settled. -/
theorem Tracks.settle {j : OpenJob} {gone : List OpenJob} (writes : Nat → Option FileFault)
    (h : Tracks s₀ R t (j :: gone)) :
    Tracks s₀ R { t with state := Timeline.settle writes t.state j.report } gone := by
  obtain ⟨es, hes, hR⟩ := h.reached
  have hj : j ∈ t.pausing ++ t.ready ++ j :: gone := List.mem_append_right _ List.mem_cons_self
  obtain ⟨hid, hjR⟩ := h.reports j (List.mem_append_right _ hj)
  have hrun : j.item ∈ t.state.running := h.running.mem_iff.2 (List.mem_map_of_mem hj)
  have hopen : ((t.pausing ++ t.ready ++ j :: gone).map (·.item.id)).Nodup :=
    h.distinct.sublist ((List.sublist_append_right _ _).map _)
  have hnodup : (t.state.running.map (·.id)).Nodup := by
    refine (h.running.map (·.id)).nodup_iff.2 ?_
    rwa [List.map_map]
  have hp : (fun i : Item => i.id == j.report.id) j.item = true := by simp [hid]
  obtain ⟨k, front, behind, -, hk, he, hd⟩ :=
    List.exists_of_eraseP (p := fun i => i.id == j.report.id) hrun hp
  have hk : k.id = j.item.id := by simpa [hid] using hk
  have hmem : k ∈ t.state.running := he ▸ List.mem_append_right _ List.mem_cons_self
  obtain rfl := List.inj_on_of_nodup_map hnodup hmem hrun hk
  have hsettle : Timeline.settle writes t.state j.report
      = t.state.finish (((writes t.state.account.attempts).map fun f => (f, 0)).map Prod.fst) j.report := by
    rw [Option.map_map]
    simp [Timeline.settle, Function.comp_def]
  have hsub : (t.planned ++ (t.pausing ++ t.ready ++ gone)).Sublist
      (t.planned ++ (t.pausing ++ t.ready ++ j :: gone)) :=
    ((List.sublist_cons_self j gone).append_left _).append_left _
  refine ⟨⟨es ++ [.settled j.report ((writes t.state.account.attempts).map fun f => (f, 0))], ?_, ?_⟩,
    h.planned, ?_, ?_, ?_, h.pauses⟩
  · rw [hsettle]
    exact hes.step (.settle hrun hid _)
  · refine List.forall_mem_append.2 ⟨hR, List.forall_mem_singleton.2 ⟨?_, ?_⟩⟩
    · cases writes t.state.account.attempts with
      | none => trivial
      | some f => rfl
    · rintro r ⟨⟩
      exact hjR
  · show (t.state.running.eraseP fun i => i.id == j.report.id).Perm _
    rw [hd]
    have hall := h.running
    rw [he, List.map_append, List.map_cons] at hall
    have := (List.perm_middle.symm.trans hall).trans List.perm_middle
    rw [List.map_append]
    exact this.cons_inv
  · exact fun k hk => h.reports k (hsub.subset hk)
  · exact h.distinct.sublist (hsub.map _)

/-- The reports of all jobs that have ended are settled. -/
theorem Tracks.settle_all {gone : List OpenJob} (writes : Nat → Option FileFault) (h : Tracks s₀ R t gone) :
    Tracks s₀ R { t with state := (gone.map (·.report)).foldl (Timeline.settle writes) t.state } [] := by
  induction gone generalizing t with
  | nil => exact h
  | cons j gone ih => exact ih (h.settle writes)

/-- Jobs are launched until there is no free worker or no item is held, and this adds no work. -/
theorem Tracks.launch {fuel : Nat} (h : Tracks s₀ R t []) (hf : t.planned.length ≤ fuel) :
    Tracks s₀ R (launch fuel t) [] ∧ (launch fuel t).state.launch? = none ∧ work (launch fuel t) ≤ work t := by
  induction fuel generalizing t with
  | zero =>
    have hp : t.planned = [] := List.eq_nil_of_length_eq_zero (Nat.le_zero.1 hf)
    have hheld := h.planned
    rw [hp, List.map_nil] at hheld
    have hheld : t.state.held = none := by
      rw [← Option.toList_eq_nil_iff]
      exact (List.append_eq_nil_iff.1 hheld.symm).1
    exact ⟨h, by simp [Timeline.launch, RunState.launch?, hheld], Nat.le_refl _⟩
  | succ fuel ih =>
    unfold Timeline.launch
    cases hl : t.state.launch? with
    | none => exact ⟨h, hl, Nat.le_refl _⟩
    | some is =>
      obtain ⟨i, s⟩ := is
      have hlaunched := RunState.launched_of_launch? hl
      cases hp : t.planned with
      | nil =>
        have hheld := h.planned
        rw [hp, hlaunched.held] at hheld
        cases hheld
      | cons j more =>
        obtain ⟨es, hes, hR⟩ := h.reached
        have hplan := h.planned
        rw [hp, hlaunched.held, List.map_cons] at hplan
        obtain ⟨hj, hmore⟩ := List.cons.inj hplan
        have hall : (more ++ (t.pausing ++ (t.ready ++ [j]) ++ [])).Perm
            (t.planned ++ (t.pausing ++ t.ready ++ [])) := by
          rw [hp, List.append_nil, List.append_nil, List.cons_append, ← List.append_assoc, ← List.append_assoc,
            ← List.append_assoc]
          exact List.perm_append_singleton j _
        have ht : Tracks s₀ R { t with state := s, planned := more, ready := t.ready ++ [j] } [] := by
          refine ⟨⟨es ++ [.launched i], hes.step (.launch hl), ?_⟩, ?_, ?_, ?_, ?_, h.pauses⟩
          · exact List.forall_mem_append.2
              ⟨hR, List.forall_mem_singleton.2 ⟨trivial, fun r hr => by cases hr⟩⟩
          · exact hmore.trans hlaunched.ahead.symm
          · show s.running.Perm _
            rw [hlaunched.running, List.append_nil, ← List.append_assoc, List.map_append, List.map_cons, hj]
            exact (by simpa using h.running : t.state.running.Perm _).append_right [i]
          · exact fun k hk => h.reports k (hall.mem_iff.1 hk)
          · exact (hall.map (·.item.id)).nodup_iff.2 h.distinct
        obtain ⟨h1, h2, h3⟩ := ih ht (by simpa [hp] using hf)
        refine ⟨h1, h2, Nat.le_trans h3 ?_⟩
        have := readyWork_lt_planned j
        simp only [work, hp, List.map_append, List.map_cons, List.map_nil, List.sum_append, List.sum_cons,
          List.sum_nil]
        omega

/-- A moment goes on along a history, launches all that can be launched, and leaves less work. -/
theorem Tracks.moment (writes : Nat → Option FileFault) (h : Tracks s₀ R t []) (hr : t.ready ≠ []) :
    Tracks s₀ R (moment writes t) [] ∧ (moment writes t).state.launch? = none
      ∧ work (moment writes t) < work t := by
  have hstart : Tracks s₀ R { t with ready := [] } (t.ready ++ []) := by
    refine h.congr rfl rfl ?_ h.pauses
    simp
  obtain ⟨gone, he, ht, hw⟩ := hstart.goOn_all
  obtain ⟨h1, h2, h3⟩ := (ht.settle_all writes).launch (Nat.le_refl _)
  unfold Timeline.moment
  rw [List.map_nil] at he h1 h2 h3 hw
  dsimp only
  rw [he]
  refine ⟨h1, h2, Nat.lt_of_le_of_lt h3 ?_⟩
  have hlen : 0 < t.ready.length := List.length_pos_iff.2 hr
  have hleft : work t = work { t with ready := [] } + (t.ready.map readyWork).sum := by
    simp [work]
  rw [hleft]
  exact Nat.lt_of_lt_of_le (Nat.lt_add_of_pos_right hlen) hw

end Steps

/-! ## Waiting -/

theorem work_split (jobs : List OpenJob) (h : ∀ j ∈ jobs, Pauses j) :
    ((jobs.filter fun j => OpenJob.rest j == 0).map readyWork).sum
      + ((jobs.filter fun j => OpenJob.rest j != 0).map pausingWork).sum
      + (jobs.filter fun j => OpenJob.rest j == 0).length ≤ (jobs.map pausingWork).sum := by
  induction jobs with
  | nil => exact Nat.le_refl _
  | cons j jobs ih =>
    have ih := ih fun k hk => h k (List.mem_cons_of_mem _ hk)
    by_cases hj : OpenJob.rest j = 0
    · have := (h j List.mem_cons_self).readyWork_lt hj
      rw [List.filter_cons_of_pos (by simp [hj]), List.filter_cons_of_neg (by simp [hj]), List.map_cons,
        List.map_cons, List.sum_cons, List.sum_cons, List.length_cons]
      omega
    · rw [List.filter_cons_of_neg (by simp [hj]), List.filter_cons_of_pos (by simp [hj]), List.map_cons,
        List.map_cons, List.sum_cons, List.sum_cons]
      omega

/-- Some time later a job still has the same ahead of it, up to the length of the pause. -/
theorem Pauses.later {j : OpenJob} (h : Pauses j) (n : Nat) :
    Pauses (OpenJob.later n j) ∧ pausingWork (OpenJob.later n j) = pausingWork j
      ∧ OpenJob.rest (OpenJob.later n j) = OpenJob.rest j - n := by
  obtain ⟨s, more, h⟩ := h
  have hl : OpenJob.later n j = { j with ahead := .pause ⟨s.nanos - n⟩ :: more } := by
    simp only [OpenJob.later, h]
  rw [hl]
  refine ⟨⟨_, more, rfl⟩, ?_, ?_⟩
  · simp only [pausingWork, h, List.length_cons]
  · simp only [OpenJob.rest, h]

theorem item_later (n : Nat) (j : OpenJob) :
    ((OpenJob.later n j).item, (OpenJob.later n j).report) = (j.item, j.report) := by
  unfold OpenJob.later
  split <;> rfl

section Steps

variable {s₀ : RunState} {R : List Report} {t : Timeline}

/-- To wait changes nothing about the state, and leaves less work, for the next pause is over. -/
theorem Tracks.wait (h : Tracks s₀ R t []) (hr : t.ready = []) (hp : t.pausing ≠ []) :
    Tracks s₀ R t.wait [] ∧ t.wait.state = t.state ∧ work t.wait < work t := by
  obtain ⟨n, hn⟩ : ∃ n, (t.pausing.map OpenJob.rest).min? = some n := by
    rw [← Option.isSome_iff_exists, List.isSome_min?_iff]
    simpa using hp
  obtain ⟨j, hj, hjn⟩ := List.mem_map.1 (List.min?_mem hn)
  let jobs := t.pausing.map (OpenJob.later n)
  have hwait : t.wait = { t with
      ready := jobs.filter fun j => OpenJob.rest j == 0
      pausing := jobs.filter fun j => OpenJob.rest j != 0 } := by
    simp only [Timeline.wait, hn, Option.getD_some]
    rfl
  have hjobs : ∀ k ∈ jobs, Pauses k := by
    intro k hk
    obtain ⟨j, hj, rfl⟩ := List.mem_map.1 hk
    exact ((h.pauses j hj).later n).1
  have hwork : (jobs.map pausingWork).sum = (t.pausing.map pausingWork).sum := by
    rw [List.map_map]
    exact congrArg List.sum (List.map_congr_left fun j hj => ((h.pauses j hj).later n).2.1)
  have hover : 0 < (jobs.filter fun j => OpenJob.rest j == 0).length := by
    refine List.length_pos_of_mem (List.mem_filter.2 ⟨List.mem_map_of_mem hj, ?_⟩)
    rw [((h.pauses j hj).later n).2.2, hjn]
    simp
  rw [hwait]
  refine ⟨h.congr rfl rfl ?_ ?_, rfl, ?_⟩
  · have hparts : (jobs.filter (fun j => OpenJob.rest j != 0) ++ jobs.filter fun j => OpenJob.rest j == 0).Perm
        jobs :=
      List.perm_append_comm.trans (List.filter_append_perm _ jobs)
    have hitems : jobs.map (fun j => (j.item, j.report)) = t.pausing.map fun j => (j.item, j.report) := by
      rw [List.map_map]
      exact List.map_congr_left fun j _ => item_later n j
    rw [hr, List.append_nil, List.append_nil, List.append_nil, ← hitems]
    exact hparts.map _
  · exact fun k hk => hjobs k (List.mem_of_mem_filter hk)
  · have := work_split jobs hjobs
    simp only [work, hr, List.map_nil, List.sum_nil]
    omega

/-! ## The end -/

theorem stepBound_eq (jobs : List OpenJob) : stepBound jobs = (jobs.map plannedWork).sum + 1 := by
  induction jobs with
  | nil => rfl
  | cons j jobs ih =>
    have ih : jobs.foldr (fun j n => 2 * j.ahead.length + 2 + n) 1 = (jobs.map plannedWork).sum + 1 := ih
    rw [stepBound, List.foldr_cons, ih, List.map_cons, List.sum_cons, plannedWork]
    omega

/-- Given as many steps as there is work, a run comes to its end: no job is open, and none can be launched. -/
theorem run_ends (writes : Nat → Option FileFault) {fuel : Nat} (h : Tracks s₀ R t [])
    (hl : t.state.launch? = none) (hf : work t ≤ fuel) :
    Tracks s₀ R (run writes fuel t) [] ∧ (run writes fuel t).state.launch? = none
      ∧ (run writes fuel t).ready = [] ∧ (run writes fuel t).pausing = [] := by
  induction fuel generalizing t with
  | zero =>
    have hw : (t.planned.map plannedWork).sum + (t.pausing.map pausingWork).sum + (t.ready.map readyWork).sum = 0 :=
      Nat.le_zero.1 hf
    refine ⟨h, hl, ?_, ?_⟩
    · show t.ready = []
      cases hr : t.ready with
      | nil => rfl
      | cons j more =>
        have := readyWork_pos j
        rw [hr, List.map_cons, List.sum_cons] at hw
        omega
    · show t.pausing = []
      cases hp : t.pausing with
      | nil => rfl
      | cons j more =>
        have := (h.pauses j (hp ▸ List.mem_cons_self)).work_pos
        rw [hp, List.map_cons, List.sum_cons] at hw
        omega
  | succ fuel ih =>
    unfold Timeline.run
    by_cases hr : t.ready = []
    · by_cases hp : t.pausing = []
      · simpa [hr, hp] using ⟨h, hl⟩
      · obtain ⟨h1, h2, h3⟩ := h.wait hr hp
        rw [hr, List.isEmpty_nil, if_pos rfl, if_neg (by simpa using hp)]
        exact ih h1 (by rw [h2]; exact hl) (by omega)
    · obtain ⟨h1, h2, h3⟩ := h.moment writes hr
      rw [if_neg (by simpa using hr)]
      exact ih h1 h2 (by omega)

/-- The whole run of the jobs of a queue is a history that settles their reports only, and at its end nothing
runs and nothing can be launched. -/
theorem complete_ends (writes : Nat → Option FileFault) (workers interval : Nat) (stopped : Bool) (c : Catalog)
    (jobs : List OpenJob) (hids : (jobs.map (·.item.id)).Nodup) (hown : ∀ j ∈ jobs, j.report.id = j.item.id) :
    ∃ es, History (.start workers interval (jobs.map (·.item)) stopped c) es
        (complete writes (.start workers interval (jobs.map (·.item)) stopped c) jobs).state
      ∧ (∀ e ∈ es, e.Clean ∧ ∀ r ∈ e.report?, r ∈ jobs.map (·.report))
      ∧ (complete writes (.start workers interval (jobs.map (·.item)) stopped c) jobs).state.running = []
      ∧ (complete writes (.start workers interval (jobs.map (·.item)) stopped c) jobs).state.launch? = none := by
  have hstart : Tracks (.start workers interval (jobs.map (·.item)) stopped c) (jobs.map (·.report))
      ⟨.start workers interval (jobs.map (·.item)) stopped c, jobs, [], [], []⟩ [] := by
    refine ⟨⟨[], .start, fun e he => absurd he List.not_mem_nil⟩, ?_, ?_, ?_, ?_, ?_⟩
    · simp [RunState.start, RunState.ahead_take]
    · simp [RunState.start]
    · intro j hj
      rw [List.append_nil, List.append_nil, List.append_nil] at hj
      exact ⟨hown j hj, List.mem_map_of_mem hj⟩
    · simpa using hids
    · exact fun j hj => absurd hj List.not_mem_nil
  obtain ⟨hlaunch, hnone, hwork⟩ := hstart.launch (Nat.le_refl _)
  have hbound :
      work ⟨.start workers interval (jobs.map (·.item)) stopped c, jobs, [], [], []⟩ ≤ stepBound jobs := by
    simp [work, stepBound_eq]
  obtain ⟨ht, hl, hready, hpausing⟩ := run_ends writes hlaunch hnone (Nat.le_trans hwork hbound)
  obtain ⟨es, hes, hR⟩ := ht.reached
  refine ⟨es, hes, hR, ?_, hl⟩
  have hrun := ht.running
  rw [hready, hpausing] at hrun
  exact hrun.eq_nil

end Steps

end Captioning.Timeline
