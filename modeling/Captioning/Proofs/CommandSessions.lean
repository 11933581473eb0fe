import Captioning.Proofs.LogFiles
import Captioning.Proofs.ResumedLogs
/-!
# Commands as sessions

What a command does for one catalog is a session of it (`describeCatalog_session`): it reads and opens the log
of the catalog, its run is one of the histories, and the log that it leaves is the one that the session leaves.
The reports of its run are honest, since no step of a description changes the item that is described
(`Pipeline.keepsItem_standard`). So commands that resume the log of a table, one after another, are sessions that
resume it (`Resumptions.resumedAll`), and no identity comes to be there twice (`Resumptions.nodup`). The program
resumes a table by such a command (`Resumptions.describeTable`).
-/

namespace Captioning

open RunState (History)
open RunEvent (reportsIn storedIn attemptsIn)
open RecordLog (accepted acknowledged heldAt bytesOf)

/-! ## Jobs keep to their item -/

/-- A step leaves the item of a job as it is. -/
def Step.KeepsItem (s : Step) : Prop :=
  ∀ c d r, (s.apply c).result = .ok (d, r) → d.item = c.item

namespace Step

theorem KeepsItem.recorded {s : Step} (h : s.KeepsItem) : s.recorded.KeepsItem := by
  intro c d r hr
  cases hx : (s.apply c).result with
  | error e => simp [Step.recorded, hx, Except.map] at hr
  | ok x =>
    obtain ⟨d', r'⟩ := x
    simp only [Step.recorded, hx, Except.map, Except.ok.injEq, Prod.mk.injEq] at hr
    rw [← hr.1]
    exact h c d' r' hx

/-- A step that hands on a context hands on its item. -/
theorem item_of_value {x : JobContext × Except ItemFault Flow} {c d : JobContext} {r : Except ItemFault Flow}
    (h : (Timed.value x).result = .ok (d, r)) (hx : x.1.item = c.item) : d.item = c.item := by
  have hxd : x = (d, r) := Except.ok.inj h
  rw [← hx, hxd]

theorem keepsItem_locate (locator : Locator) : (locate locator).KeepsItem := by
  intro c d r hr
  obtain ⟨answer, -, hx⟩ := Timed.result_andThen.1 hr
  split at hx <;> exact item_of_value hx rfl

theorem keepsItem_sample (table : SamplerTable Sampler) (settings : SampleSettings) :
    (sample table settings).KeepsItem := by
  intro c d r hr
  unfold sample at hr
  dsimp only at hr
  split at hr
  · -- no media was located
    exact item_of_value hr rfl
  · split at hr
    · -- nothing samples the format
      exact item_of_value hr rfl
    · obtain ⟨answer, -, hx⟩ := Timed.result_andThen.1 hr
      split at hx <;> exact item_of_value hx rfl

theorem keepsItem_describe (client : Client) : (describe client).KeepsItem := by
  intro c d r hr
  unfold describe at hr
  dsimp only at hr
  split at hr
  · -- no frames were sampled
    exact item_of_value hr rfl
  · obtain ⟨answer, -, hx⟩ := Timed.result_andThen.1 hr
    split at hx <;> exact item_of_value hx rfl

end Step

namespace Pipeline

/-- No step of a description changes the item. -/
theorem keepsItem_standard (locator : Locator) (table : SamplerTable Sampler) (settings : SampleSettings)
    (client : Client) : ∀ s ∈ standard locator table settings client, s.KeepsItem := by
  intro s hs
  simp only [standard, List.mem_cons, List.not_mem_nil, or_false] at hs
  rcases hs with rfl | rfl | rfl
  · exact (Step.keepsItem_locate locator).recorded
  · exact (Step.keepsItem_sample table settings).recorded
  · exact (Step.keepsItem_describe client).recorded

/-- Steps that keep the item lead to no record but one of it. -/
theorem id_of_process {now : Instant} {steps : Pipeline} (h : ∀ s ∈ steps, s.KeepsItem) {c d : JobContext}
    {record : Record} (hr : (process now steps c).result = .ok (d, .success record)) : record.id = c.item.id := by
  induction steps generalizing c with
  | nil =>
    have hc : conclude now c = (d, .success record) := Except.ok.inj hr
    unfold conclude at hc
    split at hc
    · obtain ⟨-, ho⟩ := Prod.mk.inj hc
      rw [← Outcome.success.inj ho]
      rfl
    · cases (Prod.mk.inj hc).2
  | cons s steps ih =>
    obtain ⟨⟨c', r⟩, hs, hr⟩ := Timed.result_andThen.1 hr
    have hitem := h s List.mem_cons_self c c' r hs
    dsimp only at hr
    split at hr
    · rw [ih (fun t ht => h t (List.mem_cons_of_mem s ht)) hr, hitem]
    · cases (Prod.mk.inj (Except.ok.inj hr)).2
    · cases (Prod.mk.inj (Except.ok.inj hr)).2

end Pipeline

/-- A job whose steps keep the item brings a record of it, if any. -/
theorem Report.honest_ofJob {now : Instant} {pipeline : Pipeline} (h : ∀ s ∈ pipeline, s.KeepsItem)
    {deadline : Option Span} {number : Nat} {item : Item} {record : Record}
    (hr : (ofJob now pipeline deadline number item).2.outcome = .success record) :
    record.id = (ofJob now pipeline deadline number item).2.id := by
  have hresult : ∀ {result : Except String (Option (JobContext × Outcome))},
      (ofResult number item pipeline deadline result).outcome = .success record →
      ∃ d, result = .ok (some (d, .success record)) := by
    intro result ho
    unfold ofResult at ho
    split at ho
    · next d o => exact ⟨d, by rw [← show o = .success record from ho]⟩
    · cases ho
    · cases ho
  rw [id_ofJob]
  unfold ofJob at hr
  dsimp only at hr
  obtain ⟨d, hd⟩ := hresult hr
  cases deadline with
  | some limit => exact Pipeline.id_of_process h (Timed.result_within hd)
  | none =>
    dsimp only at hd
    cases hx : (pipeline.process now (.new item)).result with
    | error e => simp [hx, Except.map] at hd
    | ok x =>
      rw [hx] at hd
      obtain rfl := Option.some.inj (Except.ok.inj hd)
      exact Pipeline.id_of_process h hx

/-! ## Describing a catalog -/

namespace Session

/-- A session without scraps adds the lines of the records that were stored. -/
theorem Clean.after_eq {v : Session} (hc : v.Clean) (log : Bytes) :
    v.after log = opened v.mode log ++ ((storedIn v.events).map Prod.snd).flatMap bytesOf := by
  rw [after, RecordLog.accepted_of_cut hc.cut_attempts, hc.attempts_eq, RunEvent.acknowledged_attemptsIn]

/-- The session of a plan, with what happens in it. -/
def ofPlan (p : RunPlan) (mode : OpenMode) (events : List RunEvent) (state : RunState) : Session where
  mode := mode
  workers := p.settings.workers
  interval := p.settings.progressInterval
  limit := p.limit
  force := p.force
  stopped := false
  events := events
  state := state
  crash := none

end Session

namespace Command

/-- What is left out of a run is what a session reads from the log. -/
theorem skipFor_of_skipSetFor {t : FileTree} {output : String} {mode : OpenMode} {log : Bytes} {skip : SkipSet}
    {notices : List String} (hl : heldAt t output = some log)
    (h : skipSetFor t output mode = .ok (skip, notices)) : Session.skipFor mode log = .ok skip := by
  cases mode with
  | extend => exact RecordLog.skipFor_of_loadSkipSet hl h
  | truncate =>
    obtain ⟨rfl, -⟩ := Prod.mk.inj (Except.ok.inj h)
    rfl

/-- A plan differs between files in its pipeline alone, which is the standard one. -/
theorem exists_planFor [Image.Library] {z : Surroundings} {s : Settings} {limits : RunLimits} {force : Bool}
    {t : FileTree} {plan : FileTree → RunPlan} (h : planFor z s limits force t = .ok plan) :
    ∃ key fetcher, plan = fun u => ⟨{ s with workers := limits.workers.getD s.workers },
      some (pipeline z s key fetcher u), limits.limit, force⟩ := by
  obtain ⟨key, -, h⟩ := bind_eq_ok.1 h
  obtain ⟨fetcher, -, h⟩ := bind_eq_ok.1 h
  obtain ⟨_, -, h⟩ := bind_eq_ok.1 h
  exact ⟨key, fetcher, (Except.ok.inj h).symm⟩

/-- The plans of the program have steps that keep the item, and describe again what they are told to. -/
theorem planFor_eq_ok [Image.Library] {z : Surroundings} {s : Settings} {limits : RunLimits} {force : Bool} {t : FileTree}
    {plan : FileTree → RunPlan} (h : planFor z s limits force t = .ok plan) (u : FileTree) :
    (∀ step ∈ (plan u).pipeline.getD [], step.KeepsItem) ∧ (plan u).force = force := by
  obtain ⟨key, fetcher, rfl⟩ := exists_planFor h
  exact ⟨Pipeline.keepsItem_standard _ _ _ _, rfl⟩

/-- A catalog is described by the run of the plan: the log is read and opened, the run is over, its records are
written, and the marks are stored. -/
theorem describeCatalog_eq_ok {z : Surroundings} {plan : FileTree → RunPlan} {c : Catalog} {output : String}
    {mode : OpenMode} {p q : Progression} {r : RunResult}
    (h : describeCatalog z plan c output mode p = (q, .ok r)) :
    ∃ skip skipNotices t log logNotices u log', skipSetFor p.files output mode = .ok (skip, skipNotices)
      ∧ RecordLog.openAt p.files output mode = .ok (t, log, logNotices)
      ∧ r = (plan t).run z.now ((plan t).pipeline.getD []) c skip (fun _ => none) false
      ∧ writeRecords t log r.written = .ok (u, log') ∧ r.catalog.save u = (q.files, .ok ()) := by
  unfold describeCatalog at h
  split at h
  · cases (Prod.mk.inj h).2
  · next skip skipNotices hskip =>
    dsimp only at h
    split at h
    · cases (Prod.mk.inj h).2
    · next t log logNotices hopen =>
      split at h
      · cases (Prod.mk.inj h).2
      · next u log' hwrite =>
        split at h
        · next hsaved =>
          obtain ⟨hq, hr⟩ := Prod.mk.inj h
          obtain rfl := Except.ok.inj hr
          refine ⟨skip, skipNotices, t, log, logNotices, u, log', hskip, hopen, rfl, hwrite, ?_⟩
          rw [← hq]
          exact Prod.ext rfl hsaved
        · cases (Prod.mk.inj h).2

/-- A catalog is not described when the log cannot be read or opened, or the marks cannot be stored. -/
theorem describeCatalog_eq_error {z : Surroundings} {plan : FileTree → RunPlan} {c : Catalog} {output : String}
    {mode : OpenMode} {p q : Progression} {f : SetupFault}
    (h : describeCatalog z plan c output mode p = (q, .error f)) :
    skipSetFor p.files output mode = .error f ∧ q.files = p.files
      ∨ RecordLog.openAt p.files output mode = .error f ∧ q.files = p.files
      ∨ ∃ skip t log notices, RecordLog.openAt p.files output mode = .ok (t, log, notices) ∧
        let r := (plan t).run z.now ((plan t).pipeline.getD []) c skip (fun _ => none) false
        ∃ u log' g, writeRecords t log r.written = .ok (u, log') ∧ r.catalog.save u = (q.files, .error g)
          ∧ f = .catalog g := by
  unfold describeCatalog at h
  split at h
  · next hskip =>
    obtain ⟨rfl, hf⟩ := Prod.mk.inj h
    obtain rfl := Except.error.inj hf
    exact .inl ⟨hskip, rfl⟩
  · next skip skipNotices hskip =>
    dsimp only at h
    split at h
    · next hopen =>
      obtain ⟨rfl, hf⟩ := Prod.mk.inj h
      obtain rfl := Except.error.inj hf
      exact .inr (.inl ⟨hopen, rfl⟩)
    · next t log notices hopen =>
      refine .inr (.inr ⟨skip, t, log, notices, hopen, ?_⟩)
      split at h
      · next g hwrite =>
        obtain ⟨u, log', hok⟩ := RecordLog.writeRecords_of_openAt hopen
          ((plan t).run z.now ((plan t).pipeline.getD []) c skip (fun _ => none) false).written
        cases hwrite.symm.trans hok
      · next u log' hwrite =>
        split at h
        · cases (Prod.mk.inj h).2
        · next g hsaved =>
          obtain ⟨hq, hf⟩ := Prod.mk.inj h
          refine ⟨u, log', g, hwrite, ?_, (Except.error.inj hf).symm⟩
          rw [← hq]
          exact Prod.ext rfl hsaved

/-- A catalog is described by the run of the plan, which is a session of the catalog that comes to its end: the log
that it leaves is what the session makes of it, and the marks are stored after that. -/
theorem describeCatalog_ofPlan {z : Surroundings} {plan : FileTree → RunPlan} {c : Catalog} {output : String}
    {mode : OpenMode} {p q : Progression} {r : RunResult} {log : Bytes}
    (h : describeCatalog z plan c output mode p = (q, .ok r)) (hl : heldAt p.files output = some log)
    (hkeeps : ∀ t, ∀ s ∈ (plan t).pipeline.getD [], s.KeepsItem) :
    ∃ (t u : FileTree) (skip : SkipSet) (es : List RunEvent),
      let s := (plan t).final z.now ((plan t).pipeline.getD []) c skip (fun _ => none) false
      let v := Session.ofPlan (plan t) mode es s
      r = (plan t).run z.now ((plan t).pipeline.getD []) c skip (fun _ => none) false
      ∧ v.Goes c log skip ∧ v.Clean ∧ s.running = [] ∧ s.launch? = none
      ∧ heldAt u output = some (v.after log) ∧ r.catalog.save u = (q.files, .ok ()) := by
  obtain ⟨skip, _, t, opened, _, u, log', hskip, hopen, rfl, hwrite, hsave⟩ := describeCatalog_eq_ok h
  obtain ⟨hheld, hpath⟩ := RecordLog.heldAt_openAt hl hopen
  obtain ⟨es, hes, hevents, hrun, hlaunch⟩ :=
    (plan t).run_ends z.now ((plan t).pipeline.getD []) c skip (fun _ => none) false
  let v := Session.ofPlan (plan t) mode es
    ((plan t).final z.now ((plan t).pipeline.getD []) c skip (fun _ => none) false)
  have hgoes : v.Goes c log skip := {
    read := skipFor_of_skipSetFor hl hskip
    history := hes
    honest := by
      intro e he r hr record ho
      obtain ⟨j, hj, rfl⟩ := (hevents e he).2 r hr
      obtain ⟨⟨i, n⟩, -, rfl⟩ := List.mem_map.1 hj
      exact Report.honest_ofJob (hkeeps t) ho
    crash := fun x hx => nomatch hx }
  have hclean : v.Clean := ⟨rfl, fun e he => (hevents e he).1⟩
  have hafter : heldAt u output = some (v.after log) := by
    rw [← hpath] at hheld
    have hw := RecordLog.heldAt_writeRecords hheld hwrite
    rw [hpath, RunPlan.written_run] at hw
    rw [hclean.after_eq, ← hgoes.accounted.written]
    exact hw
  exact ⟨t, u, skip, es, rfl, hgoes, hclean, hrun, hlaunch, hafter, hsave⟩

/-- A catalog is described in a session of it that comes to its end: the log that it leaves is what the session
makes of it, and the marks are stored after that. -/
theorem describeCatalog_session {z : Surroundings} {plan : FileTree → RunPlan} {c : Catalog} {output : String}
    {mode : OpenMode} {p q : Progression} {r : RunResult} {log : Bytes}
    (h : describeCatalog z plan c output mode p = (q, .ok r)) (hl : heldAt p.files output = some log)
    (hkeeps : ∀ t, ∀ s ∈ (plan t).pipeline.getD [], s.KeepsItem) :
    ∃ (t : FileTree) (v : Session) (skip : SkipSet), v.mode = mode ∧ (∃ u, v.force = (plan u).force)
      ∧ v.Goes c log skip ∧ v.Clean ∧ v.state.running = [] ∧ v.state.launch? = none
      ∧ r.catalog = v.state.account.catalog ∧ r.summary.counters = v.state.account.counters
      ∧ heldAt t output = some (v.after log) ∧ r.catalog.save t = (q.files, .ok ()) := by
  obtain ⟨t, u, skip, es, rfl, hgoes, hclean, hrun, hlaunch, hafter, hsave⟩ := describeCatalog_ofPlan h hl hkeeps
  exact ⟨u, _, skip, rfl, ⟨t, rfl⟩, hgoes, hclean, hrun, hlaunch, rfl, rfl, hafter, hsave⟩

/-! ## Resuming the log of a table -/

/-- Commands that resume the log of a table, one after another, each with its own surroundings and plan, and come
to their end. -/
inductive Resumptions (t : Table) (output : String) (f₀ : FileTree) : FileTree → Prop
  | start : Resumptions t output f₀ f₀
  | step {z : Surroundings} {plan : FileTree → RunPlan} {p q : Progression} {r : RunResult}
    (h : Resumptions t output f₀ p.files) (hkeeps : ∀ u, ∀ s ∈ (plan u).pipeline.getD [], s.KeepsItem)
    (hforce : ∀ u, (plan u).force = false)
    (hd : describeCatalog z plan (.table t) output .extend p = (q, .ok r)) : Resumptions t output f₀ q.files

section Tables

variable {t : Table} {output : String} {f₀ f : FileTree} {log₀ : Bytes}

theorem Resumptions.resumedAll (h : Resumptions t output f₀ f) (hl : heldAt f₀ output = some log₀) :
    ∃ vs log, ResumedAll t log₀ vs log ∧ (∀ v ∈ vs, v.Clean) ∧ heldAt f output = some log := by
  induction h with
  | start => exact ⟨[], log₀, .start, fun v hv => absurd hv List.not_mem_nil, hl⟩
  | step _ hkeeps hforce hd ih =>
    obtain ⟨vs, log, hvs, hclean, hlog⟩ := ih
    obtain ⟨u, v, skip, hm, ⟨w, hf⟩, hgoes, hc, -, -, hcat, -, hafter, hsave⟩ :=
      describeCatalog_session hd hlog hkeeps
    refine ⟨vs ++ [v], v.after log, hvs.step (.went hm (hf.trans (hforce w)) hgoes), ?_, ?_⟩
    · exact List.forall_mem_append.2 ⟨hclean, List.forall_mem_singleton.2 hc⟩
    · -- the marks of a table are stored nowhere
      obtain ⟨t', ht⟩ := Catalog.exists_table_marks ((storedIn v.events).map Prod.fst) t
      rw [hcat, hgoes.accounted.catalog, ht] at hsave
      rw [← (Prod.mk.inj hsave).1]
      exact hafter

theorem Resumptions.nodup (h : Resumptions t output f₀ f) (hl : heldAt f₀ output = some log₀)
    (hn : (RecordLog.identities log₀).Nodup) :
    ∃ log, heldAt f output = some log ∧ (RecordLog.identities log).Nodup := by
  obtain ⟨vs, log, hvs, -, hlog⟩ := h.resumedAll hl
  exact ⟨log, hlog, hvs.nodup hn⟩

/-- The program describes a table so when it is told to resume. -/
theorem Resumptions.describeTable [Image.Library] {z : Surroundings} {s : Settings} {path : String} {limits : RunLimits}
    {p q : Progression} (hd : Command.describeTable z s path output true limits p = (q, .ok ()))
    (ht : ∃ notices, loadTable s p.files path = .ok (t, notices)) (h : Resumptions t output f₀ p.files) :
    Resumptions t output f₀ q.files := by
  obtain ⟨notices, ht⟩ := ht
  unfold Command.describeTable at hd
  split at hd
  · cases (Prod.mk.inj hd).2
  · next loaded notices' plan hload =>
    obtain ⟨⟨t', n⟩, hl, hload⟩ := bind_eq_ok.1 hload
    obtain ⟨plan', hplan, hload⟩ := bind_eq_ok.1 hload
    obtain ⟨rfl, hrest⟩ := Prod.mk.inj (Except.ok.inj hload)
    obtain ⟨rfl, rfl⟩ := Prod.mk.inj hrest
    obtain ⟨rfl, -⟩ := Prod.mk.inj (Except.ok.inj (hl.symm.trans ht))
    dsimp only at hd
    cases hc : describeCatalog z plan' (.table t') output .extend
        { p with notices := p.notices ++ n } with
    | mk q' r =>
      rw [if_pos rfl, hc] at hd
      obtain ⟨rfl, hr⟩ := Prod.mk.inj hd
      cases r with
      | error f => cases hr
      | ok r =>
        exact .step (p := { p with notices := p.notices ++ n }) h (fun u => (planFor_eq_ok hplan u).1)
          (fun u => (planFor_eq_ok hplan u).2) hc

end Tables

end Command

end Captioning
