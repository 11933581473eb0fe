import Captioning.Proofs.CommandSessions
import Captioning.Proofs.FetchedMedia
import Captioning.Proofs.RunAccounts
/-!
# Removed items

To settle the report of a removal adds one to the count of removals and to nothing else (`Account.settle_removed`), so
along every history of a run the removals are those reports, and failures are others (`History.removals`). Without a
deadline the jobs that report a removal are those of items whose media was taken down. So a run counts just these as
removed, and they are not among its failures, have no record and keep their flags (`removed_before_failed`).
-/

namespace Captioning

open RunState (History Step)
open RunEvent (launchedIn reportsIn storedIn)

/-! ## Settling a removal -/

/-- A removal is reported. -/
def Report.isRemoved (r : Report) : Bool :=
  match r.outcome with
  | .removed => true
  | _ => false

theorem Report.isRemoved_iff {r : Report} : r.isRemoved = true ↔ r.outcome = .removed := by
  unfold isRemoved
  cases r.outcome <;> simp

theorem Account.settle_removed {r : Report} (h : r.outcome = .removed) (interval scheduled : Nat)
    (write : Option FileFault) (a : Account) :
    ∃ progress, a.settle interval scheduled write r = { a with
      counters := { a.counters with removed := a.counters.removed + 1 }
      progress := a.progress ++ progress } :=
  ⟨_, by rw [settle, h]; rfl⟩

/-- Any report adds to the count of removals if it is one, and else perhaps a failure of its item. -/
theorem Account.settle_adds (interval scheduled : Nat) (write : Option FileFault) (a : Account) (r : Report) :
    (a.settle interval scheduled write r).counters.removed = a.counters.removed + r.isRemoved.toNat
    ∧ ∃ new, (a.settle interval scheduled write r).failures = a.failures ++ new
      ∧ (a.settle interval scheduled write r).counters.failed = a.counters.failed + new.length
      ∧ ∀ x ∈ new, r.id = x.id ∧ r.isRemoved = false := by
  unfold settle
  cases ho : r.outcome with
  | success record =>
    have hr : r.isRemoved = false := by simp [Report.isRemoved, ho]
    rw [hr]
    cases write with
    | none => exact ⟨rfl, [], (List.append_nil _).symm, rfl, fun x hx => nomatch hx⟩
    | some cause => exact ⟨rfl, [_], rfl, rfl, fun x hx => by rw [List.mem_singleton.1 hx]; exact ⟨rfl, rfl⟩⟩
  | removed =>
    have hr : r.isRemoved = true := Report.isRemoved_iff.2 ho
    rw [hr]
    exact ⟨rfl, [], (List.append_nil _).symm, rfl, fun x hx => nomatch hx⟩
  | failed stage fault =>
    have hr : r.isRemoved = false := by simp [Report.isRemoved, ho]
    rw [hr]
    exact ⟨rfl, [_], rfl, rfl, fun x hx => by rw [List.mem_singleton.1 hx]; exact ⟨rfl, rfl⟩⟩

namespace RunState

/-- Removals are counted, and failures are counted and kept, as they were reported. -/
structure Removals (es : List RunEvent) (s : RunState) : Prop where
  removed : s.account.counters.removed = (reportsIn es).countP Report.isRemoved
  failed : s.account.counters.failed = s.account.failures.length
  failures : ∀ x ∈ s.account.failures, ∃ r ∈ reportsIn es, r.id = x.id ∧ r.isRemoved = false

variable {es : List RunEvent} {s s' : RunState} {e : RunEvent}

theorem Removals.congr {es' : List RunEvent} (h : Removals es s) (hreports : reportsIn es' = reportsIn es)
    (haccount : s'.account = s.account) : Removals es' s' where
  removed := by rw [haccount, hreports, h.removed]
  failed := by rw [haccount, h.failed]
  failures := by rw [haccount, hreports]; exact h.failures

theorem Removals.settle (h : Removals es s) (r : Report) (fault : Option (FileFault × Nat)) :
    Removals (es ++ [.settled r fault]) (s.finish (fault.map Prod.fst) r) := by
  have hreports : reportsIn (es ++ [.settled r fault]) = reportsIn es ++ [r] := RunEvent.reportsIn_append es _
  obtain ⟨hremoved, new, hfailures, hfailed, hnew⟩ :=
    s.account.settle_adds s.interval s.scheduled (fault.map Prod.fst) r
  constructor
  case removed =>
    rw [hreports, List.countP_append, List.countP_singleton, ← h.removed]
    refine hremoved.trans ?_
    cases r.isRemoved <;> rfl
  case failed =>
    refine hfailed.trans ?_
    rw [h.failed, ← List.length_append, ← hfailures]
    rfl
  case failures =>
    intro x hx
    have hx : x ∈ s.account.failures ++ new := hfailures ▸ hx
    rw [hreports]
    rcases List.mem_append.1 hx with hx | hx
    · obtain ⟨q, hq, hqx⟩ := h.failures x hx
      exact ⟨q, List.mem_append_left _ hq, hqx⟩
    · exact ⟨r, List.mem_append_right _ List.mem_cons_self, hnew x hx⟩

theorem Removals.step (h : Removals es s) (hs : Step s e s') : Removals (es ++ [e]) s' := by
  cases hs with
  | launch hl => exact h.congr (by simp [reportsIn, RunEvent.report?]) (launched_of_launch? hl).account
  | settle hi hr fault => exact h.settle _ fault
  | stop => exact h.congr (by simp [reportsIn, RunEvent.report?]) rfl

theorem History.removals {workers interval : Nat} {queue : List Item} {stopped : Bool} {c : Catalog}
    (h : History (.start workers interval queue stopped c) es s) : Removals es s := by
  induction h with
  | start => exact ⟨by simp [RunState.start, Account.start, Counters.zero, reportsIn],
      by simp [RunState.start, Account.start, Counters.zero], by simp [RunState.start, Account.start]⟩
  | step _ hs ih => exact ih.step hs

end RunState

/-! ## Runs without a deadline -/

namespace RunPlan

variable {f : Fetcher} {files : FileTree} {w : PipelineParts} {p : RunPlan} {c : Catalog} {skip : SkipSet} {now : Instant}
  {i : Item} {j : OpenJob}

theorem eq_of_id_eq {k : Item} (hi : i ∈ p.queue c skip) (hk : k ∈ p.queue c skip) (h : i.id = k.id) : i = k :=
  List.inj_on_of_nodup_map (p.nodup_queue c skip) hi hk h

/-- Without a deadline a job reports a removal exactly if the media of its item was taken down. -/
theorem isRemoved_report (hw : w.locator = Locator.any f files) (hp : p.settings.jobTimeoutSeconds = none)
    {queue : List Item} (hj : j ∈ p.jobs now w.pipeline queue) :
    j.item ∈ queue ∧ j.report.isRemoved = decide (f.TakenDown j.item) := by
  refine ⟨p.item_jobs now w.pipeline queue ▸ List.mem_map_of_mem hj, ?_⟩
  obtain ⟨⟨i, n⟩, -, rfl⟩ := List.mem_map.1 hj
  have hnone : p.settings.jobTimeout = none := by rw [Settings.jobTimeout, hp]; rfl
  rw [Bool.eq_iff_iff, Report.isRemoved_iff, decide_eq_true_iff]
  show (Report.ofJob now w.pipeline p.settings.jobTimeout n i).2.outcome = .removed ↔ f.TakenDown i
  rw [hnone, w.removed_ofJob_iff hw]
  exact and_iff_right fun limit hlimit => nomatch hlimit

/-- A run of a plan that has come to its end, and whose reports are of items that were scheduled: a removal where the media
was taken down, and a record of the item otherwise, if one at all. -/
structure Ends (p : RunPlan) (f : Fetcher) (c : Catalog) (skip : SkipSet) (stopped : Bool) (es : List RunEvent)
    (s : RunState) : Prop where
  history : History (p.start c skip stopped) es s
  idle : s.running = []
  reports : ∀ r ∈ reportsIn es, ∃ i ∈ p.queue c skip, r.id = i.id ∧ r.isRemoved = decide (f.TakenDown i)
  honest : ∀ e ∈ es, e.Honest

theorem exists_ends (hw : w.locator = Locator.any f files) (hp : p.settings.jobTimeoutSeconds = none)
    (writes : Nat → Option FileFault) (stopped : Bool) :
    ∃ es, p.Ends f c skip stopped es (p.final now w.pipeline c skip writes stopped) := by
  obtain ⟨es, hes, hevents, hidle, -⟩ := p.run_ends now w.pipeline c skip writes stopped
  refine ⟨es, hes, hidle, fun r hr => ?_, fun e he r hr record ho => ?_⟩
  · obtain ⟨e, he, hr⟩ := List.mem_filterMap.1 hr
    obtain ⟨j, hj, rfl⟩ := (hevents e he).2 r hr
    obtain ⟨hitem, hremoved⟩ := isRemoved_report hw hp hj
    exact ⟨j.item, hitem, id_jobs hj, hremoved⟩
  · obtain ⟨j, hj, rfl⟩ := (hevents e he).2 r hr
    obtain ⟨⟨i, n⟩, -, rfl⟩ := List.mem_map.1 hj
    exact Report.honest_ofJob (Pipeline.keepsItem_standard _ _ _ _) ho

section

variable {stopped : Bool} {es : List RunEvent} {s : RunState}

theorem Ends.accounted (h : p.Ends f c skip stopped es s) : RunState.Accounted (p.queue c skip) c es s :=
  h.history.accounted (RunState.accounted_start _ _ _ _ c)

/-- The report about an item that was scheduled tells whether its media was taken down. -/
theorem Ends.isRemoved_iff (h : p.Ends f c skip stopped es s) {r : Report} (hr : r ∈ reportsIn es)
    (hi : i ∈ p.queue c skip) (hid : r.id = i.id) : r.isRemoved = true ↔ f.TakenDown i := by
  obtain ⟨k, hk, hrk, hremoved⟩ := h.reports r hr
  obtain rfl := eq_of_id_eq hi hk (hid.symm.trans hrk)
  rw [hremoved, decide_eq_true_iff]

/-- As many removals are counted as items were launched whose media was taken down. -/
theorem Ends.removed (h : p.Ends f c skip stopped es s) :
    s.account.counters.removed = (launchedIn es).countP fun i => f.TakenDown i := by
  -- reports and items are matched by their identities
  let removes : String → Bool := fun id => (p.queue c skip).any fun i => i.id == id && decide (f.TakenDown i)
  have hremoves : ∀ i ∈ p.queue c skip, removes i.id = true ↔ f.TakenDown i := by
    intro i hi
    simp only [removes, List.any_eq_true, Bool.and_eq_true, beq_iff_eq, decide_eq_true_iff]
    constructor
    · rintro ⟨k, hk, hid, ht⟩
      exact eq_of_id_eq hk hi hid ▸ ht
    · exact fun ht => ⟨i, hi, rfl, ht⟩
  have hlaunched : ∀ i ∈ launchedIn es, i ∈ p.queue c skip := by
    intro i hi
    rw [← h.accounted.order]
    exact List.mem_append_left _ hi
  have hjobs := h.accounted.jobs
  rw [h.idle, List.map_nil, List.append_nil] at hjobs
  calc s.account.counters.removed
      = (reportsIn es).countP Report.isRemoved := h.history.removals.removed
    _ = ((reportsIn es).map (·.id)).countP removes := by
        rw [List.countP_map]
        refine List.countP_congr fun r hr => ?_
        obtain ⟨i, hi, hid, -⟩ := h.reports r hr
        rw [Function.comp_apply, hid, hremoves i hi]
        exact h.isRemoved_iff hr hi hid
    _ = ((launchedIn es).map (·.id)).countP removes := (hjobs.countP_eq removes).symm
    _ = (launchedIn es).countP fun i => f.TakenDown i := by
        rw [List.countP_map]
        refine List.countP_congr fun i hi => ?_
        rw [Function.comp_apply, hremoves i (hlaunched i hi), decide_eq_true_iff]

/-- An item whose media was taken down is not among the failures. -/
theorem Ends.notMem_failures (h : p.Ends f c skip stopped es s) (hi : i ∈ p.queue c skip) (ht : f.TakenDown i) :
    ∀ x ∈ s.account.failures, x.id ≠ i.id := by
  intro x hx hid
  obtain ⟨r, hr, hrx, hremoved⟩ := h.history.removals.failures x hx
  rw [(h.isRemoved_iff hr hi (hrx.trans hid)).2 ht] at hremoved
  cases hremoved

/-- No record of it is stored. -/
theorem Ends.notMem_stored (h : p.Ends f c skip stopped es s) (hi : i ∈ p.queue c skip) (ht : f.TakenDown i) :
    i.id ∉ (storedIn es).map Prod.fst := by
  intro hm
  obtain ⟨x, hx, hid⟩ := List.mem_map.1 hm
  obtain ⟨e, he, hs⟩ := List.mem_filterMap.1 hx
  obtain ⟨r, hr, hrx, ho⟩ := RunEvent.report_of_stored? hs
  have hmem : r ∈ reportsIn es := List.mem_filterMap.2 ⟨e, he, hr⟩
  have hremoved := Report.isRemoved_iff.1 ((h.isRemoved_iff hmem hi (hrx.trans hid)).2 ht)
  cases hremoved.symm.trans ho

theorem Ends.notMem_written (h : p.Ends f c skip stopped es s) (hi : i ∈ p.queue c skip) (ht : f.TakenDown i) :
    ∀ q ∈ s.account.written, q.id ≠ i.id := by
  intro q hq hid
  rw [h.accounted.written] at hq
  obtain ⟨x, hx, rfl⟩ := List.mem_map.1 hq
  rw [RunEvent.id_of_storedIn h.honest hx] at hid
  exact h.notMem_stored hi ht (hid ▸ List.mem_map_of_mem hx)

/-- The items of its identity are left as they were. -/
theorem Ends.items_eq (h : p.Ends f c skip stopped es s) (hi : i ∈ p.queue c skip) (ht : f.TakenDown i) {n : Nat}
    {k : Item} (hk : c.items[n]? = some k) (hid : k.id = i.id) : s.account.catalog.items[n]? = some k := by
  rw [h.accounted.catalog]
  obtain ⟨k', hk', hmarked⟩ := (Catalog.marks_change _ c).2 n k hk
  rw [hk']
  exact congrArg some (hmarked.resolve_right fun hm => h.notMem_stored hi ht (hid ▸ hm.1))

/-- What was launched is a front of what was scheduled, and all of it unless the run was interrupted. -/
theorem Ends.launched (h : p.Ends f c skip stopped es s) : launchedIn es <+: p.queue c skip
    ∧ s.account.counters.completed = (launchedIn es).length
    ∧ (¬ s.account.counters.completed < (p.queue c skip).length → launchedIn es = p.queue c skip) := by
  have hfront : launchedIn es <+: p.queue c skip := ⟨_, h.accounted.order⟩
  have hlength := h.accounted.length_jobs
  rw [h.idle, List.length_nil, Nat.add_zero, ← h.accounted.completed] at hlength
  refine ⟨hfront, hlength.symm, fun hall => hfront.eq_of_length_le ?_⟩
  omega

end

/-- A run has counted the items whose media was taken down as removed, and has done nothing else about them. -/
structure CountsRemoved (p : RunPlan) (f : Fetcher) (c : Catalog) (skip : SkipSet) (r : RunResult) : Prop where
  /-- Of the items that were dealt with, all of them unless the run was interrupted, just those count as removed, -/
  counted : ∃ done, done <+: p.queue c skip ∧ (r.summary.interrupted = false → done = p.queue c skip)
    ∧ r.summary.counters.completed = done.length ∧ r.summary.counters.removed = done.countP fun i => f.TakenDown i
  /-- and failures are of other items. -/
  failed : r.summary.counters.failed = r.failures.length
  failures : ∀ i ∈ p.queue c skip, f.TakenDown i → ∀ x ∈ r.failures, x.id ≠ i.id
  records : ∀ i ∈ p.queue c skip, f.TakenDown i → ∀ q ∈ r.written, q.id ≠ i.id
  flags : ∀ i ∈ p.queue c skip, f.TakenDown i → ∀ (n : Nat) k, c.items[n]? = some k → k.id = i.id →
    r.catalog.items[n]? = some k

theorem countsRemoved_run (hw : w.locator = Locator.any f files) (hp : p.settings.jobTimeoutSeconds = none)
    (now : Instant) (c : Catalog) (skip : SkipSet) (writes : Nat → Option FileFault) (stopped : Bool) :
    p.CountsRemoved f c skip (p.run now w.pipeline c skip writes stopped) := by
  obtain ⟨es, hends⟩ := p.exists_ends hw hp writes stopped
  obtain ⟨hfront, hcompleted, hall⟩ := hends.launched
  exact {
    counted := ⟨launchedIn es, hfront, fun h => hall (of_decide_eq_false h), hcompleted, hends.removed⟩
    failed := hends.history.removals.failed
    failures := fun i hi ht => hends.notMem_failures hi ht
    records := fun i hi ht => hends.notMem_written hi ht
    flags := fun i hi ht n k hk hid => hends.items_eq hi ht hk hid }

end RunPlan

/-- Whether media was removed is decided before anything else can fail. A fetch comes to what its request does, and each
outcome has its one cause: a notice is a removal whatever its status or body. No job of a file ends with a removal. The
report of an item whose media was taken down adds one to the removals and changes nothing else, and a run without a
deadline counts just these items as removed: they do not fail, have no record and keep their flags. -/
theorem removed_before_failed (f : Fetcher) (files : FileTree) :
    (∀ url, (∀ text, (f.fetch url).result = .error text ↔ (f.sent url).result = .error text)
      ∧ ∀ x, (f.sent url).result = .ok x → ∃ y, (f.fetch url).result = .ok y
        ∧ Fetcher.Classified f.markers (Address.relocate f.relocations url) x y)
    ∧ ∀ w : PipelineParts, w.locator = Locator.any f files →
      (∀ now deadline number i, i.source.isRemote = false →
        (Report.ofJob now w.pipeline deadline number i).2.outcome ≠ .removed)
      ∧ (∀ now number i, f.TakenDown i → ∀ interval scheduled write (a : Account), ∃ progress,
        a.settle interval scheduled write (Report.ofJob now w.pipeline none number i).2 = { a with
          counters := { a.counters with removed := a.counters.removed + 1 }
          progress := a.progress ++ progress })
      ∧ ∀ p : RunPlan, p.settings.jobTimeoutSeconds = none → ∀ now c skip writes stopped,
        p.CountsRemoved f c skip (p.run now w.pipeline c skip writes stopped) := by
  refine ⟨fun url => ⟨fun text => ?_, fun x hx => ?_⟩, fun w hw => ⟨fun now deadline number i hlocal hout => ?_,
    fun now number i ht interval scheduled write a => ?_, fun p hp => RunPlan.countsRemoved_run hw hp⟩⟩
  · rw [f.result_fetch]
    cases (f.sent url).result <;> simp [Except.map]
  · exact ⟨_, by rw [f.result_fetch, hx]; rfl, Fetcher.classified_classify _ _ _⟩
  · have ht := ((w.removed_ofJob_iff hw now deadline number i).1 hout).2
    exact Bool.false_ne_true (hlocal.symm.trans ht.isRemote)
  · exact Account.settle_removed ((w.removed_ofJob_iff hw now none number i).2 ⟨fun _ h => (nomatch h), ht⟩) _ _ _ _

/-! ## A notice that reports a failure -/

namespace BrokenNotice

def item : Item :=
  .new "https://38.media.tumblr.com/a.gif" (.remote "https://38.media.tumblr.com/a.gif") .imageSequence

/-- A notice whose status reports a failure, and whose body breaks off. -/
def reply : Reply :=
  ⟨"https://assets.tumblr.com/images/media_violation/a.png", 404, .error .brokenBody⟩

def fetcher : Fetcher where
  network _ := .value (.ok reply)
  limit := .ofSeconds 30
  userAgent := "Mozilla/5.0"
  relocations := Settings.defaultRelocations
  markers := ["assets.tumblr.com/images/media_violation/"]

def files : FileTree := ⟨[], []⟩

def parts : PipelineParts :=
  ⟨.any fetcher files, [], ⟨5, 512⟩, ⟨⟨"m", fun _ _ _ => .value (.ok "")⟩, "", 0, .zero⟩⟩

def plan : RunPlan := ⟨.default "", none, none, false⟩

def table : Catalog := .table ⟨"t", [item]⟩

def now : Instant := ⟨⟨2024, 1, 1⟩, 0, 0⟩

theorem sent_item : (fetcher.sent item.id).result = .ok (.ok reply) := by
  have hrequest : (Network.prepare? (fetcher.request (Address.relocate fetcher.relocations item.id))).isSome = true := by
    decide +kernel
  obtain ⟨r, hr⟩ := Option.isSome_iff_exists.1 hrequest
  rw [Fetcher.sent, Network.send, hr]
  rfl

theorem takenDown_item : fetcher.TakenDown item :=
  ⟨item.id, reply, rfl, sent_item, _, List.mem_singleton_self _, Text.occursIn_eq_true_iff.1 (by decide +kernel)⟩

end BrokenNotice

open BrokenNotice in
theorem removed_before_failed_brokenNotice :
    parts.locator = Locator.any fetcher files ∧ plan.settings.jobTimeoutSeconds = none
    ∧ (fetcher.sent item.id).result = .ok (.ok reply) ∧ fetcher.TakenDown item
    ∧ (∃ y, (fetcher.fetch item.id).result = .ok y ∧ Fetcher.Classified fetcher.markers
      (Address.relocate fetcher.relocations item.id) (.ok reply) y)
    ∧ (Report.ofJob now parts.pipeline none 0 (.new "a.gif" (.local_ "a.gif") .imageSequence)).2.outcome ≠ .removed
    ∧ (∃ progress, (Account.start table).settle 10 1 none (Report.ofJob now parts.pipeline none 0 item).2
      = { Account.start table with counters := ⟨0, 1, 0⟩, progress := progress })
    ∧ plan.queue table .empty = [item]
    ∧ plan.CountsRemoved fetcher table .empty (plan.run now parts.pipeline table .empty (fun _ => none) false) := by
  obtain ⟨hfetch, hparts⟩ := removed_before_failed fetcher files
  obtain ⟨hlocal, hsettle, hrun⟩ := hparts parts rfl
  exact ⟨rfl, rfl, sent_item, takenDown_item, (hfetch item.id).2 _ sent_item, hlocal now none 0 _ rfl,
    hsettle now 0 item takenDown_item 10 1 none (Account.start table), by decide +kernel,
    hrun plan rfl now table .empty (fun _ => none) false⟩

end Captioning
