import Captioning.Locate.Locators
import Captioning.Proofs.JobOutcomes
import Captioning.Proofs.ReplacedTexts
/-!
# Fetched media

What comes of fetching is told by what comes of the request (`Fetcher.result_fetch`): a reply that has landed on a notice
is a removal, whatever its status or body, any other one is a failure or the media (`classified_classify`). So a job
ends with a removal exactly if the media of its item was taken down (`removed_ofJob_iff`), and that of a file never does.
-/

namespace Captioning

namespace Reply

/-- The status of a reply reports a failure. -/
def Refuses (r : Reply) : Prop :=
  400 ≤ r.status ∧ r.status < 600

/-- A reply has landed on a notice that media was taken down: a marker is in the address. -/
def Noticed (markers : List String) (r : Reply) : Prop :=
  ∃ m ∈ markers, m.toList <:+: r.landing.toList

variable {r : Reply} {markers : List String}

theorem isRemovalNotice_landing_iff : Address.isRemovalNotice markers r.landing = true ↔ r.Noticed markers := by
  rw [Address.isRemovalNotice, List.any_eq_true]
  exact exists_congr fun m => and_congr_right fun _ => Text.occursIn_eq_true_iff

theorem content_of_refuses (h : r.Refuses) : r.content = .error (.refused r.status r.landing) := by
  refine if_pos ?_
  simp only [Status.isRequestFault, Status.isServiceFault, Bool.or_eq_true, Bool.and_eq_true, decide_eq_true_eq]
  obtain ⟨hlow, hhigh⟩ := h
  omega

theorem content_of_not_refuses (h : ¬ r.Refuses) : r.content = r.body := by
  refine if_neg ?_
  simp only [Status.isRequestFault, Status.isServiceFault, Bool.or_eq_true, Bool.and_eq_true, decide_eq_true_eq]
  intro hstatus
  refine h ⟨?_, ?_⟩ <;> omega

end Reply

namespace Fetcher

/-! ## One fetch -/

/-- What has to be the case for each outcome of a fetch of `url`, given what has come of the request. -/
structure Classified (markers : List String) (url : String) (sent : Except NetworkFault Reply)
    (x : Except ItemFault Located) : Prop where
  removed (landing : String) : x = .ok (.removed landing) ↔ ∃ r, sent = .ok r ∧ r.landing = landing ∧ r.Noticed markers
  failed : (∃ text, x = .error (.network text)) ↔ (∃ n, sent = .error n)
    ∨ ∃ r, sent = .ok r ∧ ¬ r.Noticed markers ∧ (r.Refuses ∨ ∃ n, r.body = .error n)
  found (m : Media) : x = .ok (.media m) ↔ ∃ r data, sent = .ok r ∧ ¬ r.Noticed markers ∧ ¬ r.Refuses
    ∧ r.body = .ok data ∧ m = .fetched data url
  /-- No other fault comes of it, and each is worded by its cause. -/
  worded (f : ItemFault) : x = .error f → ∃ n : NetworkFault, f = .network n.message
    ∧ (sent = .error n ∨ ∃ r, sent = .ok r ∧ r.content = .error n)

theorem classify_of_not_noticed {markers : List String} {r : Reply} (h : ¬ r.Noticed markers) (url : String) :
    classify markers url (.ok r) = match r.content with
      | .error f => .error (.network f.message)
      | .ok data => .ok (.media (.fetched data url)) :=
  if_neg fun hn => h (Reply.isRemovalNotice_landing_iff.1 hn)

/-- Each outcome of a fetch has its one cause; that of a removal is looked for first. -/
theorem classified_classify (markers : List String) (url : String) (sent : Except NetworkFault Reply) :
    Classified markers url sent (classify markers url sent) := by
  cases sent with
  | error n =>
    rw [classify_error]
    refine ⟨by simp, by simp, by simp, fun f hf => ⟨n, (Except.error.inj hf).symm, .inl rfl⟩⟩
  | ok r =>
    by_cases hn : r.Noticed markers
    · rw [classify_of_removalNotice (Reply.isRemovalNotice_landing_iff.2 hn)]
      exact ⟨by simp [hn], by simp [hn], by simp [hn], fun f hf => nomatch hf⟩
    · rw [classify_of_not_noticed hn]
      by_cases hs : r.Refuses
      · rw [Reply.content_of_refuses hs]
        exact ⟨by simp [hn], by simp [hn, hs], by simp [hn, hs],
          fun f hf => ⟨_, (Except.error.inj hf).symm, .inr ⟨r, rfl, Reply.content_of_refuses hs⟩⟩⟩
      · rw [Reply.content_of_not_refuses hs]
        cases hb : r.body with
        | error n =>
          refine ⟨by simp [hn], by simp [hn, hb], by simp [hn, hb], fun f hf => ?_⟩
          exact ⟨n, (Except.error.inj hf).symm, .inr ⟨r, rfl, (Reply.content_of_not_refuses hs).trans hb⟩⟩
        | ok data => exact ⟨by simp [hn], by simp [hn, hs, hb], by simp [hn, hs, hb, eq_comm], fun f hf => nomatch hf⟩

/-- The request that is sent to fetch what is at an address. -/
def sent (f : Fetcher) (url : String) : Timed (Except NetworkFault Reply) :=
  f.network.send (some f.limit) (f.request (Address.relocate f.relocations url))

theorem result_fetch (f : Fetcher) (url : String) : (f.fetch url).result
    = (f.sent url).result.map (classify f.markers (Address.relocate f.relocations url)) := by
  show ((f.sent url).andThen fun r => Timed.value (classify f.markers _ r)).result = _
  unfold Timed.andThen
  cases (f.sent url).result <;> rfl

/-! ## One job -/

/-- The media of an item was taken down: the request for its address lands on a notice. -/
def TakenDown (f : Fetcher) (i : Item) : Prop :=
  ∃ url r, i.source = .remote url ∧ (f.sent url).result = .ok (.ok r) ∧ r.Noticed f.markers

/-- Whether the media of an item was taken down. -/
def isTakenDown (f : Fetcher) (i : Item) : Bool :=
  match i.source with
  | .remote url => match (f.sent url).result with
    | .ok (.ok r) => Address.isRemovalNotice f.markers r.landing
    | _ => false
  | .local_ _ => false

variable {f : Fetcher} {i : Item}

theorem isTakenDown_iff : f.isTakenDown i = true ↔ f.TakenDown i := by
  unfold isTakenDown TakenDown
  cases i.source with
  | local_ path => simp
  | remote url =>
    match h : (f.sent url).result with
    | .error text => simp [h]
    | .ok (.error n) => simp [h]
    | .ok (.ok r) => simp [h, Reply.isRemovalNotice_landing_iff]

instance (f : Fetcher) : DecidablePred f.TakenDown := fun _ => decidable_of_iff _ isTakenDown_iff

theorem TakenDown.isRemote (h : f.TakenDown i) : i.source.isRemote = true := by
  obtain ⟨url, r, hsource, -⟩ := h
  rw [hsource]
  rfl

theorem removed_fetch_iff (f : Fetcher) (url : String) :
    (∃ landing, (f.fetch url).result = .ok (.ok (.removed landing)))
      ↔ ∃ r, (f.sent url).result = .ok (.ok r) ∧ r.Noticed f.markers := by
  rw [result_fetch]
  cases hsent : (f.sent url).result with
  | error text => simp [Except.map]
  | ok s =>
    have hclass := classified_classify f.markers (Address.relocate f.relocations url) s
    simp [Except.map, hclass.removed]

/-- Looking for media finds out that it was taken down, and never for a file. -/
theorem removed_any_iff (files : FileTree) :
    (∃ landing, (Locator.any f files i).result = .ok (.ok (.removed landing))) ↔ f.TakenDown i := by
  cases hsource : i.source with
  | remote url =>
    have hany : Locator.any f files i = f.fetch url := by simp [Locator.any, Locator.remote, hsource, SourceRef.isRemote]
    rw [hany, removed_fetch_iff, TakenDown]
    simp [hsource]
  | local_ path =>
    constructor
    · rintro ⟨landing, hl⟩
      simp only [Locator.any, Locator.files, hsource, SourceRef.isRemote, Timed.value, Bool.false_eq_true,
        if_false] at hl
      split at hl <;> cases hl
    · rintro ⟨url, r, hurl, -⟩
      cases hsource.symm.trans hurl

end Fetcher

namespace Reported

variable {i : Item} {deadline : Option Span} {number : Nat} {x : Timed Outcome} {q : Report}

/-- A removal is reported only if it has come of the job, and in time. -/
theorem removed (h : Reported i deadline number x q) (hq : q.outcome = .removed) :
    x.InTime deadline ∧ x.result = .ok .removed := by
  have htime : x.InTime deadline := by
    intro limit hlimit
    by_contra hlate
    have := h.late limit hlimit (Nat.lt_of_not_le hlate)
    cases this.symm.trans hq
  refine ⟨htime, ?_⟩
  cases hx : x.result with
  | error text => cases (h.crashed text htime hx).symm.trans hq
  | ok o => rw [← h.finished o htime hx, hq]

end Reported

namespace PipelineParts

variable {w : PipelineParts} {f : Fetcher} {files : FileTree}

theorem removed_job_iff (hw : w.locator = Locator.any f files) (now : Instant) (i : Item) :
    (w.job now i).result = .ok .removed ↔ f.TakenDown i := by
  rw [(classified_job w now i).removed, hw, f.removed_any_iff]

/-- A job reports a removal exactly if the media of its item was taken down and the job has ended in time. -/
theorem removed_ofJob_iff (hw : w.locator = Locator.any f files) (now : Instant) (deadline : Option Span) (number : Nat)
    (i : Item) : (Report.ofJob now w.pipeline deadline number i).2.outcome = .removed
      ↔ (w.job now i).InTime deadline ∧ f.TakenDown i := by
  have hreported := reported_ofJob now w.pipeline deadline number i
  rw [← w.removed_job_iff hw now i]
  exact ⟨hreported.removed, fun ⟨htime, hjob⟩ => hreported.finished .removed htime hjob⟩

end PipelineParts

end Captioning
