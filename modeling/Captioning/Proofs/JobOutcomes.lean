import Captioning.Job.Report
import Captioning.Job.Steps
import Mathlib.Data.List.Induction
/-!
# What comes of a job

The steps of a job hand on what they find through its context. `Course` says without one which steps are taken, what
happens meanwhile, and what comes of the job; the pipeline takes just that course (`course_iff`). So each outcome has
its one cause (`classified_job`). Samplers do not matter unless there is media, and then only the one that was
registered last for the format does; the model does not matter but for frames that were sampled (`job_congr`). A crash
or a missed deadline is reported as a failure of the job as a whole (`reported_ofJob`).
-/

namespace Captioning

/-! ## Samplers in the order of their registration -/

section Registration

variable {σ : Type} {rs : List (MediaFormat × σ)} {format : MediaFormat} {s : σ}

/-- The table after some registrations. -/
def SamplerTable.ofList (rs : List (MediaFormat × σ)) : SamplerTable σ :=
  rs.foldl (fun t r => t.register r.1 r.2) .empty

/-- The sampler that was registered last for a format. -/
def RegisteredLast (rs : List (MediaFormat × σ)) (format : MediaFormat) (s : σ) : Prop :=
  ∃ before after, rs = before ++ (format, s) :: after ∧ ∀ r ∈ after, r.1 ≠ format

theorem SamplerTable.ofList_concat (rs : List (MediaFormat × σ)) (r : MediaFormat × σ) :
    SamplerTable.ofList (rs ++ [r]) = (SamplerTable.ofList rs).register r.1 r.2 := by
  simp [SamplerTable.ofList]

/-- One more registration hides those for the same format, and no others. -/
theorem registeredLast_concat {r : MediaFormat × σ} :
    RegisteredLast (rs ++ [r]) format s ↔ r = (format, s) ∨ r.1 ≠ format ∧ RegisteredLast rs format s := by
  constructor
  · rintro ⟨before, after, h, hafter⟩
    rcases List.eq_nil_or_concat after with rfl | ⟨after, last, rfl⟩
    · exact .inl (List.singleton_inj.1 (List.append_inj' h rfl).2)
    · rw [List.concat_eq_append] at h hafter
      rw [← List.cons_append, ← List.append_assoc] at h
      obtain ⟨rfl, hlast⟩ := List.append_inj' h rfl
      obtain rfl := List.singleton_inj.1 hlast
      exact .inr ⟨hafter r (List.mem_append_right after List.mem_cons_self), before, after, rfl,
        fun q hq => hafter q (List.mem_append_left [r] hq)⟩
  · rintro (rfl | ⟨hr, before, after, rfl, hafter⟩)
    · exact ⟨rs, [], rfl, fun r hr => absurd hr List.not_mem_nil⟩
    · refine ⟨before, after ++ [r], by simp, fun q hq => ?_⟩
      rcases List.mem_append.1 hq with hq | hq
      · exact hafter q hq
      · rw [List.mem_singleton.1 hq]
        exact hr

/-- A format has the sampler that was registered last for it. -/
theorem SamplerTable.get?_ofList : (SamplerTable.ofList rs).get? format = some s ↔ RegisteredLast rs format s := by
  induction rs using List.reverseRecOn with
  | nil =>
    constructor
    · exact fun h => nomatch h
    · rintro ⟨before, after, h, -⟩
      simp at h
  | append_singleton rs r ih =>
    obtain ⟨f, s'⟩ := r
    rw [ofList_concat, registeredLast_concat]
    by_cases hf : f = format
    · subst hf
      simp [get?_register_same]
    · simp [get?_register_other (Ne.symm hf), ih, hf]

/-- A format has no sampler if none was registered for it. -/
theorem SamplerTable.get?_ofList_eq_none :
    (SamplerTable.ofList rs).get? format = none ↔ ∀ r ∈ rs, r.1 ≠ format := by
  induction rs using List.reverseRecOn with
  | nil => exact iff_of_true rfl fun r hr => absurd hr List.not_mem_nil
  | append_singleton rs r ih =>
    rw [ofList_concat, List.forall_mem_append, List.forall_mem_singleton]
    by_cases hf : r.1 = format
    · subst hf
      simp [get?_register_same]
    · simp [get?_register_other (Ne.symm hf), ih, hf]

/-- No sampler was registered for a format if none was registered last. -/
theorem forall_format_ne_iff : (∀ r ∈ rs, r.1 ≠ format) ↔ ∀ s, ¬ RegisteredLast rs format s := by
  simp only [← SamplerTable.get?_ofList_eq_none, ← SamplerTable.get?_ofList]
  exact Option.eq_none_iff_forall_ne_some

end Registration

/-! ## One step of a job -/

/-- A computation behind some events. -/
def Timed.after {α : Type} (es : List Event) (x : Timed α) : Timed α := ⟨es ++ x.events, x.result⟩

namespace Pipeline

variable {now : Instant} {s : Step} {more : Pipeline} {c d : JobContext}

/-- What happens while steps are taken, and what comes of them. -/
def outcome (now : Instant) (p : Pipeline) (c : JobContext) : Timed Outcome :=
  ⟨(p.process now c).events, (p.process now c).result.map Prod.snd⟩

/-- A step that is timed goes on with the other steps, or ends the job. -/
theorem outcome_recorded : outcome now (s.recorded :: more) c = match (s.apply c).result with
    | .error text => ⟨(s.apply c).events, .error text⟩
    | .ok (_, .error f) => ⟨(s.apply c).events, .ok (.failed s.stage f)⟩
    | .ok (_, .ok .removed) => ⟨(s.apply c).events, .ok .removed⟩
    | .ok (d, .ok .next) =>
      let timings := d.timings.record s.stage (s.apply c).length
      (outcome now more { d with timings := timings }).after (s.apply c).events := by
  unfold outcome
  rw [process]
  match h : (s.apply c).result with
  | .error _ => simp [Step.recorded, Timed.andThen, h, Except.map]
  | .ok (_, .error _) => simp [Step.recorded, Timed.andThen, Timed.value, h, Except.map]
  | .ok (_, .ok .removed) => simp [Step.recorded, Timed.andThen, Timed.value, h, Except.map]
  | .ok (_, .ok .next) => simp [Step.recorded, Timed.andThen, Timed.after, h, Except.map]

/-- The other steps begin with what the step has left, and with its time. -/
theorem outcome_next {es : List Event} (h : s.apply c = ⟨es, .ok (d, .ok .next)⟩) :
    ∃ t, outcome now (s.recorded :: more) c = (outcome now more { d with timings := t }).after es :=
  ⟨_, by rw [outcome_recorded, h]⟩

end Pipeline

/-! ## Courses of a job -/

/-- What a pipeline is made of: a way to find media, samplers in the order of their registration, and a way to ask the
model. -/
structure PipelineParts where
  locator : Locator
  samplers : List (MediaFormat × Sampler)
  settings : SampleSettings
  client : Client

namespace PipelineParts

/-- The pipeline. -/
def pipeline (w : PipelineParts) : Pipeline :=
  .standard w.locator (.ofList w.samplers) w.settings w.client

/-- What happens in the job of an item, and what comes of it. -/
def job (w : PipelineParts) (now : Instant) (i : Item) : Timed Outcome :=
  w.pipeline.outcome now (.new i)

/-- Media of an item is found. -/
def Finds (w : PipelineParts) (i : Item) (m : Media) : Prop :=
  (w.locator i).result = .ok (.ok (.media m))

/-- Frames are sampled from the media of an item. -/
def Samples (w : PipelineParts) (i : Item) (frames : FrameSet) : Prop :=
  ∃ m s, w.Finds i m ∧ RegisteredLast w.samplers i.format s ∧ (s.sample m w.settings).result = .ok (.ok frames)
    ∧ frames ≠ []

/-- What is said when there is no sampler for a format. -/
def noSamplerFault (format : MediaFormat) : ItemFault :=
  .sampling ("no sampler registered for " ++ format.name)

/-- The courses of a job. -/
inductive Course (w : PipelineParts) (now : Instant) (i : Item) : Timed Outcome → Prop
  | locatorCrashed {text : String} (hl : (w.locator i).result = .error text) :
    Course w now i ⟨(w.locator i).events, .error text⟩
  | removed {landing : String} (hl : (w.locator i).result = .ok (.ok (.removed landing))) :
    Course w now i ⟨(w.locator i).events, .ok .removed⟩
  | notLocated {f : ItemFault} (hl : (w.locator i).result = .ok (.error f)) :
    Course w now i ⟨(w.locator i).events, .ok (.failed .locate f)⟩
  | noSampler {m : Media} (hl : w.Finds i m) (hs : ∀ r ∈ w.samplers, r.1 ≠ i.format) :
    Course w now i ⟨(w.locator i).events, .ok (.failed .sample (noSamplerFault i.format))⟩
  | samplerCrashed {m : Media} {s : Sampler} {text : String} (hl : w.Finds i m)
    (hs : RegisteredLast w.samplers i.format s) (hf : (s.sample m w.settings).result = .error text) :
    Course w now i ⟨(w.locator i).events ++ (s.sample m w.settings).events, .error text⟩
  | notSampled {m : Media} {s : Sampler} {f : ItemFault} (hl : w.Finds i m)
    (hs : RegisteredLast w.samplers i.format s) (hf : (s.sample m w.settings).result = .ok (.error f)) :
    Course w now i ⟨(w.locator i).events ++ (s.sample m w.settings).events, .ok (.failed .sample f)⟩
  | noFrames {m : Media} {s : Sampler} (hl : w.Finds i m)
    (hs : RegisteredLast w.samplers i.format s) (hf : (s.sample m w.settings).result = .ok (.ok [])) :
    Course w now i ⟨(w.locator i).events ++ (s.sample m w.settings).events,
      .ok (.failed .sample (.sampling (Step.noFramesText s m)))⟩
  | clientCrashed {m : Media} {s : Sampler} {frames : FrameSet} {text : String} (hl : w.Finds i m)
    (hs : RegisteredLast w.samplers i.format s) (hf : (s.sample m w.settings).result = .ok (.ok frames))
    (hn : frames ≠ []) (hd : (w.client.describe frames).result = .error text) :
    Course w now i ⟨(w.locator i).events ++ (s.sample m w.settings).events ++ (w.client.describe frames).events,
      .error text⟩
  | notDescribed {m : Media} {s : Sampler} {frames : FrameSet} {f : ItemFault} (hl : w.Finds i m)
    (hs : RegisteredLast w.samplers i.format s) (hf : (s.sample m w.settings).result = .ok (.ok frames))
    (hn : frames ≠ []) (hd : (w.client.describe frames).result = .ok (.error f)) :
    Course w now i ⟨(w.locator i).events ++ (s.sample m w.settings).events ++ (w.client.describe frames).events,
      .ok (.failed .describe f)⟩
  | described {m : Media} {s : Sampler} {frames : FrameSet} {d : Description} (hl : w.Finds i m)
    (hs : RegisteredLast w.samplers i.format s) (hf : (s.sample m w.settings).result = .ok (.ok frames))
    (hn : frames ≠ []) (hd : (w.client.describe frames).result = .ok (.ok d)) :
    Course w now i ⟨(w.locator i).events ++ (s.sample m w.settings).events ++ (w.client.describe frames).events,
      .ok (.success ⟨i.id, i.originUrl, i.attribution, i.caption, d, now⟩)⟩

variable {w : PipelineParts} {now : Instant} {i : Item} {x : Timed Outcome}

/-- Some course is taken. -/
theorem exists_course (w : PipelineParts) (now : Instant) (i : Item) : ∃ x, Course w now i x := by
  -- each answer either ends the job or leads to the next question
  match hl : (w.locator i).result with
  | .error _ => exact ⟨_, .locatorCrashed hl⟩
  | .ok (.error _) => exact ⟨_, .notLocated hl⟩
  | .ok (.ok (.removed _)) => exact ⟨_, .removed hl⟩
  | .ok (.ok (.media m)) =>
    match hs : (SamplerTable.ofList w.samplers).get? i.format with
    | none => exact ⟨_, .noSampler hl (SamplerTable.get?_ofList_eq_none.1 hs)⟩
    | some s =>
      have hs := SamplerTable.get?_ofList.1 hs
      match hf : (s.sample m w.settings).result with
      | .error _ => exact ⟨_, .samplerCrashed hl hs hf⟩
      | .ok (.error _) => exact ⟨_, .notSampled hl hs hf⟩
      | .ok (.ok []) => exact ⟨_, .noFrames hl hs hf⟩
      | .ok (.ok (frame :: more)) =>
        have hn : frame :: more ≠ [] := List.cons_ne_nil frame more
        match hd : (w.client.describe (frame :: more)).result with
        | .error _ => exact ⟨_, .clientCrashed hl hs hf hn hd⟩
        | .ok (.error _) => exact ⟨_, .notDescribed hl hs hf hn hd⟩
        | .ok (.ok _) => exact ⟨_, .described hl hs hf hn hd⟩

/-- Media that is found is handed on to the next step. -/
theorem job_found (now : Instant) {m : Media} (hl : w.Finds i m) : ∃ c : JobContext, c.item = i ∧ c.media = some m
    ∧ w.job now i = (Pipeline.outcome now [(Step.sample (.ofList w.samplers) w.settings).recorded,
        (Step.describe w.client).recorded] c).after (w.locator i).events := by
  have happly : (Step.locate w.locator).apply (.new i)
      = ⟨(w.locator i).events, .ok ({ JobContext.new i with media := some m }, .ok .next)⟩ := by
    rw [Finds] at hl
    simp [Step.locate, JobContext.new, Timed.andThen, Timed.value, Step.goOn, hl]
  obtain ⟨t, ht⟩ := Pipeline.outcome_next happly
  exact ⟨{ JobContext.new i with media := some m, timings := t }, rfl, rfl, ht⟩

/-- Frames that are sampled are handed on to the next step. -/
theorem job_sampled (now : Instant) {m : Media} {s : Sampler} {frames : FrameSet} (hl : w.Finds i m)
    (hs : RegisteredLast w.samplers i.format s) (hf : (s.sample m w.settings).result = .ok (.ok frames))
    (hn : frames ≠ []) : ∃ c : JobContext, c.item = i ∧ c.frames = some frames
    ∧ w.job now i = (Pipeline.outcome now [(Step.describe w.client).recorded] c).after
        ((w.locator i).events ++ (s.sample m w.settings).events) := by
  obtain ⟨c, rfl, hm, hjob⟩ := job_found now hl
  have happly : (Step.sample (.ofList w.samplers) w.settings).apply c
      = ⟨(s.sample m w.settings).events, .ok ({ c with media := none, frames := some frames }, .ok .next)⟩ := by
    simp [Step.sample, hm, SamplerTable.get?_ofList.2 hs, Timed.andThen, Timed.value, Step.goOn, hf]
  obtain ⟨t, ht⟩ := Pipeline.outcome_next happly
  refine ⟨{ c with media := none, frames := some frames, timings := t }, rfl, rfl, ?_⟩
  rw [hjob, ht]
  simp [Timed.after]

/-- The pipeline takes it. -/
theorem Course.eq_job (h : Course w now i x) : x = w.job now i := by
  cases h with
  | locatorCrashed hl =>
    rw [job, pipeline, Pipeline.standard, Pipeline.outcome_recorded]
    simp [Step.locate, JobContext.new, Timed.andThen, hl]
  | removed hl =>
    rw [job, pipeline, Pipeline.standard, Pipeline.outcome_recorded]
    simp [Step.locate, JobContext.new, Timed.andThen, Timed.value, hl]
  | notLocated hl =>
    rw [job, pipeline, Pipeline.standard, Pipeline.outcome_recorded]
    simp [Step.locate, JobContext.new, Timed.andThen, Timed.value, Step.fail, hl]
  | noSampler hl hs =>
    obtain ⟨c, rfl, hm, hjob⟩ := job_found now hl
    rw [hjob, Pipeline.outcome_recorded]
    simp [Step.sample, hm, SamplerTable.get?_ofList_eq_none.2 hs, Timed.after, Timed.value, Step.fail, noSamplerFault]
  | samplerCrashed hl hs hf =>
    obtain ⟨c, rfl, hm, hjob⟩ := job_found now hl
    rw [hjob, Pipeline.outcome_recorded]
    simp [Step.sample, hm, SamplerTable.get?_ofList.2 hs, Timed.after, Timed.andThen, hf]
  | notSampled hl hs hf =>
    obtain ⟨c, rfl, hm, hjob⟩ := job_found now hl
    rw [hjob, Pipeline.outcome_recorded]
    simp [Step.sample, hm, SamplerTable.get?_ofList.2 hs, Timed.after, Timed.andThen, Timed.value, Step.fail, hf]
  | noFrames hl hs hf =>
    obtain ⟨c, rfl, hm, hjob⟩ := job_found now hl
    rw [hjob, Pipeline.outcome_recorded]
    simp [Step.sample, hm, SamplerTable.get?_ofList.2 hs, Timed.after, Timed.andThen, Timed.value, Step.fail, hf]
  | clientCrashed hl hs hf hn hd =>
    obtain ⟨c, rfl, hm, hjob⟩ := job_sampled now hl hs hf hn
    rw [hjob, Pipeline.outcome_recorded]
    simp [Step.describe, hm, Timed.after, Timed.andThen, hd]
  | notDescribed hl hs hf hn hd =>
    obtain ⟨c, rfl, hm, hjob⟩ := job_sampled now hl hs hf hn
    rw [hjob, Pipeline.outcome_recorded]
    simp [Step.describe, hm, Timed.after, Timed.andThen, Timed.value, Step.fail, hd]
  | described hl hs hf hn hd =>
    obtain ⟨c, rfl, hm, hjob⟩ := job_sampled now hl hs hf hn
    rw [hjob, Pipeline.outcome_recorded]
    simp [Step.describe, hm, Timed.after, Timed.andThen, Timed.value, Step.goOn, hd, Pipeline.outcome, Pipeline.process,
      Pipeline.conclude, Except.map, Record.ofItem]

/-- A job has one course. -/
theorem course_iff : Course w now i x ↔ x = w.job now i := by
  refine ⟨Course.eq_job, ?_⟩
  rintro rfl
  obtain ⟨x, hx⟩ := exists_course w now i
  exact hx.eq_job ▸ hx

theorem Course.result_eq {y : Timed Outcome} (h : Course w now i x) (h' : Course w now i y) : x.result = y.result :=
  congrArg Timed.result (h.eq_job.trans h'.eq_job.symm)

/-! ## The cause of each outcome -/

/-- What has to be the case for each outcome of a job, or for its crash. -/
structure Classified (w : PipelineParts) (now : Instant) (i : Item) (r : Except String Outcome) : Prop where
  removed : r = .ok .removed ↔ ∃ landing, (w.locator i).result = .ok (.ok (.removed landing))
  notLocated (f : ItemFault) : r = .ok (.failed .locate f) ↔ (w.locator i).result = .ok (.error f)
  notSampled (f : ItemFault) : r = .ok (.failed .sample f) ↔ ∃ m, w.Finds i m
    ∧ ((∀ q ∈ w.samplers, q.1 ≠ i.format) ∧ f = noSamplerFault i.format
      ∨ ∃ s, RegisteredLast w.samplers i.format s ∧ ((s.sample m w.settings).result = .ok (.error f)
        ∨ (s.sample m w.settings).result = .ok (.ok []) ∧ f = .sampling (Step.noFramesText s m)))
  notDescribed (f : ItemFault) : r = .ok (.failed .describe f) ↔ ∃ frames, w.Samples i frames
    ∧ (w.client.describe frames).result = .ok (.error f)
  described (q : Record) : r = .ok (.success q) ↔ ∃ frames d, w.Samples i frames
    ∧ (w.client.describe frames).result = .ok (.ok d) ∧ q = ⟨i.id, i.originUrl, i.attribution, i.caption, d, now⟩
  stages (stage : Stage) (f : ItemFault) : r = .ok (.failed stage f) → stage ∈ [.locate, .sample, .describe]
  crashed (text : String) : r = .error text ↔ (w.locator i).result = .error text
    ∨ (∃ m s, w.Finds i m ∧ RegisteredLast w.samplers i.format s ∧ (s.sample m w.settings).result = .error text)
    ∨ ∃ frames, w.Samples i frames ∧ (w.client.describe frames).result = .error text

theorem Course.classified {es : List Event} {r : Except String Outcome} (h : Course w now i ⟨es, r⟩) :
    Classified w now i r := by
  constructor
  case removed =>
    constructor
    · rintro rfl
      cases h with
      | removed hl => exact ⟨_, hl⟩
    · rintro ⟨_, hl⟩
      exact h.result_eq (.removed hl)
  case notLocated =>
    intro f
    constructor
    · rintro rfl
      cases h with
      | notLocated hl => exact hl
    · exact fun hl => h.result_eq (.notLocated hl)
  case notSampled =>
    intro f
    constructor
    · rintro rfl
      cases h with
      | noSampler hl hs => exact ⟨_, hl, .inl ⟨hs, rfl⟩⟩
      | notSampled hl hs hf => exact ⟨_, hl, .inr ⟨_, hs, .inl hf⟩⟩
      | noFrames hl hs hf => exact ⟨_, hl, .inr ⟨_, hs, .inr ⟨hf, rfl⟩⟩⟩
    · rintro ⟨m, hl, ⟨hs, rfl⟩ | ⟨s, hs, hf | ⟨hf, rfl⟩⟩⟩
      · exact h.result_eq (.noSampler hl hs)
      · exact h.result_eq (.notSampled hl hs hf)
      · exact h.result_eq (.noFrames hl hs hf)
  case notDescribed =>
    intro f
    constructor
    · rintro rfl
      cases h with
      | notDescribed hl hs hf hn hd => exact ⟨_, ⟨_, _, hl, hs, hf, hn⟩, hd⟩
    · rintro ⟨frames, ⟨m, s, hl, hs, hf, hn⟩, hd⟩
      exact h.result_eq (.notDescribed hl hs hf hn hd)
  case described =>
    intro q
    constructor
    · rintro rfl
      cases h with
      | described hl hs hf hn hd => exact ⟨_, _, ⟨_, _, hl, hs, hf, hn⟩, hd, rfl⟩
    · rintro ⟨frames, d, ⟨m, s, hl, hs, hf, hn⟩, hd, rfl⟩
      exact h.result_eq (.described hl hs hf hn hd)
  case stages =>
    rintro stage f rfl
    cases h <;> simp
  case crashed =>
    intro text
    constructor
    · rintro rfl
      cases h with
      | locatorCrashed hl => exact .inl hl
      | samplerCrashed hl hs hf => exact .inr (.inl ⟨_, _, hl, hs, hf⟩)
      | clientCrashed hl hs hf hn hd => exact .inr (.inr ⟨_, ⟨_, _, hl, hs, hf, hn⟩, hd⟩)
    · rintro (hl | ⟨m, s, hl, hs, hf⟩ | ⟨frames, ⟨m, s, hl, hs, hf, hn⟩, hd⟩)
      · exact h.result_eq (.locatorCrashed hl)
      · exact h.result_eq (.samplerCrashed hl hs hf)
      · exact h.result_eq (.clientCrashed hl hs hf hn hd)

theorem classified_job (w : PipelineParts) (now : Instant) (i : Item) : Classified w now i (w.job now i).result :=
  (course_iff.2 rfl).classified

/-! ## What does not matter to a job -/

/-- Other samplers make no difference if the same one was registered last, once there is media, and another way to ask
makes none if it leads to the same descriptions of the frames that are sampled. -/
theorem job_congr {samplers : List (MediaFormat × Sampler)} {client : Client}
    (hs : ∀ m, w.Finds i m → ∀ s, RegisteredLast samplers i.format s ↔ RegisteredLast w.samplers i.format s)
    (hc : ∀ frames, w.Samples i frames → client.describe frames = w.client.describe frames) :
    ({ w with samplers := samplers, client := client } : PipelineParts).job now i = w.job now i := by
  suffices hcourse : ∀ x, Course w now i x → Course { w with samplers := samplers, client := client } now i x from
    (hcourse _ (course_iff.2 rfl)).eq_job.symm
  intro x h
  cases h with
  | locatorCrashed hl => exact .locatorCrashed hl
  | removed hl => exact .removed hl
  | notLocated hl => exact .notLocated hl
  | noSampler hl hn =>
    exact .noSampler hl (forall_format_ne_iff.2 fun s h => forall_format_ne_iff.1 hn s ((hs _ hl s).1 h))
  | samplerCrashed hl hr hf => exact .samplerCrashed hl ((hs _ hl _).2 hr) hf
  | notSampled hl hr hf => exact .notSampled hl ((hs _ hl _).2 hr) hf
  | noFrames hl hr hf => exact .noFrames hl ((hs _ hl _).2 hr) hf
  -- from here on frames have been sampled, which both clients describe alike
  | clientCrashed hl hr hf hn hd =>
    rw [← hc _ ⟨_, _, hl, hr, hf, hn⟩] at hd ⊢
    exact .clientCrashed hl ((hs _ hl _).2 hr) hf hn hd
  | notDescribed hl hr hf hn hd =>
    rw [← hc _ ⟨_, _, hl, hr, hf, hn⟩] at hd ⊢
    exact .notDescribed hl ((hs _ hl _).2 hr) hf hn hd
  | described hl hr hf hn hd =>
    rw [← hc _ ⟨_, _, hl, hr, hf, hn⟩] at hd ⊢
    exact .described hl ((hs _ hl _).2 hr) hf hn hd

end PipelineParts

/-- Frames are described alike if the model answers alike to them. -/
theorem Client.describe_congr {c : Client} {model : Model} {frames : FrameSet}
    (h : ∀ n, model.answer n c.instruction frames = c.model.answer n c.instruction frames) :
    ({ c with model := model } : Client).describe frames = c.describe frames := by
  have hask : ∀ n, ({ c with model := model } : Client).ask frames n = c.ask frames n := fun n => by
    simp only [Client.ask, h]
  -- the attempts that are left go down while the number of the attempt goes up
  have hfrom : ∀ left n, ({ c with model := model } : Client).describeFrom frames n left
      = c.describeFrom frames n left := by
    intro left
    induction left with
    | zero =>
      intro n
      rw [Client.describeFrom, Client.describeFrom, hask]
    | succ left ih =>
      intro n
      simp only [Client.describeFrom, hask, ih]
  exact hfrom _ 1

/-! ## Reports -/

/-- A computation that ends by a deadline, if there is one. -/
def Timed.InTime {α : Type} (deadline : Option Span) (x : Timed α) : Prop :=
  ∀ limit ∈ deadline, x.length.nanos ≤ limit.nanos

/-- The report of the job with a number: what came of it, or a failure of the job as a whole. -/
structure Reported (i : Item) (deadline : Option Span) (number : Nat) (x : Timed Outcome) (q : Report) : Prop where
  id : q.id = i.id
  finished (o : Outcome) : x.InTime deadline → x.result = .ok o → q.outcome = o
  crashed (text : String) : x.InTime deadline → x.result = .error text →
    q.outcome = .failed .job (.aborted (Report.crashText number text))
  late (limit : Span) : limit ∈ deadline → limit.nanos < x.length.nanos → q.outcome = .failed .job (.jobTimeout limit)

/-- A job that ends in time reports what came of it. -/
theorem ofJob_of_inTime {now : Instant} {p : Pipeline} {deadline : Option Span} {i : Item} (number : Nat)
    (h : (p.process now (.new i)).InTime deadline) : (Report.ofJob now p deadline number i).2
      = Report.ofResult number i p deadline ((p.process now (.new i)).result.map some) := by
  cases deadline with
  | none => rfl
  | some limit =>
    show Report.ofResult number i p (some limit) ((p.process now (.new i)).within limit).result = _
    rw [Timed.within_of_le (h limit rfl)]

theorem ofJob_of_late {now : Instant} {p : Pipeline} {limit : Span} {i : Item} (number : Nat)
    (h : limit.nanos < (p.process now (.new i)).length.nanos) : (Report.ofJob now p (some limit) number i).2
      = Report.ofResult number i p (some limit) (.ok none) := by
  have hlate : ¬ Event.total (p.process now (.new i)).events ≤ limit.nanos := Nat.not_le.2 h
  show Report.ofResult number i p (some limit) ((p.process now (.new i)).within limit).result = _
  rw [Timed.within, if_neg hlate]

/-- Every job ends with a report about its item. -/
theorem reported_ofJob (now : Instant) (p : Pipeline) (deadline : Option Span) (number : Nat) (i : Item) :
    Reported i deadline number (p.outcome now (.new i)) (Report.ofJob now p deadline number i).2 := by
  constructor
  case id => exact Report.id_ofJob now p deadline number i
  case finished =>
    intro o ht hr
    rw [ofJob_of_inTime number ht]
    cases hw : (p.process now (.new i)).result with
    | error text => simp [Pipeline.outcome, hw, Except.map] at hr
    | ok co =>
      rw [Pipeline.outcome, hw] at hr
      exact Except.ok.inj hr
  case crashed =>
    intro text ht hr
    rw [ofJob_of_inTime number ht]
    cases hw : (p.process now (.new i)).result with
    | error m =>
      rw [Pipeline.outcome, hw] at hr
      obtain rfl := Except.error.inj hr
      rfl
    | ok co => simp [Pipeline.outcome, hw, Except.map] at hr
  case late =>
    rintro limit rfl h
    rw [ofJob_of_late number h]
    rfl

/-- What comes of a job. It takes one course; each outcome has its cause; the last sampler for the format of the item
matters only if there is media, and the model only for frames that have been sampled; and a crash or a missed deadline
of any pipeline is reported for the item as a failure of the job as a whole. -/
theorem job_classified (w : PipelineParts) (now : Instant) (i : Item) :
    (∀ x, w.Course now i x ↔ x = w.job now i)
    ∧ w.Classified now i (w.job now i).result
    ∧ (∀ samplers, (∀ m, w.Finds i m → ∀ s, RegisteredLast samplers i.format s ↔ RegisteredLast w.samplers i.format s) →
      ({ w with samplers := samplers } : PipelineParts).job now i = w.job now i)
    ∧ (∀ model : Model, (∀ frames, w.Samples i frames → ∀ n,
        model.answer n w.client.instruction frames = w.client.model.answer n w.client.instruction frames) →
      ({ w with client := { w.client with model := model } } : PipelineParts).job now i = w.job now i)
    ∧ ∀ p deadline number,
      Reported i deadline number (Pipeline.outcome now p (.new i)) (Report.ofJob now p deadline number i).2 := by
  refine ⟨fun x => PipelineParts.course_iff, PipelineParts.classified_job w now i, fun samplers hs => ?_,
    fun model hm => ?_, fun p deadline number => reported_ofJob now p deadline number i⟩
  · exact PipelineParts.job_congr hs fun _ _ => rfl
  · exact PipelineParts.job_congr (fun _ _ _ => Iff.rfl) fun frames hf => Client.describe_congr (hm frames hf)

end Captioning
