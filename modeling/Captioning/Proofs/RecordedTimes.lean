import Captioning.Job.Steps
import Captioning.Proofs.JobOutcomes
/-!
# Recording times

A pipeline takes its steps up to the first that does not go on (`Pipeline.Takes`, `Pipeline.takes_iff`). When the times
of its steps are recorded it takes the same ones, and the same happens and comes of it; only the times in the context
differ (`Pipeline.recorded_alike`). That is so for steps that do not look at times, as the steps of a description do
not (`Step.timeless_locate`, `Step.timeless_sample`, `Step.timeless_describe`).
-/

namespace Captioning

/-! ## Contexts without their times -/

/-- A context apart from the times of its stages. -/
def JobContext.untimed (c : JobContext) : JobContext := { c with timings := .zero }

/-- What happens in a computation and what comes of it, apart from times in the context. -/
def Timed.untimed {α : Type} (x : Timed (JobContext × α)) : Timed (JobContext × α) :=
  ⟨x.events, x.result.map fun (c, r) => (c.untimed, r)⟩

section Untimed

variable {α : Type} {x y : Timed (JobContext × α)} {c d : JobContext} {r : α} {es : List Event} {text : String}

theorem JobContext.exists_timings (h : c.untimed = d.untimed) : ∃ t, d = { c with timings := t } :=
  ⟨d.timings, by cases c; cases d; simp_all [untimed]⟩

theorem Timed.exists_of_untimed_eq (h : x.untimed = y.untimed) (hx : x = ⟨es, .ok (c, r)⟩) :
    ∃ d, y = ⟨es, .ok (d, r)⟩ ∧ c.untimed = d.untimed := by
  subst hx
  obtain ⟨fs, _ | ⟨d, s⟩⟩ := y
  · cases h
  · obtain ⟨rfl, h⟩ := Timed.mk.inj h
    obtain ⟨hc, rfl⟩ := Prod.mk.inj (Except.ok.inj h)
    exact ⟨d, rfl, hc⟩

theorem Timed.eq_of_untimed_eq (h : x.untimed = y.untimed) (hx : x = ⟨es, .error text⟩) : y = ⟨es, .error text⟩ := by
  subst hx
  obtain ⟨fs, _ | ⟨d, s⟩⟩ := y
  · exact h.symm
  · cases h

theorem Timed.untimed_andThen {β : Type} {x : Timed β} {f g : β → Timed (JobContext × α)}
    (h : ∀ b, (f b).untimed = (g b).untimed) : (x.andThen f).untimed = (x.andThen g).untimed := by
  cases hx : x.result with
  | error text => simp [Timed.andThen, Timed.untimed, hx]
  | ok b =>
    obtain ⟨he, hr⟩ := Timed.mk.inj (h b)
    simp only [Timed.andThen, Timed.untimed, hx, he, hr]

end Untimed

/-! ## Steps that do not look at times -/

namespace Step

/-- A step that does not look at times: in contexts that differ only in their times it does the same, and leaves
contexts that differ only in their times. -/
def Timeless (s : Step) : Prop :=
  ∀ c d : JobContext, c.untimed = d.untimed → (s.apply c).untimed = (s.apply d).untimed

/-- To record the time of a step changes nothing but times. -/
theorem untimed_recorded (s : Step) (c : JobContext) : (s.recorded.apply c).untimed = (s.apply c).untimed := by
  simp only [recorded, Timed.untimed]
  cases (s.apply c).result <;> rfl

theorem Timeless.recorded {s : Step} (h : s.Timeless) : s.recorded.Timeless := fun c d hcd => by
  rw [untimed_recorded, untimed_recorded, h c d hcd]

theorem timeless_locate (locator : Locator) : (locate locator).Timeless := by
  intro c d h
  obtain ⟨t, rfl⟩ := JobContext.exists_timings h
  refine Timed.untimed_andThen fun a => ?_
  rcases a with f | (m | landing) <;> rfl

theorem timeless_sample (table : SamplerTable Sampler) (settings : SampleSettings) : (sample table settings).Timeless := by
  intro c d h
  obtain ⟨t, rfl⟩ := JobContext.exists_timings h
  simp only [sample]
  cases hm : c.media with
  | none => simp [Timed.untimed, Timed.value, fail, JobContext.untimed, Except.map, hm]
  | some m =>
    dsimp only
    cases table.get? c.item.format with
    | none => rfl
    | some sampler =>
      refine Timed.untimed_andThen fun a => ?_
      rcases a with f | (_ | ⟨frame, more⟩) <;> rfl

theorem timeless_describe (client : Client) : (describe client).Timeless := by
  intro c d h
  obtain ⟨t, rfl⟩ := JobContext.exists_timings h
  simp only [describe]
  cases hf : c.frames with
  | none => simp [Timed.untimed, Timed.value, fail, JobContext.untimed, Except.map, hf]
  | some frames =>
    refine Timed.untimed_andThen fun a => ?_
    cases a <;> rfl

end Step

namespace Pipeline

/-! ## Which steps are taken -/

/-- Steps that all go on, from a context to another one, and what happens meanwhile. -/
inductive GoesOn : Pipeline → JobContext → List Event → JobContext → Prop
  | nil (c : JobContext) : GoesOn [] c [] c
  | cons {s : Step} {more : Pipeline} {c d e : JobContext} {es fs : List Event}
    (hs : s.apply c = ⟨es, .ok (d, .ok .next)⟩) (hmore : GoesOn more d fs e) : GoesOn (s :: more) c (es ++ fs) e

/-- How the steps of a pipeline are taken: which of them are, what happens meanwhile, and the context and outcome in the
end. The last step that is taken is the first one that does not go on, if there is one. -/
inductive Takes (now : Instant) (c : JobContext) : Pipeline → List Step → Timed (JobContext × Outcome) → Prop
  | described {p : Pipeline} {es : List Event} {d : JobContext} {x : Description} (hall : GoesOn p c es d)
    (hd : d.description = some x) :
    Takes now c p p ⟨es, .ok ({ d with description := none }, .success (.ofItem d.item x now))⟩
  | undescribed {p : Pipeline} {es : List Event} {d : JobContext} (hall : GoesOn p c es d) (hd : d.description = none) :
    Takes now c p p ⟨es, .ok (d, .failed .job (.aborted "pipeline finished without a description"))⟩
  | removed {front behind : Pipeline} {s : Step} {es fs : List Event} {d e : JobContext} (hfront : GoesOn front c es d)
    (hs : s.apply d = ⟨fs, .ok (e, .ok .removed)⟩) :
    Takes now c (front ++ s :: behind) (front ++ [s]) ⟨es ++ fs, .ok (e, .removed)⟩
  | failed {front behind : Pipeline} {s : Step} {es fs : List Event} {d e : JobContext} {f : ItemFault}
    (hfront : GoesOn front c es d) (hs : s.apply d = ⟨fs, .ok (e, .error f)⟩) :
    Takes now c (front ++ s :: behind) (front ++ [s]) ⟨es ++ fs, .ok (e, .failed s.stage f)⟩
  | crashed {front behind : Pipeline} {s : Step} {es fs : List Event} {d : JobContext} {text : String}
    (hfront : GoesOn front c es d) (hs : s.apply d = ⟨fs, .error text⟩) :
    Takes now c (front ++ s :: behind) (front ++ [s]) ⟨es ++ fs, .error text⟩

/-- The steps that are taken. -/
def taken : Pipeline → JobContext → List Step
  | [], _ => []
  | s :: more, c => match (s.apply c).result with
    | .ok (d, .ok .next) => s :: taken more d
    | _ => [s]

section

variable {now : Instant} {p front more behind : Pipeline} {s : Step} {c d e : JobContext} {es fs : List Event}
  {ss : List Step} {x : Timed (JobContext × Outcome)}

theorem process_cons (hs : s.apply c = ⟨es, .ok (d, .ok .next)⟩) :
    process now (s :: more) c = (process now more d).after es := by
  simp [process, hs, Timed.andThen, Timed.after]

theorem taken_cons (hs : s.apply c = ⟨es, .ok (d, .ok .next)⟩) : taken (s :: more) c = s :: taken more d := by
  simp [taken, hs]

/-- The steps behind some that all go on are taken from the context that these have left. -/
theorem GoesOn.process_append (h : GoesOn front c es d) (now : Instant) (more : Pipeline) :
    process now (front ++ more) c = (process now more d).after es ∧ taken (front ++ more) c = front ++ taken more d := by
  induction h with
  | nil c => exact ⟨rfl, rfl⟩
  | cons hs _ ih =>
    rw [List.cons_append, process_cons hs, taken_cons hs, ih.1, ih.2]
    exact ⟨by simp [Timed.after], rfl⟩

theorem Takes.eq (h : Takes now c p ss x) : ss = p.taken c ∧ x = p.process now c := by
  cases h with
  | described hall hd =>
    obtain ⟨hx, hss⟩ := hall.process_append now []
    rw [List.append_nil] at hx hss
    exact ⟨by rw [hss, taken, List.append_nil], by simp [hx, process, conclude, hd, Timed.after, Timed.value]⟩
  | undescribed hall hd =>
    obtain ⟨hx, hss⟩ := hall.process_append now []
    rw [List.append_nil] at hx hss
    exact ⟨by rw [hss, taken, List.append_nil], by simp [hx, process, conclude, hd, Timed.after, Timed.value]⟩
  | @removed front behind s _ _ _ _ hfront hs =>
    obtain ⟨hx, hss⟩ := hfront.process_append now (s :: behind)
    exact ⟨by simp [hss, taken, hs], by simp [hx, process, hs, Timed.after, Timed.andThen, Timed.value]⟩
  | @failed front behind s _ _ _ _ _ hfront hs =>
    obtain ⟨hx, hss⟩ := hfront.process_append now (s :: behind)
    exact ⟨by simp [hss, taken, hs], by simp [hx, process, hs, Timed.after, Timed.andThen, Timed.value]⟩
  | @crashed front behind s _ _ _ _ hfront hs =>
    obtain ⟨hx, hss⟩ := hfront.process_append now (s :: behind)
    exact ⟨by simp [hss, taken, hs], by simp [hx, process, hs, Timed.after, Timed.andThen]⟩

/-- A step that goes on is taken before the others. -/
theorem Takes.cons (hs : s.apply c = ⟨es, .ok (d, .ok .next)⟩) (h : Takes now d p ss x) :
    Takes now c (s :: p) (s :: ss) (x.after es) := by
  cases h with
  | described hall hd => exact .described (.cons hs hall) hd
  | undescribed hall hd => exact .undescribed (.cons hs hall) hd
  | @removed front behind last _ _ _ _ hfront he =>
    rw [Timed.after, ← List.append_assoc]
    have h : Takes now c ((s :: front) ++ last :: behind) ((s :: front) ++ [last]) _ := .removed (.cons hs hfront) he
    exact h
  | @failed front behind last _ _ _ _ _ hfront he =>
    rw [Timed.after, ← List.append_assoc]
    have h : Takes now c ((s :: front) ++ last :: behind) ((s :: front) ++ [last]) _ := .failed (.cons hs hfront) he
    exact h
  | @crashed front behind last _ _ _ _ hfront he =>
    rw [Timed.after, ← List.append_assoc]
    have h : Takes now c ((s :: front) ++ last :: behind) ((s :: front) ++ [last]) _ := .crashed (.cons hs hfront) he
    exact h

theorem exists_takes (now : Instant) (p : Pipeline) (c : JobContext) : ∃ ss x, Takes now c p ss x := by
  induction p generalizing c with
  | nil =>
    cases hd : c.description with
    | none => exact ⟨_, _, .undescribed (.nil c) hd⟩
    | some x => exact ⟨_, _, .described (.nil c) hd⟩
  | cons s p ih =>
    match hs : s.apply c with
    | ⟨es, .error text⟩ =>
      have h : Takes now c ([] ++ s :: p) ([] ++ [s]) _ := .crashed (.nil c) hs
      exact ⟨_, _, h⟩
    | ⟨es, .ok (d, .error f)⟩ =>
      have h : Takes now c ([] ++ s :: p) ([] ++ [s]) _ := .failed (.nil c) hs
      exact ⟨_, _, h⟩
    | ⟨es, .ok (d, .ok .removed)⟩ =>
      have h : Takes now c ([] ++ s :: p) ([] ++ [s]) _ := .removed (.nil c) hs
      exact ⟨_, _, h⟩
    | ⟨es, .ok (d, .ok .next)⟩ =>
      obtain ⟨ss, x, h⟩ := ih d
      exact ⟨_, _, h.cons hs⟩

/-- Steps are taken in one way. -/
theorem takes_iff : Takes now c p ss x ↔ ss = p.taken c ∧ x = p.process now c := by
  refine ⟨Takes.eq, ?_⟩
  rintro ⟨rfl, rfl⟩
  obtain ⟨ss, x, h⟩ := exists_takes now p c
  obtain ⟨rfl, rfl⟩ := h.eq
  exact h

/-! ## Steps whose times are recorded -/

/-- The bare step and the recorded one end alike, in contexts that differ only in their times. -/
theorem untimed_apply (hs : s.Timeless) (h : c.untimed = d.untimed) :
    (s.apply c).untimed = (s.recorded.apply d).untimed := by
  rw [Step.untimed_recorded]
  exact hs c d h

theorem GoesOn.recorded {c' : JobContext} (h : GoesOn p c es d) (hp : ∀ s ∈ p, s.Timeless) (hc : c.untimed = c'.untimed) :
    ∃ d', GoesOn (p.map Step.recorded) c' es d' ∧ d.untimed = d'.untimed := by
  induction h generalizing c' with
  | nil c => exact ⟨c', .nil c', hc⟩
  | cons hs _ ih =>
    obtain ⟨hs', hp⟩ := List.forall_mem_cons.1 hp
    obtain ⟨d', hd', hd⟩ := Timed.exists_of_untimed_eq (untimed_apply hs' hc) hs
    obtain ⟨e', he', he⟩ := ih hp hd
    exact ⟨e', .cons hd' he', he⟩

/-- The same steps are taken when their times are recorded, and the same comes of them but for times. -/
theorem Takes.recorded (h : Takes now c p ss x) (hp : ∀ s ∈ p, s.Timeless) :
    ∃ y, Takes now c (p.map Step.recorded) (ss.map Step.recorded) y ∧ y.untimed = x.untimed := by
  cases h with
  | described hall hd =>
    obtain ⟨d', hall', hd'⟩ := hall.recorded hp rfl
    obtain ⟨t, rfl⟩ := JobContext.exists_timings hd'
    exact ⟨_, .described hall' hd, rfl⟩
  | undescribed hall hd =>
    obtain ⟨d', hall', hd'⟩ := hall.recorded hp rfl
    obtain ⟨t, rfl⟩ := JobContext.exists_timings hd'
    exact ⟨_, .undescribed hall' hd, rfl⟩
  | removed hfront hs =>
    obtain ⟨hp, hs', -⟩ := List.forall_mem_append.1 hp |>.imp_right List.forall_mem_cons.1
    obtain ⟨d', hfront', hd'⟩ := hfront.recorded hp rfl
    obtain ⟨e', he', he⟩ := Timed.exists_of_untimed_eq (untimed_apply hs' hd') hs
    rw [List.map_append, List.map_append]
    exact ⟨_, .removed hfront' he', by simp [Timed.untimed, Except.map, he]⟩
  | failed hfront hs =>
    obtain ⟨hp, hs', -⟩ := List.forall_mem_append.1 hp |>.imp_right List.forall_mem_cons.1
    obtain ⟨d', hfront', hd'⟩ := hfront.recorded hp rfl
    obtain ⟨e', he', he⟩ := Timed.exists_of_untimed_eq (untimed_apply hs' hd') hs
    rw [List.map_append, List.map_append]
    exact ⟨_, .failed hfront' he', by simp [Timed.untimed, Except.map, he, Step.recorded]⟩
  | crashed hfront hs =>
    obtain ⟨hp, hs', -⟩ := List.forall_mem_append.1 hp |>.imp_right List.forall_mem_cons.1
    obtain ⟨d', hfront', hd'⟩ := hfront.recorded hp rfl
    have he' := Timed.eq_of_untimed_eq (untimed_apply hs' hd') hs
    rw [List.map_append, List.map_append]
    exact ⟨_, .crashed hfront' he', rfl⟩

end

/-- A pipeline takes its steps in order up to the first that does not go on, and ends as that step says, or with a record
if there is a description in the end. When the times of its steps are recorded it takes the same steps, the same happens
meanwhile, and the outcome and the context are the same but for times; provided that the steps do not look at these. -/
theorem recorded_alike (now : Instant) (p : Pipeline) (c : JobContext) (hp : ∀ s ∈ p, s.Timeless) :
    (∀ ss x, Takes now c p ss x ↔ ss = p.taken c ∧ x = p.process now c)
    ∧ (∀ ss x, Takes now c (p.map Step.recorded) ss x
      ↔ ss = (p.taken c).map Step.recorded ∧ x = process now (p.map Step.recorded) c)
    ∧ (process now (p.map Step.recorded) c).untimed = (p.process now c).untimed := by
  obtain ⟨y, hy, huntimed⟩ := (takes_iff.2 ⟨rfl, rfl⟩ : Takes now c p (p.taken c) (p.process now c)).recorded hp
  obtain ⟨hss, rfl⟩ := takes_iff.1 hy
  refine ⟨fun ss x => takes_iff, fun ss x => ?_, huntimed⟩
  rw [hss]
  exact takes_iff

/-- Finds the file of any item, in five milliseconds. -/
def clipLocator : Locator := fun i => ⟨[.pause (.ofMillis 5)], .ok (.ok (.media (.file i.source.text)))⟩

/-- The steps of a description where no format has a sampler. -/
def samplerless : Pipeline :=
  [.locate clipLocator, .sample .empty ⟨3, 512⟩, .describe ⟨⟨"", fun _ _ _ => .value (.error .noText)⟩, "", 0, .zero⟩]

/-- A clip for which there is no sampler fails in the second of three steps. Recorded or not, the third is not taken. -/
theorem samplerless_alike : (∀ s ∈ samplerless, s.Timeless)
    ∧ ∃ (ss : List Step) (c d e : JobContext) (now : Instant), ss.map (·.name) = ["locate", "sample"]
      ∧ d.timings.locate = .zero ∧ e.timings.locate = .ofMillis 5 ∧ e.untimed = d.untimed
      ∧ Takes now c samplerless ss
        ⟨[.pause (.ofMillis 5)], .ok (d, .failed .sample (.sampling "no sampler registered for video"))⟩
      ∧ Takes now c (samplerless.map Step.recorded) (ss.map Step.recorded)
        ⟨[.pause (.ofMillis 5)], .ok (e, .failed .sample (.sampling "no sampler registered for video"))⟩ := by
  have htimeless : ∀ s ∈ samplerless, s.Timeless := by
    simp only [samplerless, List.forall_mem_cons]
    exact ⟨Step.timeless_locate _, Step.timeless_sample _ _, Step.timeless_describe _, List.forall_mem_nil _⟩
  let now : Instant := ⟨⟨2024, 1, 1⟩, 0, 0⟩
  let c := JobContext.new (.new "a" (.local_ "a.mp4") .video)
  obtain ⟨hbare, hrecorded, huntimed⟩ := recorded_alike now samplerless c htimeless
  have hd := (hbare _ _).2 ⟨rfl, rfl⟩
  have he := (hrecorded _ _).2 ⟨rfl, rfl⟩
  obtain ⟨-, hcontext⟩ := Timed.mk.inj huntimed
  exact ⟨htimeless, _, c, _, _, now, rfl, rfl, by decide +kernel, (Prod.mk.inj (Except.ok.inj hcontext)).1, hd, he⟩

end Pipeline

end Captioning
