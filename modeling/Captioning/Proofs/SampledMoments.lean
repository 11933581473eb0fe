import Captioning.Proofs.JsonSteps
import Captioning.Sampling.Video
import Mathlib.Algebra.Order.Field.Rat
import Mathlib.Tactic.Linarith
import Mathlib.Tactic.Positivity
import Mathlib.Tactic.Ring
/-!
# Moments spread over a stream

The moments of a plan are evenly spaced, but for the last one, which is where decoding is to stop
(`sampleTimes_eq`). So a plan is in the order of time as long as no moment is behind its last one, and that is as long
as the moments are no less than a hundredth of a second apart (`moments_le_lastMoment_iff`). In a shorter stream the
moment before the last one is behind it, and behind all that is sure to be decoded (`sampled_moments`). The frames of
a clip are in the order of the plan, whichever that is (`ClipDecoder.sublist_moments`).
-/

namespace Captioning

/-! ## The moments of a plan -/

/-- The last moment at which a stream is decoded: a hundredth of a second before its end, if it is so long. -/
def lastMoment (d : ℚ) : ℚ := max 0 (d - 1 / 100)

section Plan

variable {d : ℚ} {steps : Nat}

theorem lastMoment_le (hd : 0 ≤ d) : lastMoment d ≤ d :=
  max_le hd (by linarith)

/-- The moments of a plan with more than one: evenly spaced ones, and the last one. -/
theorem sampleTimes_eq (hd : 0 ≤ d) (hs : 0 < steps) :
    sampleTimes d (steps + 1) = ((List.range steps).map fun i : Nat => i * d / steps) ++ [lastMoment d] := by
  have hpos : (steps : ℚ) ≠ 0 := Nat.cast_ne_zero.2 hs.ne'
  have hend : (steps : ℚ) * d / steps = d := mul_div_cancel_left₀ d hpos
  unfold sampleTimes
  rw [if_neg (by omega)]
  simp only [Nat.add_sub_cancel, hend, Nat.cast_zero, Nat.cast_one, Nat.cast_ofNat]
  rw [show max 0 (d - 1 / 100) = lastMoment d from rfl, min_eq_right (lastMoment_le hd)]

/-- Evenly spaced moments are in order. -/
theorem moment_le_moment (hd : 0 ≤ d) {i j : Nat} (h : i ≤ j) : (i : ℚ) * d / steps ≤ j * d / steps := by
  have : (i : ℚ) ≤ j := Nat.cast_le.2 h
  gcongr

/-- No evenly spaced moment is behind the last one if they are a hundredth of a second apart, and not otherwise, unless
there is only one. -/
theorem moments_le_lastMoment_iff (hd : 0 < d) (hs : 0 < steps) :
    (∀ i < steps, (i : ℚ) * d / steps ≤ lastMoment d) ↔ steps ≤ 1 ∨ (steps : ℚ) ≤ 100 * d := by
  have hpos : (0 : ℚ) < steps := Nat.cast_pos.2 hs
  constructor
  · intro h
    rcases Nat.lt_or_ge 1 steps with hmany | hone
    · -- the one before the last decides
      obtain ⟨k, rfl⟩ : ∃ k, steps = k + 1 := ⟨steps - 1, by omega⟩
      have hk : (0 : ℚ) < k := Nat.cast_pos.2 (by omega)
      have hlast := h k (by omega)
      have hlate : 0 < (k : ℚ) * d / (k + 1 : Nat) := by positivity
      rcases le_max_iff.1 hlast with h0 | hin
      · exact absurd h0 (not_le.2 hlate)
      · right
        rw [div_le_iff₀ hpos] at hin
        push_cast at hin ⊢
        linarith
    · exact .inl hone
  · rintro h i hi
    rcases h with hone | hlong
    · obtain rfl : i = 0 := by omega
      rw [Nat.cast_zero, zero_mul, zero_div]
      exact le_max_left 0 _
    · refine le_max_of_le_right ?_
      have hi' : (i : ℚ) + 1 ≤ steps := by exact_mod_cast hi
      have hgap : (i : ℚ) * d + d ≤ steps * d := by
        calc (i : ℚ) * d + d = (i + 1) * d := by ring
          _ ≤ steps * d := by gcongr
      rw [div_le_iff₀ hpos]
      linarith

/-- A plan is in the order of time if no moment is behind the last one. -/
theorem pairwise_sampleTimes_iff (hd : 0 ≤ d) (hs : 0 < steps) :
    (sampleTimes d (steps + 1)).Pairwise (· ≤ ·) ↔ ∀ i < steps, (i : ℚ) * d / steps ≤ lastMoment d := by
  have hfront : ((List.range steps).map fun i : Nat => (i : ℚ) * d / steps).Pairwise (· ≤ ·) :=
    List.pairwise_lt_range.map _ fun i j hij => moment_le_moment hd hij.le
  rw [sampleTimes_eq hd hs, List.pairwise_append]
  simp only [hfront, List.pairwise_singleton, true_and, List.mem_map, List.mem_range, List.mem_singleton]
  constructor
  · exact fun h i hi => h _ ⟨i, hi, rfl⟩ _ rfl
  · rintro h _ ⟨i, hi, rfl⟩ _ rfl
    exact h i hi

theorem forall_le_lastMoment_iff (hd : 0 ≤ d) (hs : 0 < steps) :
    (∀ t ∈ sampleTimes d (steps + 1), t ≤ lastMoment d) ↔ ∀ i < steps, (i : ℚ) * d / steps ≤ lastMoment d := by
  rw [sampleTimes_eq hd hs]
  simp only [List.forall_mem_append, List.forall_mem_singleton, le_refl, and_true, List.forall_mem_map, List.mem_range]

end Plan

/-! ## The moments of frames -/

/-- The moment of a frame, if it was taken from a stream. -/
def FrameOrigin.moment? : FrameOrigin → Option Float
  | .index _ => none
  | .moment seconds => some seconds

/-- The moments of the frames that were taken from a stream. -/
def FrameSet.moments (frames : FrameSet) : List Float :=
  frames.filterMap (·.origin.moment?)

theorem FrameSet.moments_cons {frame : Frame} {seconds : Float} (h : frame.origin = .moment seconds)
    (frames : FrameSet) : FrameSet.moments (frame :: frames) = seconds :: frames.moments := by
  simp [FrameSet.moments, h, FrameOrigin.moment?]

namespace ClipDecoder

variable [Image.Library] {v : ClipDecoder} {source : String} {limit n : Nat} {seconds : Float}

/-- A frame is of the moment that it was decoded at. -/
theorem origin_of_frameOf {r : ToolRun} {frame : Frame} (h : frameOf limit seconds r = .ok (some frame)) :
    frame.origin = .moment seconds := by
  unfold frameOf at h
  split at h
  · cases h
  · obtain ⟨picture, -, h⟩ := bind_eq_ok.1 h
    obtain ⟨made, hmade, h⟩ := bind_eq_ok.1 h
    obtain rfl := Option.some.inj (Except.ok.inj h)
    obtain ⟨data, -, rfl⟩ := Frame.ofRaster_eq_ok.1 hmade
    rfl

theorem origin_of_decode {frame : Frame} (h : (v.decode source limit n seconds).result = .ok (.ok (some frame))) :
    frame.origin = .moment seconds := by
  obtain ⟨r, -, h⟩ := Timed.result_andThen.1 h
  cases r with
  | error f => cases Except.ok.inj h
  | ok r => exact origin_of_frameOf (Except.ok.inj h)

/-- The frames of some moments are in the order of the moments. At a moment there is a frame or none. -/
theorem sublist_collectIn {σ : Type} {w : Workshop σ} {times : List Float} {frames : FrameSet} {s : σ}
    (h : (v.collectIn w source limit n times s).1.result = .ok (.ok frames)) : frames.moments.Sublist times := by
  induction times generalizing n frames s with
  | nil =>
    obtain rfl := Except.ok.inj (Except.ok.inj h)
    exact List.Sublist.refl []
  | cons time more ih =>
    obtain ⟨here, hhere, h⟩ := Stint.exists_of_result_andThen h
    cases here with
    | error f => cases Except.ok.inj h
    | ok here =>
      obtain ⟨rest, hrest, h⟩ := Stint.exists_of_result_andThen h
      cases rest with
      | error f => cases Except.ok.inj h
      | ok rest =>
        obtain rfl := Except.ok.inj (Except.ok.inj h)
        cases here with
        | none => exact (ih hrest).cons time
        | some frame =>
          show (FrameSet.moments (frame :: rest)).Sublist _
          rw [FrameSet.moments_cons (origin_of_decode hhere)]
          exact (ih hrest).cons_cons time

theorem sublist_sampleFile {settings : SampleSettings} {frames : FrameSet}
    (h : (v.sampleFile source settings).result = .ok (.ok frames)) :
    ∃ length, frames.moments.Sublist (moments length settings.frameCount) := by
  obtain ⟨probed, -, h⟩ := Stint.exists_of_result_andThen h
  cases probed with
  | error f => cases Except.ok.inj h
  | ok length =>
    obtain ⟨r, hr, h⟩ := Stint.exists_of_result_andThen h
    refine ⟨length, ?_⟩
    match r with
    | .error f => cases Except.ok.inj h
    | .ok [] => cases Except.ok.inj h
    | .ok (frame :: more) =>
      obtain rfl := Except.ok.inj (Except.ok.inj h)
      exact sublist_collectIn hr

/-- The frames of a clip are in the order of its plan. -/
theorem sublist_moments {media : Media} {settings : SampleSettings} {frames : FrameSet}
    (h : (v.sample media settings).result = .ok (.ok frames)) :
    ∃ length, frames.moments.Sublist (moments length settings.frameCount) := by
  cases media with
  | file path => exact sublist_sampleFile h
  | fetched content url => exact sublist_sampleFile h

end ClipDecoder

/-! ## What a plan promises -/

/-- As many moments as are wanted, in a stream of length `d`, from its beginning to where decoding is to stop. -/
structure Paced (d : ℚ) (target : Nat) (times : List ℚ) : Prop where
  length : times.length = target
  first : times[0]? = some 0
  inside (t : ℚ) : t ∈ times → 0 ≤ t ∧ t ≤ d
  last (t : ℚ) : times.getLast? = some t → t ≤ lastMoment d

theorem paced_sampleTimes {d : ℚ} (hd : 0 < d) {target : Nat} (ht : 1 ≤ target) :
    Paced d target (sampleTimes d target) := by
  obtain ⟨steps, rfl⟩ : ∃ steps, target = steps + 1 := ⟨target - 1, by omega⟩
  rcases Nat.eq_zero_or_pos steps with rfl | hs
  · refine ⟨rfl, rfl, fun t h => ?_, fun t h => ?_⟩
    · obtain rfl := List.mem_singleton.1 h
      exact ⟨le_refl 0, hd.le⟩
    · obtain rfl := Option.some.inj h
      exact le_max_left 0 _
  · have hpos : (0 : ℚ) < steps := Nat.cast_pos.2 hs
    constructor
    case length => rw [length_sampleTimes, Nat.max_eq_left ht]
    case first => simp [sampleTimes_eq hd.le hs, hs]
    case inside =>
      intro t h
      rw [sampleTimes_eq hd.le hs] at h
      rcases List.mem_append.1 h with h | h
      · obtain ⟨i, hi, rfl⟩ := List.mem_map.1 h
        have hi' : (i : ℚ) ≤ steps := Nat.cast_le.2 (List.mem_range.1 hi).le
        refine ⟨by positivity, ?_⟩
        rw [div_le_iff₀ hpos, mul_comm d]
        gcongr
      · obtain rfl := List.mem_singleton.1 h
        exact ⟨le_max_left 0 _, lastMoment_le hd.le⟩
    case last =>
      intro t h
      rw [sampleTimes_eq hd.le hs, List.getLast?_concat] at h
      exact (Option.some.inj h).symm.le

/-- A plan is in the order of time, and stays where there is something to decode, exactly if it has no more than two
moments, or these are no less than a hundredth of a second apart. The frames of a clip are in the order of its plan. -/
theorem sampled_moments {d : ℚ} (hd : 0 < d) {target : Nat} (ht : 1 ≤ target) :
    Paced d target (sampleTimes d target)
    ∧ ((sampleTimes d target).Pairwise (· ≤ ·) ↔ target ≤ 2 ∨ (target - 1 : ℚ) ≤ 100 * d)
    ∧ ((∀ t ∈ sampleTimes d target, t ≤ lastMoment d) ↔ target ≤ 2 ∨ (target - 1 : ℚ) ≤ 100 * d)
    ∧ ∀ [Image.Library] (v : ClipDecoder) (media : Media) (settings : SampleSettings) (frames : FrameSet),
      (v.sample media settings).result = .ok (.ok frames) →
      ∃ length, frames.moments.Sublist (ClipDecoder.moments length settings.frameCount) := by
  refine ⟨paced_sampleTimes hd ht, ?_, ?_, fun _ _ _ _ => ClipDecoder.sublist_moments⟩
  all_goals
    obtain ⟨steps, rfl⟩ : ∃ steps, target = steps + 1 := ⟨target - 1, by omega⟩
    have hcast : ((steps + 1 : Nat) : ℚ) - 1 = steps := by push_cast; ring
    have hfew : steps + 1 ≤ 2 ↔ steps ≤ 1 := by omega
    rw [hcast, hfew]
    rcases Nat.eq_zero_or_pos steps with rfl | hs
  · exact iff_of_true (List.pairwise_singleton _ _) (.inl (Nat.zero_le 1))
  · exact (pairwise_sampleTimes_iff hd.le hs).trans (moments_le_lastMoment_iff hd hs)
  · exact iff_of_true (List.forall_mem_singleton.2 (le_max_left 0 _)) (.inl (Nat.zero_le 1))
  · exact (forall_le_lastMoment_iff hd.le hs).trans (moments_le_lastMoment_iff hd hs)

/-- A clip of one frame at thirty frames a second, sampled at five moments. -/
theorem sampled_moments_one_frame : 0 < (1 / 30 : ℚ) ∧ 1 ≤ 5 ∧ Paced (1 / 30) 5 (sampleTimes (1 / 30 : ℚ) 5)
    ∧ ¬ (sampleTimes (1 / 30 : ℚ) 5).Pairwise (· ≤ ·)
    ∧ ¬ ∀ t ∈ sampleTimes (1 / 30 : ℚ) 5, t ≤ lastMoment (1 / 30) := by
  have hd : 0 < (1 / 30 : ℚ) := by norm_num
  have ht : 1 ≤ 5 := by decide
  have hclose : ¬ (5 ≤ 2 ∨ ((5 : Nat) - 1 : ℚ) ≤ 100 * (1 / 30)) := by norm_num
  obtain ⟨hpaced, horder, hearly, -⟩ := sampled_moments hd ht
  exact ⟨hd, ht, hpaced, fun h => hclose (horder.1 h), fun h => hclose (hearly.1 h)⟩

/-- The same plan in doubles. -/
theorem one_frame_out_of_order : ¬ (sampleTimes (1.0 / 30.0 : Float) 5).Pairwise (· ≤ ·)
    ∧ ∃ t ∈ sampleTimes (1.0 / 30.0 : Float) 5, max 0.0 (1.0 / 30.0 - 0.01) < t ∧ t < 1.0 / 30.0 := by
  decide +kernel

end Captioning
