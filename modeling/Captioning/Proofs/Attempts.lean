import Captioning.Model.Client
import Captioning.Proofs.JsonSteps
import Captioning.Settings.Basic
import Mathlib.Algebra.Order.Ring.Nat
import Mathlib.Order.Monotone.Basic
/-!
# Attempts and pauses

A pause is computed in words, with a factor that is cut off and a product that is cut off. Neither shows, as the longest
pause is reached before (`nanos_backoff_ofMillis`): the first pause of some milliseconds is doubled with every attempt,
up to that.

From a call whose answer is no description, the client goes on to another one behind a pause, if an attempt is left
(`Course.retry`). So any number of such answers leads from the first call to a later one (`Course.from_first`), which is
the last one if it settles the matter (`course_of_settles`) or no attempt is left (`course_of_unreadable`). What happens
is measured by its calls and the times between them (`Event.laps`).
-/

namespace Captioning

namespace Event

variable {es : List Event}

/-- The times between calls, the first one in front of them all and the last one behind. -/
def laps : List Event → List Nat
  | [] => [0]
  | .call :: more => 0 :: laps more
  | e :: more => (laps more).modifyHead (e.nanos + ·)

@[simp] theorem laps_nil : laps [] = [0] := rfl

@[simp] theorem laps_call (es : List Event) : laps (.call :: es) = 0 :: laps es := rfl

theorem laps_cons {e : Event} (h : e ≠ .call) (es : List Event) :
    laps (e :: es) = (laps es).modifyHead (e.nanos + ·) := by
  cases e with
  | call => exact absurd rfl h
  | pause s => rfl
  | note text => rfl
  | stop => rfl

theorem length_laps (es : List Event) : (laps es).length = es.count .call + 1 := by
  induction es with
  | nil => rfl
  | cons e es ih =>
    by_cases h : e = .call
    · subst h
      rw [laps_call, List.length_cons, ih, List.count_cons_self]
    · rw [laps_cons h, List.length_modifyHead, ih, List.count_cons_of_ne h]

/-- What is no call makes the time in front of the next one longer. -/
theorem laps_append (h : .call ∉ es) (fs : List Event) :
    laps (es ++ fs) = (laps fs).modifyHead (total es + ·) := by
  induction es with
  | nil => cases hl : laps fs <;> simp [hl]
  | cons e es ih =>
    simp only [List.mem_cons, not_or] at h
    rw [List.cons_append, laps_cons (Ne.symm h.1), ih h.2, List.modifyHead_modifyHead, total_cons]
    simp only [Function.comp_def, Nat.add_assoc]

theorem laps_of_notMem (h : .call ∉ es) : laps es = [total es] := by
  simpa using laps_append h []

end Event

namespace Client

/-! ## Pauses -/

section Backoff

variable {b attempt : Nat}

/-- The longest span does not show in a pause, since the longest pause is shorter. -/
theorem nanos_backoff (first : Span) (attempt : Nat) :
    (backoff first attempt).nanos = min (first.nanos * backoffFactor attempt) maxBackoff.nanos := by
  have hlong : maxBackoff.nanos ≤ longestSpan.nanos := by decide
  unfold backoff
  split
  · rename_i h
    have hzero : first.nanos = 0 := beq_iff_eq.1 h
    rw [hzero, Nat.zero_mul, Nat.zero_min, Span.zero_nanos]
  · rw [Nat.min_assoc, Nat.min_eq_right hlong]

theorem backoffFactor_lt (attempt : Nat) : backoffFactor attempt < 2 ^ 32 := by
  unfold backoffFactor
  split
  · rename_i h
    exact Nat.pow_lt_pow_right Nat.one_lt_two h
  · decide

/-- Where the factor is cut off, a millisecond makes more than the longest pause, with the factor and without the cut. -/
theorem maxBackoff_le_mul (hb : 0 < b) (ha : 32 ≤ attempt - 1) :
    maxBackoff.nanos ≤ (Span.ofMillis b).nanos * backoffFactor attempt
    ∧ maxBackoff.nanos ≤ (Span.ofMillis b).nanos * 2 ^ (attempt - 1) := by
  have hmilli : maxBackoff.nanos ≤ (Span.ofMillis 1).nanos * (2 ^ 32 - 1) := by decide
  have hfirst : (Span.ofMillis 1).nanos ≤ (Span.ofMillis b).nanos := Nat.mul_le_mul_right _ hb
  have hfactor : backoffFactor attempt = 2 ^ 32 - 1 := if_neg (by omega)
  have hpow : 2 ^ 32 - 1 ≤ 2 ^ (attempt - 1) := (Nat.sub_le _ _).trans (Nat.pow_le_pow_right Nat.two_pos ha)
  rw [hfactor]
  exact ⟨hmilli.trans (Nat.mul_le_mul_right _ hfirst), hmilli.trans (Nat.mul_le_mul hfirst hpow)⟩

/-- A first pause of whole milliseconds is doubled with every attempt, up to the longest pause. -/
theorem nanos_backoff_ofMillis (b attempt : Nat) : (backoff (.ofMillis b) attempt).nanos
    = min ((Span.ofMillis b).nanos * 2 ^ (attempt - 1)) maxBackoff.nanos := by
  rw [nanos_backoff]
  rcases Nat.eq_zero_or_pos b with rfl | hb
  · simp [Span.ofMillis]
  rcases Nat.lt_or_ge (attempt - 1) 32 with ha | ha
  · rw [show backoffFactor attempt = 2 ^ (attempt - 1) from if_pos ha]
  · obtain ⟨hcut, hpow⟩ := maxBackoff_le_mul hb ha
    rw [Nat.min_eq_right hcut, Nat.min_eq_right hpow]

/-- Pauses that begin with `b` milliseconds. -/
structure Doubling (b : Nat) (pause : Nat → Span) : Prop where
  law (attempt : Nat) : (pause attempt).nanos = min (30 * 10 ^ 9) (b * 10 ^ 6 * 2 ^ (attempt - 1))
  none (attempt : Nat) : pause attempt = .zero ↔ b = 0
  growing : Monotone fun attempt => (pause attempt).nanos
  bounded (attempt : Nat) : (pause attempt).nanos ≤ 30 * 10 ^ 9

theorem Doubling.of_law {pause : Nat → Span}
    (h : ∀ attempt, (pause attempt).nanos = min (30 * 10 ^ 9) (b * 10 ^ 6 * 2 ^ (attempt - 1))) :
    Doubling b pause := by
  constructor
  case law => exact h
  case none =>
    intro attempt
    have hpow : 0 < 2 ^ (attempt - 1) := Nat.two_pow_pos _
    have hzero : pause attempt = .zero ↔ (pause attempt).nanos = 0 :=
      ⟨fun h => h ▸ Span.zero_nanos, fun h => congrArg Span.mk h⟩
    rw [hzero, h]
    constructor
    · intro hmin
      rcases Nat.eq_zero_or_pos b with hb | hb
      · exact hb
      · have hprod : 0 < b * 10 ^ 6 * 2 ^ (attempt - 1) := Nat.mul_pos (Nat.mul_pos hb (by decide)) hpow
        omega
    · rintro rfl
      simp
  case growing =>
    intro i j hij
    have hpow : 2 ^ (i - 1) ≤ 2 ^ (j - 1) := Nat.pow_le_pow_right Nat.two_pos (Nat.sub_le_sub_right hij 1)
    show (pause i).nanos ≤ (pause j).nanos
    have hprod : b * 10 ^ 6 * 2 ^ (i - 1) ≤ b * 10 ^ 6 * 2 ^ (j - 1) := Nat.mul_le_mul_left _ hpow
    rw [h, h]
    omega
  case bounded =>
    intro attempt
    rw [h]
    exact Nat.min_le_left _ _

/-- The numbers on the way to a pause fit in their words: attempts are counted from one, the factor has thirty-two bits,
and the spans are no longer than the longest one. -/
structure InWords (first : Span) (attempt : Nat) : Prop where
  counted : attempt - 1 + 1 = attempt
  factor : backoffFactor attempt < 2 ^ 32
  base : first.nanos ≤ longestSpan.nanos
  pause : (backoff first attempt).nanos ≤ longestSpan.nanos

/-- The pauses that settings ask for are the first one, doubled again and again, up to half a minute; and they are
computed without an overflow. -/
theorem backoff_doubles (s : Settings) : Doubling s.retryBackoffMillis (backoff s.retryBackoff)
    ∧ (s.retryBackoffMillis < 2 ^ 64 → ∀ attempt, 1 ≤ attempt → attempt < 2 ^ 32 → InWords s.retryBackoff attempt) := by
  constructor
  · refine .of_law fun attempt => ?_
    rw [Settings.retryBackoff, nanos_backoff_ofMillis, Nat.min_comm]
    rfl
  · intro hb attempt hone _
    have hlongest : longestSpan.nanos = 2 ^ 64 * 10 ^ 9 - 1 := rfl
    have hfirst : s.retryBackoff.nanos = s.retryBackoffMillis * 10 ^ 6 := rfl
    refine ⟨Nat.sub_add_cancel hone, backoffFactor_lt attempt, ?_, ?_⟩
    · omega
    · exact (backoff_le _ _).trans (by decide)

/-- The longest first pause, and an attempt for which the factor is cut off. -/
theorem backoff_doubles_longest : (2 ^ 64 - 1) < 2 ^ 64 ∧ 1 ≤ 40 ∧ 40 < 2 ^ 32
    ∧ InWords (.ofMillis (2 ^ 64 - 1)) 40 ∧ backoffFactor 40 = 2 ^ 32 - 1 := by
  have hb : 2 ^ 64 - 1 < 2 ^ 64 := by decide
  exact ⟨hb, by decide, by decide,
    (backoff_doubles { Settings.default "" with retryBackoffMillis := 2 ^ 64 - 1 }).2 hb 40 (by decide) (by decide), rfl⟩

end Backoff

/-! ## Calls -/

section Attempts

variable {c : Client} {frames : FrameSet} {script : Nat → Except ServiceFault String} {n left retries : Nat}
  {reply : Except ServiceFault String} {text : String} {cause : Json.Fault} {outcome : Except ItemFault Description}

@[simp] theorem total_pauseEvents (s : Span) : Event.total (pauseEvents s) = s.nanos := by
  unfold pauseEvents
  split
  · rename_i h
    exact (beq_iff_eq.1 h).symm
  · rfl

theorem call_notMem_pauseEvents (s : Span) : .call ∉ pauseEvents s := by
  unfold pauseEvents
  split <;> simp

/-- Asked for the first time, the second time and so on, the model answers as a script says. It does not ask itself. -/
structure Follows (c : Client) (frames : FrameSet) (script : Nat → Except ServiceFault String) : Prop where
  result (n : Nat) : (c.model.answer n c.instruction frames).result = .ok (script n)
  quiet (n : Nat) : .call ∉ (c.model.answer n c.instruction frames).events

/-- The time that the model takes for an answer. -/
def pace (c : Client) (frames : FrameSet) (n : Nat) : Nat :=
  (c.model.answer n c.instruction frames).length.nanos

/-- An answer settles the matter if it is a fault of the service, or a text that is a description. -/
inductive Settles : Except ServiceFault String → Except ItemFault Description → Prop
  | fault (f : ServiceFault) : Settles (.error f) (.error (.service f))
  | description {text : String} {d : Description} (h : parse text = .ok d) : Settles (.ok text) (.ok d)

/-- An answer that is a text, but no description. -/
structure Unreadable (reply : Except ServiceFault String) (text : String) (cause : Json.Fault) : Prop where
  said : reply = .ok text
  refused : parse text = .error cause

theorem judge_of_settles (h : Settles reply outcome) : judge reply = .final outcome := by
  unfold judge
  cases h with
  | fault f => rfl
  | description h => simp only [h]

theorem judge_of_unreadable (h : Unreadable reply text cause) : judge reply = .unreadable cause text := by
  unfold judge
  simp only [h.said, h.refused]

/-- What happens from the call number `n` on, counted from zero: some more calls, each behind its pause, and in the end
an outcome. -/
structure Course (c : Client) (frames : FrameSet) (n retries : Nat) (outcome : Except ItemFault Description)
    (x : Timed (Except ItemFault Description)) : Prop where
  result : x.result = .ok outcome
  laps : Event.laps x.events = 0 :: (List.range retries).map
    (fun i => c.pace frames (n + i) + (backoff c.retryBackoff (n + i + 1)).nanos) ++ [c.pace frames (n + retries)]

theorem ask_succ (c : Client) (frames : FrameSet) (n : Nat) : c.ask frames (n + 1)
    = ⟨.call :: (c.model.answer n c.instruction frames).events, (c.model.answer n c.instruction frames).result⟩ := rfl

/-- A call is the last one if its answer settles the matter. -/
theorem course_of_settles (h : c.Follows frames script) (hs : Settles (script n) outcome) (left : Nat) :
    Course c frames n 0 outcome (c.describeFrom frames (n + 1) left) := by
  have hx : c.describeFrom frames (n + 1) left
      = ⟨.call :: (c.model.answer n c.instruction frames).events, .ok outcome⟩ := by
    cases left <;> simp [describeFrom, ask_succ, Timed.andThen, h.result, judge_of_settles hs, Timed.value]
  rw [hx]
  exact ⟨rfl, by simp [Event.laps_of_notMem (h.quiet n), pace, Timed.length]⟩

/-- A call is the last one if no attempt is left. -/
theorem course_of_unreadable (h : c.Follows frames script) (hu : Unreadable (script n) text cause) :
    Course c frames n 0 (.error (.unreadable (n + 1) cause.message (snippet text)))
      (c.describeFrom frames (n + 1) 0) := by
  have hx : c.describeFrom frames (n + 1) 0
      = ⟨.call :: (c.model.answer n c.instruction frames).events ++ giveUpNotices (n + 1) cause text,
        .ok (.error (.unreadable (n + 1) cause.message (snippet text)))⟩ := by
    simp [describeFrom, ask_succ, Timed.andThen, h.result, judge_of_unreadable hu]
  have hnotes : .call ∉ giveUpNotices (n + 1) cause text := by simp [giveUpNotices]
  rw [hx]
  refine ⟨rfl, ?_⟩
  rw [List.cons_append, Event.laps_call, Event.laps_append (h.quiet n), Event.laps_of_notMem hnotes]
  simp [giveUpNotices, Event.nanos, pace, Timed.length]

/-- Behind any other call there is a pause, and another call. -/
theorem Course.retry (h : c.Follows frames script) (hu : Unreadable (script n) text cause)
    (hx : Course c frames (n + 1) retries outcome (c.describeFrom frames (n + 2) left)) :
    Course c frames n (retries + 1) outcome (c.describeFrom frames (n + 1) (left + 1)) := by
  have hstep : c.describeFrom frames (n + 1) (left + 1)
      = ⟨.call :: (c.model.answer n c.instruction frames).events
          ++ (.note (retryNotice (n + 1) (n + 1 + left + 1) cause) :: pauseEvents (backoff c.retryBackoff (n + 1))
            ++ (c.describeFrom frames (n + 2) left).events), (c.describeFrom frames (n + 2) left).result⟩ := by
    simp [describeFrom, ask_succ, Timed.andThen, h.result, judge_of_unreadable hu]
  have hnext : ∀ i, n + 1 + i = n + (i + 1) := fun i => by omega
  rw [hstep]
  refine ⟨hx.result, ?_⟩
  rw [List.cons_append, Event.laps_call, Event.laps_append (h.quiet n), List.cons_append,
    Event.laps_cons (by simp), Event.laps_append (call_notMem_pauseEvents _), hx.laps, List.range_succ_eq_map]
  simp only [hnext, List.cons_append, List.modifyHead_cons, List.map_cons, List.map_map, Function.comp_def, Event.nanos,
    total_pauseEvents, Nat.zero_add, Nat.add_zero, Nat.succ_eq_add_one]
  rfl

/-- Answers that are no descriptions lead from the first call to a later one. -/
theorem Course.from_first (h : c.Follows frames script)
    (hbad : ∀ i < n, ∃ text cause, Unreadable (script i) text cause)
    (hx : Course c frames n retries outcome (c.describeFrom frames (n + 1) left)) :
    Course c frames 0 (n + retries) outcome (c.describeFrom frames 1 (n + left)) := by
  induction n generalizing retries left with
  | zero => simpa using hx
  | succ n ih =>
    obtain ⟨text, cause, hu⟩ := hbad n (Nat.lt_succ_self n)
    have hfirst := ih (fun i hi => hbad i (Nat.lt_succ_of_lt hi)) (hx.retry h hu)
    rwa [Nat.add_right_comm n 1 retries, Nat.add_assoc n retries 1, Nat.add_right_comm n 1 left,
      Nat.add_assoc n left 1]

/-- A client asks once and some more times, and comes to an outcome. In front of the first call it does not wait, between
two calls as long as the model takes and then as long as the pause is, and behind the last call for the model alone. -/
structure Asks (c : Client) (frames : FrameSet) (retries : Nat) (outcome : Except ItemFault Description) : Prop where
  result : (c.describe frames).result = .ok outcome
  calls : (c.describe frames).events.count .call = retries + 1
  laps : Event.laps (c.describe frames).events = 0 :: (List.range retries).map
    (fun i => c.pace frames i + (backoff c.retryBackoff (i + 1)).nanos) ++ [c.pace frames retries]

theorem Course.asks (h : Course c frames 0 retries outcome (c.describe frames)) : Asks c frames retries outcome := by
  have hlaps := h.laps
  simp only [Nat.zero_add] at hlaps
  refine ⟨h.result, ?_, hlaps⟩
  have hlength := Event.length_laps (c.describe frames).events
  rw [hlaps] at hlength
  simpa using hlength.symm

theorem snippet_eq (text : String) : snippet text = String.ofList (text.toList.take (min 300 text.length)) := by
  rw [snippet, ← String.length_toList, ← List.take_eq_take_min]

end Attempts

/-- What a client does whose model answers as a script says. Behind `n` answers that are no descriptions, it asks once
more; if that answer settles the matter it says so, and if it is the last attempt it tells what the answer was. -/
theorem describe_attempts {c : Client} {frames : FrameSet} {script : Nat → Except ServiceFault String}
    (h : c.Follows frames script) (n : Nat) (hbad : ∀ i < n, ∃ text cause, Unreadable (script i) text cause) :
    (n + 1 ≤ min (c.parseRetries + 1) (2 ^ 32 - 1) → ∀ outcome, Settles (script n) outcome → Asks c frames n outcome)
    ∧ (n + 1 = min (c.parseRetries + 1) (2 ^ 32 - 1) → ∀ text cause, Unreadable (script n) text cause →
      Asks c frames n
        (.error (.unreadable (n + 1) cause.message (String.ofList (text.toList.take (min 300 text.length)))))) := by
  have hattempts : attempts c.parseRetries = min (c.parseRetries + 1) (2 ^ 32 - 1) := rfl
  rw [← hattempts]
  constructor
  · intro hn outcome hs
    have hcourse := (course_of_settles h hs (attempts c.parseRetries - 1 - n)).from_first h hbad
    rw [Nat.add_zero, Nat.add_sub_cancel' (by omega)] at hcourse
    exact hcourse.asks
  · intro hn text cause hu
    have hcourse := (course_of_unreadable h hu).from_first h hbad
    have hleft : attempts c.parseRetries - 1 = n := by omega
    rw [Nat.add_zero, Nat.add_zero] at hcourse
    rw [← snippet_eq]
    refine Course.asks ?_
    rw [describe, hleft]
    exact hcourse

/-- A model says twice what is no description, and then what is one. -/
def lateAnswer (n : Nat) : Except ServiceFault String :=
  .ok (if n < 2 then "no" else "\x7b\"literal\":\"A cat.\",\"tags\":[]\x7d")

/-- A client of this model, which takes five milliseconds for an answer. -/
def lateClient (retries : Nat) : Client where
  model := ⟨"", fun n _ _ => ⟨[.pause (.ofMillis 5)], .ok (lateAnswer n)⟩⟩
  instruction := ""
  parseRetries := retries
  retryBackoff := .ofMillis 10

/-- The description is found with two retries, behind pauses of ten and of twenty milliseconds, and missed with one. -/
theorem lateClient_asks : ∃ cause d, Unreadable (lateAnswer 0) "no" cause ∧ Settles (lateAnswer 2) (.ok d)
    ∧ (∀ retries, (lateClient retries).Follows [] lateAnswer)
    ∧ Asks (lateClient 2) [] 2 (.ok d)
    ∧ Event.laps ((lateClient 2).describe []).events = [0, 15000000, 25000000, 5000000]
    ∧ Asks (lateClient 1) [] 1 (.error (.unreadable 2 cause.message "no")) := by
  obtain ⟨cause, hno⟩ : ∃ cause, parse "no" = .error cause := exists_error_of_toOption (by decide +kernel)
  obtain ⟨d, hd⟩ : ∃ d, parse "\x7b\"literal\":\"A cat.\",\"tags\":[]\x7d" = .ok d :=
    exists_ok_of_toOption (by decide +kernel)
  have hfollows : ∀ retries, (lateClient retries).Follows [] lateAnswer :=
    fun retries => ⟨fun n => rfl, fun n => by simp [lateClient]⟩
  have hbad : ∀ i < 2, Unreadable (lateAnswer i) "no" cause := fun i hi => ⟨congrArg Except.ok (if_pos hi), hno⟩
  have hgood : Settles (lateAnswer 2) (.ok d) := .description hd
  have hfound := (describe_attempts (hfollows 2) 2 fun i hi => ⟨_, _, hbad i hi⟩).1 (by decide) _ hgood
  have hmissed := (describe_attempts (hfollows 1) 1 fun i hi => ⟨_, _, hbad i (by omega)⟩).2 (by decide) _ _
    (hbad 1 (by decide))
  exact ⟨cause, d, hbad 0 (by decide), hgood, hfollows, hfound, hfound.laps.trans (by decide), hmissed⟩

end Client

end Captioning
