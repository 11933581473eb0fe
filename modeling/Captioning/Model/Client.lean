import Captioning.Description
import Captioning.Job.Fault
import Captioning.Job.Timed
import Captioning.Model.Fence
import Captioning.Model.Prompt
import Captioning.Sampling.Frame
/-!
# Asking for a description

The model is asked again while its answers are no descriptions, up to a number of attempts and with a
growing pause in between. When it gives no answer at all it is not asked again.

Main statement: `backoff_le` (no pause exceeds the longest).
-/

namespace Captioning

/-- A model: its name, and what it says to an instruction with frames when it is asked for the first time,
the second time and so on. -/
structure Model where
  name : String
  answer : Nat → String → FrameSet → Timed (Except ServiceFault String)

/-- How a model is asked. -/
structure Client where
  model : Model
  instruction : String
  parseRetries : Nat
  retryBackoff : Span

namespace Client

/-- The description that an answer holds. -/
def parse (answer : String) : Except Json.Fault Description :=
  Description.ofText (String.ofList (stripFence answer.toList))

/-- The longest pause between two attempts. -/
def maxBackoff : Span := .ofSeconds 30

/-- The longest span that is kept. -/
def longestSpan : Span := ⟨Nat.pow 2 64 * 1000000000 - 1⟩

/-- The factor of the pause behind an attempt: doubled with every attempt, in a word of thirty-two bits. -/
def backoffFactor (attempt : Nat) : Nat :=
  if attempt - 1 < 32 then Nat.pow 2 (attempt - 1) else Nat.pow 2 32 - 1

/-- The pause behind an attempt. -/
def backoff (first : Span) (attempt : Nat) : Span :=
  if first.nanos == 0 then .zero
  else ⟨min (min (first.nanos * backoffFactor attempt) longestSpan.nanos) maxBackoff.nanos⟩

/-- The number of attempts that there are with some retries. -/
def attempts (retries : Nat) : Nat :=
  min (retries + 1) (Nat.pow 2 32 - 1)

/-- The beginning of an answer, for messages. -/
def snippet (answer : String) : String :=
  String.ofList (answer.toList.take 300)

/-- What is reported when there will be another attempt. -/
def retryNotice (attempt attempts : Nat) (f : Json.Fault) : String :=
  "JSON parse error (retrying, attempt " ++ toString attempt ++ "/" ++ toString attempts ++ "): " ++ f.message

/-- What is reported when there will be none. -/
def giveUpNotices (attempts : Nat) (f : Json.Fault) (answer : String) : List Event := [
  .note ("JSON parse error (giving up after " ++ toString attempts ++ " attempts): " ++ f.message),
  .note ("Raw response: " ++ snippet answer)]

/-- Asks once, for the attempt `n` counted from one. -/
def ask (c : Client) (frames : FrameSet) (n : Nat) : Timed (Except ServiceFault String) :=
  (Timed.event .call).andThen fun _ => c.model.answer (n - 1) c.instruction frames

/-- The pause behind an attempt, if it is one. -/
def pauseEvents (s : Span) : List Event :=
  if s.nanos == 0 then [] else [.pause s]

/-- What an answer comes to: there is a description or a fault that ends the attempts, or a text that is no
description. -/
inductive Verdict
  | final (outcome : Except ItemFault Description)
  | unreadable (cause : Json.Fault) (answer : String)

/-- Judges an answer. -/
def judge : Except ServiceFault String → Verdict
  | .error f => .final (.error (.service f))
  | .ok answer => match parse answer with
    | .ok d => .final (.ok d)
    | .error f => .unreadable f answer

/-- Asks until there is a description, for the attempt `n` counted from one and up to `left` more. -/
def describeFrom (c : Client) (frames : FrameSet) (n : Nat) : Nat → Timed (Except ItemFault Description)
  | 0 => (c.ask frames n).andThen fun reply =>
    match judge reply with
    | .final outcome => .value outcome
    | .unreadable f answer =>
      ⟨giveUpNotices n f answer, .ok (.error (.unreadable n f.message (snippet answer)))⟩
  | left + 1 => (c.ask frames n).andThen fun reply =>
    match judge reply with
    | .final outcome => .value outcome
    | .unreadable f _ =>
      (⟨.note (retryNotice n (n + left + 1) f) :: pauseEvents (backoff c.retryBackoff n), .ok ()⟩ :
        Timed Unit).andThen fun _ => describeFrom c frames (n + 1) left

/-- Asks for a description of some frames. -/
def describe (c : Client) (frames : FrameSet) : Timed (Except ItemFault Description) :=
  c.describeFrom frames 1 (attempts c.parseRetries - 1)

/-! ## Small facts -/

theorem backoff_le (first : Span) (attempt : Nat) : (backoff first attempt).nanos ≤ maxBackoff.nanos := by
  unfold backoff
  split
  · simp
  · exact Nat.min_le_right _ _

end Client

end Captioning
