import Captioning.Time.Span
/-!
# Work that takes time

A `Timed` computation is what happens while it runs, in order, and how it ends: with a value, or with a
crash. Time passes in pauses only. `Timed.within` cuts a computation off at a deadline; work that ends
exactly at the deadline is in time.

Main statements: `within_of_le` (work that ends in time is not changed by a deadline), `result_andThen` and
`result_within` (what ends with a value has got there by values).
-/

namespace Captioning

/-- Something that happens in the course of a job. -/
inductive Event
  | pause (length : Span)
  /-- The model is asked. -/
  | call
  /-- Something is reported. -/
  | note (text : String)
  /-- The run is asked to stop. -/
  | stop
deriving Repr, DecidableEq

namespace Event

/-- The time that an event takes. -/
def nanos : Event → Nat
  | .pause s => s.nanos
  | _ => 0

/-- What is reported by an event. -/
def text? : Event → Option String
  | .note text => some text
  | _ => none

/-- The time that some events take. -/
def total : List Event → Nat
  | [] => 0
  | e :: more => e.nanos + total more

/-- The events up to a deadline that is `limit` away. -/
def cut (limit : Nat) : List Event → List Event
  | [] => []
  | .pause s :: more =>
    if s.nanos ≤ limit then .pause s :: cut (limit - s.nanos) more else [.pause ⟨limit⟩]
  | e :: more => e :: cut limit more

@[simp] theorem total_nil : total [] = 0 := rfl

@[simp] theorem total_cons (e : Event) (es : List Event) : total (e :: es) = e.nanos + total es := rfl

end Event

/-- What happens in a computation, and its value or the message of its crash. -/
structure Timed (α : Type) where
  events : List Event
  result : Except String α

namespace Timed

variable {α β γ : Type}

/-- A value at once. -/
def value (x : α) : Timed α := ⟨[], .ok x⟩

/-- A crash at once. -/
def crash (message : String) : Timed α := ⟨[], .error message⟩

/-- One event. -/
def event (e : Event) : Timed Unit := ⟨[e], .ok ()⟩

/-- Lets time pass. -/
def pause (s : Span) : Timed Unit := event (.pause s)

/-- Reports something. -/
def note (text : String) : Timed Unit := event (.note text)

/-- One computation after the other. -/
def andThen (x : Timed α) (f : α → Timed β) : Timed β :=
  match x.result with
  | .ok a => ⟨x.events ++ (f a).events, (f a).result⟩
  | .error message => ⟨x.events, .error message⟩

instance : Monad Timed where
  pure := value
  bind := andThen

/-- The time that a computation takes. -/
def length (x : Timed α) : Span := ⟨Event.total x.events⟩

/-- A computation that is cut off after `limit`; none if it was. -/
def within (limit : Span) (x : Timed α) : Timed (Option α) :=
  if Event.total x.events ≤ limit.nanos then ⟨x.events, x.result.map some⟩
  else ⟨Event.cut limit.nanos x.events, .ok none⟩

/-! ## Small facts -/

theorem within_of_le {limit : Span} {x : Timed α} (h : x.length.nanos ≤ limit.nanos) :
    x.within limit = ⟨x.events, x.result.map some⟩ := by
  simp only [length] at h
  simp [within, h]

theorem result_andThen {x : Timed α} {f : α → Timed β} {b : β} :
    (x.andThen f).result = .ok b ↔ ∃ a, x.result = .ok a ∧ (f a).result = .ok b := by
  unfold andThen
  cases x.result <;> simp

theorem result_within {limit : Span} {x : Timed α} {a : α} (h : (x.within limit).result = .ok (some a)) :
    x.result = .ok a := by
  unfold within at h
  split at h
  · cases hx : x.result with
    | error e => simp [hx, Except.map] at h
    | ok b =>
      rw [hx] at h
      exact congrArg Except.ok (Option.some.inj (Except.ok.inj h))
  · cases Except.ok.inj h

end Timed

end Captioning
