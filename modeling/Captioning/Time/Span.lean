import Captioning.Decimal.Layout
/-!
# Spans of time

A span is a number of nanoseconds. In messages it is written in the largest unit of which it holds at
least one, with its exact fraction.
-/

namespace Captioning

/-- A length of time, in nanoseconds. -/
structure Span where
  nanos : Nat
deriving Repr, DecidableEq, Inhabited

namespace Span

instance : Add Span := ⟨fun a b => ⟨a.nanos + b.nanos⟩⟩

/-- No time at all. -/
def zero : Span := ⟨0⟩

/-- A span of whole milliseconds. -/
def ofMillis (n : Nat) : Span := ⟨n * 1000000⟩

/-- A span of whole seconds. -/
def ofSeconds (n : Nat) : Span := ⟨n * 1000000000⟩

/-- The whole milliseconds of a span. -/
def millis (s : Span) : Nat := s.nanos / 1000000

/-- A span in seconds, as a double. -/
def seconds (s : Span) : Float :=
  (UInt64.ofNat (s.nanos / 1000000000)).toFloat
    + (UInt64.ofNat (s.nanos % 1000000000)).toFloat / 1000000000.0

/-- `n` units of `unit` nanoseconds, with the fraction of a unit in `places` decimals but without zeros at
its end. -/
def inUnit (n unit places : Nat) (name : String) : String :=
  let digits := Decimal.digitsOf (n % unit)
  let padded := Decimal.zeros (places - digits.length) ++ digits
  let fraction := (padded.reverse.dropWhile (· == '0')).reverse
  String.ofList (Decimal.digitsOf (n / unit) ++ if fraction.isEmpty then [] else '.' :: fraction) ++ name

/-- The text of a span in messages. -/
def text (s : Span) : String :=
  if 1000000000 ≤ s.nanos then inUnit s.nanos 1000000000 9 "s"
  else if 1000000 ≤ s.nanos then inUnit s.nanos 1000000 6 "ms"
  else if 1000 ≤ s.nanos then inUnit s.nanos 1000 3 "µs"
  else inUnit s.nanos 1 0 "ns"

@[simp] theorem zero_nanos : zero.nanos = 0 := rfl

end Span

end Captioning
