/-!
# Names beyond ASCII

A label of a host name with other characters than those of ASCII is written as its ASCII characters, followed
by the others as a chain of differences: in ascending order, each with the number of places that it moves
on. A difference is written in base thirty-six with digits whose range adapts to those before.

Main statement: `threshold_pos` (a digit always has room to end).
-/

namespace Captioning.Punycode

/-- The digits are the letters, then the ten figures. -/
def digit (n : Nat) : Char :=
  if n < 26 then Char.ofNat (97 + n) else Char.ofNat (22 + n)

/-- The least digit that does not end a number, at the place that has `k`. -/
def threshold (k bias : Nat) : Nat :=
  max 1 (min 26 (k - bias))

theorem threshold_pos (k bias : Nat) : 1 ≤ threshold k bias :=
  Nat.le_max_left _ _

/-- The digits of a difference, from the place that has `k` on. -/
def digitsFrom (bias k n : Nat) : List Char :=
  let t := threshold k bias
  if n < t then [digit n]
  else digit (t + (n - t) % (36 - t)) :: digitsFrom bias (k + 36) ((n - t) / (36 - t))
termination_by n
decreasing_by
  have := threshold_pos k bias
  exact Nat.lt_of_le_of_lt (Nat.div_le_self _ _) (by omega)

/-- Divides until little is left. Returns what is left and thirty-six for each division. -/
def settle (n k : Nat) : Nat × Nat :=
  if 455 < n then settle (n / 35) (k + 36) else (n, k)
termination_by n
decreasing_by exact Nat.div_lt_self (by omega) (by omega)

/-- The bias behind a difference: `count` characters have been written, and it was the first one or not. -/
def adapt (difference count : Nat) (first : Bool) : Nat :=
  let n := difference / if first then 700 else 2
  let (n, k) := settle (n + n / count) 0
  k + 36 * n / (n + 38)

/-- A label that is being written. -/
structure State where
  difference : Nat
  bias : Nat
  /-- How many characters have been written. -/
  count : Nat
  digits : List Char

/-- Passes a character of the label while those with the number `m` are written. -/
def State.pass (basic m : Nat) (s : State) (c : Nat) : State :=
  if c < m then { s with difference := s.difference + 1 }
  else if c == m then {
    difference := 0
    bias := adapt s.difference (s.count + 1) (s.count == basic)
    count := s.count + 1
    digits := s.digits ++ digitsFrom s.bias 36 s.difference }
  else s

/-- Passes the whole label once for each number in the list; `n` is the least number that is left. -/
def State.sweep (basic : Nat) (label : List Nat) : Nat → List Nat → State → State
  | _, [], s => s
  | n, m :: more, s =>
    let s := { s with difference := s.difference + (m - n) * (s.count + 1) }
    let s := label.foldl (State.pass basic m) s
    sweep basic label (m + 1) more { s with difference := s.difference + 1 }

/-- The numbers beyond ASCII in a label, in ascending order. -/
def beyond (label : List Nat) : List Nat :=
  ((label.filter (128 ≤ ·)).mergeSort fun a b => decide (a ≤ b)).eraseDups

/-- The ASCII form of a label. -/
def encode (label : List Char) : List Char :=
  let basic := label.filter fun c => c.toNat < 128
  let numbers := label.map Char.toNat
  let s := State.sweep basic.length numbers 128 (beyond numbers) ⟨0, 72, basic.length, []⟩
  basic ++ (if basic.isEmpty then [] else ['-']) ++ s.digits

end Captioning.Punycode
