/-!
# Where to sample

Which frames of a sequence, or which moments of a stream, are sampled: evenly spaced, from the first to the
last. The last moment is pulled a little inside the end of the stream, where there still is something to
decode.

Main statements: `sampleIndices_of_le` (a short sequence is taken whole), `length_sampleTimes`.
-/

namespace Captioning

/-- A natural number as the nearest double. -/
instance nearestDouble : NatCast Float := ⟨Float.ofNat⟩

/-- Positions are counted in words of sixty-four bits. -/
def positionBound : Nat := Nat.pow 2 64

/-- Evenly spaced positions among `count` frames, both ends included: the position `i` is
`i` · (`count` - 1) / (`target` - 1), a half rounded up. -/
def sampleIndices (count target : Nat) : List Nat :=
  if count ≤ target then List.range count
  else if target == 0 then []
  else if target == 1 then [0]
  else
    let span := count - 1
    let steps := target - 1
    (List.range target).map fun i => (2 * i * span + steps) % positionBound / (2 * steps)

/-- Evenly spaced moments of a stream, as numbers of any kind: the moment `i` is
`i` · `duration` / (`target` - 1), and the last one is at least a hundredth before the end, if it can be. -/
def sampleTimes {α : Type} [NatCast α] [Mul α] [Div α] [Sub α] [Min α] [Max α] (duration : α)
    (target : Nat) : List α :=
  if target ≤ 1 then [((0 : Nat) : α)]
  else
    let steps : α := ((target - 1 : Nat) : α)
    let time := fun (i : Nat) => (i : α) * duration / steps
    let margin : α := ((1 : Nat) : α) / ((100 : Nat) : α)
    (List.range (target - 1)).map time ++ [min (time (target - 1)) (max ((0 : Nat) : α) (duration - margin))]

theorem sampleIndices_of_le {count target : Nat} (h : count ≤ target) :
    sampleIndices count target = List.range count := by
  simp [sampleIndices, h]

theorem length_sampleTimes {α : Type} [NatCast α] [Mul α] [Div α] [Sub α] [Min α] [Max α] (duration : α)
    (target : Nat) : (sampleTimes duration target).length = max target 1 := by
  unfold sampleTimes
  split <;> simp <;> omega

end Captioning
