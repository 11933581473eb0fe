import Captioning.Image.Bits
/-!
# Run-length coding of bitmaps

Palette indices may be written as a list of steps instead of one by one: so many pixels of one index, or of
two in turn, or of indices that are written out; the end of a row or of the picture; or a move to a place
further right and up. Rows are in the order in which they are stored. What no step paints stays unpainted.
-/

namespace Captioning.Image.Bitmap

/-- A step of run-length coding. -/
inductive Step
  | paint (indices : List UInt8)
  | endRow
  | endPicture
  | move (right up : Nat)

/-- The two halves of each byte, the higher one first. -/
def halves (b : Bytes) : List UInt8 :=
  b.flatMap fun (x : UInt8) => [x >>> 4, x &&& 15]

/-- Takes a step. Indices have `depth` bits: eight, or four. -/
def takeStep (depth : Nat) (b : Bytes) : Except Fault (Step × Bytes) :=
  match b with
  | 0 :: 0 :: r => .ok (.endRow, r)
  | 0 :: 1 :: r => .ok (.endPicture, r)
  | 0 :: 2 :: right :: up :: r => .ok (.move right.toNat up.toNat, r)
  | 0 :: 2 :: _ => .error .truncated
  | 0 :: n :: r =>
    let count := n.toNat
    let bytes := if depth == 4 then (count + 1) / 2 else count
    let taken := bytes + bytes % 2
    if r.length < taken then .error .truncated
    else
      let written := r.take taken
      .ok (.paint ((if depth == 4 then halves written else written).take count), r.drop taken)
  | n :: x :: r =>
    .ok (.paint (if depth == 4 then (halves (List.replicate n.toNat x)).take n.toNat
      else List.replicate n.toNat x), r)
  | _ => .error .truncated

/-- A picture under construction: an index for each pixel that has been painted. -/
abbrev Painting := Array (Option UInt8)

/-- Paints indices from a place on. -/
def put : List UInt8 → Nat → Painting → Painting
  | [], _, p => p
  | i :: more, place, p => put more (place + 1) (p.setIfInBounds place (some i))

/-- Follows steps from column `x` of row `y` on. A run that leaves its row ends the picture, and a move has
to stay inside of it. `fuel` bounds the number of steps. -/
def follow (width height depth : Nat) : Nat → Bytes → Nat → Nat → Painting → Except Fault Painting
  | 0, _, _, _, _ => .error .truncated
  | fuel + 1, b, x, y, p =>
    if height ≤ y then .ok p
    else match takeStep depth b with
      | .error f => .error f
      | .ok (.endPicture, _) => .ok p
      | .ok (.endRow, r) => follow width height depth fuel r 0 (y + 1) p
      | .ok (.move right up, r) =>
        if height ≤ y + up || width < x + right then .error (.malformed "move")
        else follow width height depth fuel r (x + right) (y + up) p
      | .ok (.paint indices, r) =>
        let p := put (indices.take (width - x)) (y * width + x) p
        if width < x + indices.length then .ok p
        else follow width height depth fuel r (x + indices.length) y p

/-- The indices in run-length coding. -/
def readRuns (width height depth : Nat) (b : Bytes) : Except Fault Painting :=
  follow width height depth (b.length + 1) b 0 0 (Array.replicate (width * height) none)

end Captioning.Image.Bitmap
