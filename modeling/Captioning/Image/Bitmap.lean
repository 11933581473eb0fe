import Captioning.Image.Bitmap.RunLength
import Captioning.Image.Raster
/-!
# Bitmaps

The form of pictures that starts with `BM`: a header with the place of the pixels, a second header with size
and depth, a palette for depths up to eight bits, and rows of pixels that are padded to four bytes and run
from the bottom to the top unless the height is negative. Palette indices may be in run-length coding.
-/

namespace Captioning.Image.Bitmap

/-- Where the bits of a part of a pixel are. -/
structure Mask where
  shift : Nat
  size : Nat

/-- How many bits at the end of a number are zero. `fuel` bounds the answer. -/
def trailingZeros : Nat → Nat → Nat
  | 0, _ => 0
  | fuel + 1, n => if n % 2 == 0 then trailingZeros fuel (n / 2) + 1 else 0

/-- The mask of a number of `size` bits whose bits are set where the part is: next to each other. -/
def Mask.ofNat (size n : Nat) : Except Fault Mask :=
  if n == 0 then .ok ⟨0, 0⟩
  else
    let shift := trailingZeros 32 n
    let length := (Nat.toDigits 2 (n >>> shift)).length
    if n >>> shift != Nat.pow 2 length - 1 || size < shift + length then .error (.malformed "mask")
    else .ok ⟨shift, length⟩

/-- A part of a number brought to eight bits. -/
def Mask.part (m : Mask) (v : Nat) : UInt8 :=
  if m.size == 0 then 0
  else
    let top := Nat.pow 2 m.size - 1
    let n := (v >>> m.shift) % Nat.pow 2 m.size
    UInt8.ofNat (if 8 ≤ m.size then n >>> (m.size - 8) else (n * 255 + top / 2) / top)

/-- What the headers say. -/
structure Head where
  width : Nat
  height : Nat
  topDown : Bool
  depth : Nat
  /-- Whether palette indices are in run-length coding. -/
  runs : Bool
  /-- The place of the pixels. -/
  start : Nat
  /-- Red, green, blue and opacity in pixels of sixteen or thirty-two bits. -/
  masks : List Mask
  palette : Array Pixel

/-- A number of four bytes with a sign. -/
def signedAt (b : Bytes) (place : Nat) : Int :=
  let n := littleAt b place 4
  if n < Nat.pow 2 31 then n else (n : Int) - Nat.pow 2 32

/-- The colours of a palette at a place, `step` bytes each. -/
def palette (b : Bytes) (place step count : Nat) : Array Pixel :=
  (Array.range count).map fun n => match b.drop (place + n * step) with
    | blue :: green :: red :: _ => ⟨red, green, blue, 255⟩
    | _ => ⟨0, 0, 0, 255⟩

/-- The parts of pixels when nothing is said about them. -/
def usualMasks (depth : Nat) : List Mask :=
  if depth == 16 then [⟨10, 5⟩, ⟨5, 5⟩, ⟨0, 5⟩, ⟨0, 0⟩] else [⟨16, 8⟩, ⟨8, 8⟩, ⟨0, 8⟩, ⟨0, 0⟩]

/-- Reads the masks of red, green, blue and, if there is one, opacity. The first three have to be there. -/
def readMasks (b : Bytes) (depth : Nat) (hasAlpha : Bool) : Except Fault (List Mask) := do
  let red ← Mask.ofNat depth (littleAt b 54 4)
  let green ← Mask.ofNat depth (littleAt b 58 4)
  let blue ← Mask.ofNat depth (littleAt b 62 4)
  let alpha ← Mask.ofNat depth (if hasAlpha then littleAt b 66 4 else 0)
  if [red, green, blue].any fun m => m.size == 0 then throw (.malformed "mask")
  return [red, green, blue, alpha]

/-- How pixels are written. -/
inductive Coding
  | plain
  | runs
  | masked
deriving DecidableEq

/-- The depths that a coding admits. -/
def Coding.depths : Coding → List Nat
  | .plain => [1, 2, 4, 8, 16, 24, 32]
  | .runs => [4, 8]
  | .masked => [16, 32]

/-- The coding of a number and depth. -/
def Coding.ofCode? (code depth : Nat) : Option Coding :=
  let coding : Option Coding := match code with
    | 0 => some .plain
    | 1 => if depth == 8 then some .runs else none
    | 2 => if depth == 4 then some .runs else none
    | 3 => some .masked
    | _ => none
  coding.filter fun c => c.depths.contains depth

/-- Reads the headers. -/
def readHead (b : Bytes) : Except Fault Head := do
  if b.length < 18 then throw .truncated
  let start := littleAt b 10 4
  let size := littleAt b 14 4
  if size == 12 then
    if b.length < 26 then throw .truncated
    if littleAt b 22 2 != 1 then throw (.malformed "number of planes")
    let depth := littleAt b 24 2
    if !([1, 4, 8, 24].contains depth) then throw (.malformed "depth")
    let count := if depth ≤ 8 then Nat.pow 2 depth else 0
    if b.length < 26 + 3 * count then throw .truncated
    return ⟨littleAt b 18 2, littleAt b 20 2, false, depth, false, start, [], palette b 26 3 count⟩
  else
    if !([40, 52, 56, 108, 124].contains size) then throw (.unsupported "header")
    if b.length < 14 + size then throw .truncated
    let width := signedAt b 18
    let height := signedAt b 22
    if width < 0 || 65535 < width.natAbs || 65535 < height.natAbs then throw (.malformed "size")
    if littleAt b 26 2 != 1 then throw (.malformed "number of planes")
    let depth := littleAt b 28 2
    match Coding.ofCode? (littleAt b 30 4) depth with
    | none => throw (.unsupported "coding")
    | some coding =>
      if coding == .runs && height < 0 then throw (.malformed "order of rows")
      let used := littleAt b 46 4
      let maskEnd := if coding == .masked && size == 40 then 14 + size + 12 else 14 + size
      if b.length < maskEnd then throw .truncated
      if depth ≤ 8 && Nat.pow 2 depth < used then throw (.malformed "palette")
      let count := if depth ≤ 8 then (if used == 0 then Nat.pow 2 depth else used) else 0
      if b.length < maskEnd + 4 * count then throw .truncated
      let masks ← if coding == .masked then readMasks b depth (56 ≤ size) else pure (usualMasks depth)
      return ⟨width.natAbs, height.natAbs, height < 0, depth, coding == .runs, start, masks,
        palette b maskEnd 4 count⟩

/-- The colour of a palette index, black outside of the palette. -/
def Head.color (h : Head) (index : Nat) : Pixel :=
  h.palette.getD index ⟨0, 0, 0, 255⟩

/-- The row that is shown at `y`. -/
def Head.row (h : Head) (y : Nat) : Nat :=
  if h.topDown then y else h.height - 1 - y

/-- A pixel of a row that starts at a place. -/
def pixel (h : Head) (data : ByteArray) (row x : Nat) : Pixel :=
  let byte := fun (n : Nat) => byteAt data (row + n)
  if h.depth ≤ 8 then
    let place := x * h.depth
    h.color (((byte (place / 8)).toNat >>> (8 - h.depth - place % 8)) % Nat.pow 2 h.depth)
  else if h.depth == 24 then ⟨byte (3 * x + 2), byte (3 * x + 1), byte (3 * x), 255⟩
  else
    let n := h.depth / 8
    let v := little ((List.range n).map fun k => byte (n * x + k))
    match h.masks with
    | [r, g, b, a] => ⟨r.part v, g.part v, b.part v, if a.size == 0 then 255 else a.part v⟩
    | _ => .clear

/-- Reads a bitmap. -/
def read (b : Bytes) : Except Fault Raster := do
  let h ← readHead b
  Raster.checkSize h.width h.height
  if h.runs then
    let painting ← readRuns h.width h.height h.depth (b.drop h.start)
    return .ofFn h.width h.height fun x y =>
      match painting.getD (h.row y * h.width + x) none with
      | some index => h.color index.toNat
      | none => ⟨0, 0, 0, 255⟩
  else
    let length := (h.width * h.depth + 31) / 32 * 4
    if b.length < h.start + length * h.height then throw .truncated
    let data : ByteArray := ⟨b.toArray⟩
    return .ofFn h.width h.height fun x y => pixel h data (h.start + length * h.row y) x

end Captioning.Image.Bitmap
