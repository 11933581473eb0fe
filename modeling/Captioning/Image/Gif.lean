import Captioning.Image.Lzw
import Captioning.Image.Raster
/-!
# Animations with palettes

The form of animations that starts with `GIF87a` or `GIF89a`: a header with the size of the canvas and a
palette, and blocks up to a trailer. An image block holds a rectangle of palette indices in dictionary
coding, perhaps with a palette of its own, perhaps with its rows interlaced; a control extension before it
says which index is transparent and what becomes of the rectangle before the next frame is drawn.

`Gif.frames` draws the images over each other. It yields the frames before the first fault, and that fault.
-/

namespace Captioning.Image.Gif

/-- What becomes of a frame's rectangle before the next frame is drawn. -/
inductive Disposal
  | keep
  | clear
  | restore
deriving Repr, DecidableEq

/-- What a control extension says about the next image. -/
structure Control where
  disposal : Disposal
  transparent : Option UInt8

/-- What holds without a control extension. -/
def Control.usual : Control := ⟨.keep, none⟩

/-- An image block. -/
structure ImageBlock where
  left : Nat
  top : Nat
  width : Nat
  height : Nat
  interlaced : Bool
  palette : Bytes
  control : Control
  symbolSize : Nat
  data : Bytes

/-- The size of the canvas and the palette of images that bring none. -/
structure Header where
  width : Nat
  height : Nat
  palette : Option Bytes

/-- Takes `n` bytes from the front. -/
def take (n : Nat) (b : Bytes) : Except Fault (Bytes × Bytes) :=
  if b.length < n then .error .truncated else .ok (b.take n, b.drop n)

/-- Takes the palette that flags announce. -/
def takePalette (flags : UInt8) (b : Bytes) : Except Fault (Option Bytes × Bytes) :=
  if flags.toNat / 128 == 1 then (take (3 * Nat.pow 2 (flags.toNat % 8 + 1)) b).map fun (p, r) => (some p, r)
  else .ok (none, b)

/-- Takes pieces of data up to an empty one. `fuel` bounds their number. -/
def takePieces : Nat → Bytes → Except Fault (Bytes × Bytes)
  | 0, _ => .error .truncated
  | fuel + 1, b => match b with
    | [] => .error .truncated
    | n :: r =>
      if n == 0 then .ok ([], r)
      else do
        let (here, r) ← take n.toNat r
        let (more, r) ← takePieces fuel r
        return (here ++ more, r)

/-- Takes the header. -/
def takeHeader (b : Bytes) : Except Fault (Header × Bytes) := do
  let (h, r) ← take 13 b
  let (palette, r) ← takePalette (h.getD 10 0) r
  return (⟨littleAt h 6 2, littleAt h 8 2, palette⟩, r)

/-- Reads the data of a control extension. -/
def readControl (data : Bytes) : Except Fault Control :=
  match data with
  | [flags, _, _, index] =>
    let disposal := match flags.toNat / 4 % 8 with
      | 2 => .clear
      | 3 => .restore
      | _ => .keep
    .ok ⟨disposal, if flags.toNat % 2 == 1 then some index else none⟩
  | _ => .error (.malformed "control extension")

/-- Takes an image block behind its introducer. -/
def takeImage (h : Header) (control : Control) (b : Bytes) : Except Fault (ImageBlock × Bytes) := do
  let (d, r) ← take 9 b
  let flags := d.getD 8 0
  let (own, r) ← takePalette flags r
  let (size, r) ← take 1 r
  let symbolSize := (size.getD 0 0).toNat
  if 11 < symbolSize then throw (.malformed "code size")
  match own <|> h.palette with
  | none => throw (.malformed "image without a palette")
  | some palette =>
    let (data, r) ← takePieces (r.length + 1) r
    return (⟨littleAt d 0 2, littleAt d 2 2, littleAt d 4 2, littleAt d 6 2, flags.toNat / 64 % 2 == 1,
      palette, control, symbolSize, data⟩, r)

/-- The images up to the trailer, and the first fault. `fuel` bounds the number of blocks. -/
def images (h : Header) : Nat → Control → Bytes → List (Except Fault ImageBlock)
  | 0, _, _ => [.error .truncated]
  | fuel + 1, control, b => match b with
    | [] => [.error .truncated]
    | 0x3B :: _ => []
    | 0x2C :: r => match takeImage h control r with
      | .ok (block, r) => .ok block :: images h fuel .usual r
      | .error f => [.error f]
    | 0x21 :: label :: r => match takePieces (r.length + 1) r with
      | .error f => [.error f]
      | .ok (data, r) =>
        if label == 0xF9 then match readControl data with
          | .ok c => images h fuel c r
          | .error f => [.error f]
        else images h fuel control r
    | 0x21 :: [] => [.error .truncated]
    | _ => [.error (.malformed "block")]

/-- The rows of an interlaced image in the order in which they are stored. -/
def interlacedRows (height : Nat) : List Nat :=
  [(0, 8), (4, 8), (2, 4), (1, 2)].flatMap fun (start, step) =>
    (List.range height).filter fun y => start ≤ y && (y - start) % step == 0

/-- The colour of a palette index. An index outside the palette shows nothing. -/
def color (block : ImageBlock) (palette : ByteArray) (index : UInt8) : Pixel :=
  let place := 3 * index.toNat
  if palette.size < place + 3 then .clear
  else ⟨byteAt palette place, byteAt palette (place + 1), byteAt palette (place + 2),
    if block.control.transparent == some index then 0 else 255⟩

/-- The rectangle of an image block. -/
def ImageBlock.raster (block : ImageBlock) : Except Fault Raster := do
  Raster.checkSize block.width block.height
  let count := block.width * block.height
  let indices ← readLzw block.symbolSize count block.data
  if count == 0 && !(block.interlaced && block.height == 0) then throw (.malformed "empty image")
  if indices.size < count then throw .truncated
  let palette : ByteArray := ⟨block.palette.toArray⟩
  let stored : Array Nat := if block.interlaced then
      (interlacedRows block.height).zipIdx.foldl (fun rows (y, n) => rows.setIfInBounds y n)
        (Array.replicate block.height 0)
    else Array.range block.height
  return .ofFn block.width block.height fun x y =>
    color block palette (byteAt indices (stored.getD y 0 * block.width + x))

/-- What an image looks like over the canvas. -/
def overlay (canvas part : Raster) (block : ImageBlock) : Raster :=
  canvas.redraw part block.left block.top fun old new => if new.alpha == 0 then old else new

/-- The canvas that the next image is drawn on. -/
def dispose (canvas shown part : Raster) (block : ImageBlock) : Raster :=
  match block.control.disposal with
  | .keep => shown
  | .clear => canvas.redraw part block.left block.top fun _ _ => .clear
  | .restore => canvas

/-- Draws images over each other. -/
def draw : Raster → List (Except Fault ImageBlock) → List (Except Fault Raster)
  | _, [] => []
  | _, .error f :: _ => [.error f]
  | canvas, .ok block :: more => match block.raster with
    | .error f => [.error f]
    | .ok part =>
      let shown := overlay canvas part block
      .ok shown :: draw (dispose canvas shown part block) more

/-- The frames of an animation, up to the first fault. -/
def frames (b : Bytes) : Except Fault (List (Except Fault Raster)) := do
  let (h, r) ← takeHeader b
  let images := images h (r.length + 1) .usual r
  match images with
  | .error f :: _ => throw f
  | _ =>
    Raster.checkSize h.width h.height
    return draw (.blank h.width h.height) images

end Captioning.Image.Gif
