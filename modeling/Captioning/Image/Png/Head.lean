import Captioning.Image.Chunk
/-!
# What stands before the first picture data

The chunks before the first data chunk of portable network graphics: the size and the type of colour,
a palette, transparency, and the announcement of an animation. `Head.ofChunks` reads them and returns the
chunks that follow.
-/

namespace Captioning.Image.Png

/-- What the parts of a pixel are. -/
inductive ColorType
  | gray
  | rgb
  | indexed
  | grayAlpha
  | rgba
deriving Repr, DecidableEq

/-- The number of parts of a pixel. -/
def ColorType.channels : ColorType → Nat
  | .gray | .indexed => 1
  | .grayAlpha => 2
  | .rgb => 3
  | .rgba => 4

/-- The type with a given number. -/
def ColorType.ofCode? : Nat → Option ColorType
  | 0 => some .gray
  | 2 => some .rgb
  | 3 => some .indexed
  | 4 => some .grayAlpha
  | 6 => some .rgba
  | _ => none

/-- How many bits a part of a pixel may have. -/
def ColorType.depths : ColorType → List Nat
  | .gray => [1, 2, 4, 8, 16]
  | .indexed => [1, 2, 4, 8]
  | _ => [8, 16]

/-- What becomes of a frame's rectangle before the next frame is drawn. -/
inductive Disposal
  | keep
  | clear
  | restore
deriving Repr, DecidableEq

/-- Where and how a frame is drawn. -/
structure FrameControl where
  width : Nat
  height : Nat
  left : Nat
  top : Nat
  disposal : Disposal
  /-- Whether what lies below shows through. -/
  blends : Bool

/-- What is known before the first picture data. -/
structure Head where
  width : Nat
  height : Nat
  depth : Nat
  color : ColorType
  interlaced : Bool
  palette : Option Bytes
  transparency : Option Bytes
  /-- The number of frames of an animation. -/
  frames : Option Nat
  control : Option FrameControl
  /-- The number of the next frame control or frame data. -/
  sequence : Nat

namespace Head

/-- Reads the first chunk. -/
def ofFirst (c : Chunk) : Except Fault Head := do
  if c.kind != "IHDR" then throw (.malformed "first chunk")
  c.check
  if c.data.length < 13 then throw .truncated
  let width := bigAt c.data 0 4
  let height := bigAt c.data 4 4
  if width == 0 || height == 0 then throw (.malformed "size")
  let depth := bigAt c.data 8 1
  match ColorType.ofCode? (bigAt c.data 9 1) with
  | none => throw (.malformed "type of colour")
  | some color =>
    if !color.depths.contains depth then throw (.malformed "depth")
    if bigAt c.data 10 1 != 0 || bigAt c.data 11 1 != 0 || 1 < bigAt c.data 12 1 then
      throw (.malformed "method")
    return ⟨width, height, depth, color, bigAt c.data 12 1 == 1, none, none, none, none, 0⟩

/-- Takes transparency in. -/
def withTransparency (h : Head) (data : Bytes) : Except Fault Head :=
  let wanted := match h.color with
    | .gray => some 2
    | .rgb => some 6
    | .indexed => if h.palette.isSome then some 0 else none
    | _ => none
  match wanted with
  | none => .error (.malformed "transparency")
  | some n => if data.length < n then .error .truncated else .ok { h with transparency := some data }

/-- Reads a frame control. Frames are numbered, and lie on the canvas. -/
def withControl (h : Head) (data : Bytes) : Except Fault Head := do
  if data.length < 26 then throw .truncated
  if bigAt data 0 4 != h.sequence then throw (.malformed "order of frames")
  let disposal ← match bigAt data 24 1 with
    | 0 => pure .keep
    | 1 => pure .clear
    | 2 => pure .restore
    | _ => throw (.malformed "disposal")
  let blends ← match bigAt data 25 1 with
    | 0 => pure false
    | 1 => pure true
    | _ => throw (.malformed "blending")
  let c : FrameControl := ⟨bigAt data 4 4, bigAt data 8 4, bigAt data 12 4, bigAt data 16 4, disposal, blends⟩
  if c.width == 0 || c.height == 0 || h.width < c.left + c.width || h.height < c.top + c.height then
    throw (.malformed "frame")
  return { h with control := some c, sequence := h.sequence + 1 }

/-- Takes a chunk in that is no picture data. -/
def withChunk (h : Head) (c : Chunk) : Except Fault Head := do
  if !c.isWhole then throw .truncated
  if !c.isSound then
    if c.isCritical then throw (.malformed "check") else return h
  match c.kind with
  | "IHDR" => throw (.malformed "second header")
  | "IEND" => throw (.malformed "end without a picture")
  | "PLTE" => return { h with palette := some c.data }
  | "tRNS" => h.withTransparency c.data
  | "acTL" =>
    if c.data.length < 8 then throw .truncated
    let n := bigAt c.data 0 4
    return if n == 0 then h else { h with frames := some n }
  | "fcTL" => h.withControl c.data
  | _ => return h

/-- Takes chunks in up to the next one of the given kind. -/
def upTo (kind : String) : Head → List Chunk → Except Fault (Head × List Chunk)
  | _, [] => .error .truncated
  | h, c :: more =>
    if c.kind == kind then .ok (h, c :: more)
    else match h.withChunk c with
      | .ok h => upTo kind h more
      | .error f => .error f

/-- Reads the chunks before the first picture data. Returns them and the chunks from there on. A frame
that is the first picture covers the canvas. -/
def ofChunks : List Chunk → Except Fault (Head × List Chunk)
  | [] => .error .truncated
  | c :: more => do
    let (h, rest) ← upTo "IDAT" (← ofFirst c) more
    match h.control with
    | some f =>
      if f.left != 0 || f.top != 0 || f.width != h.width || f.height != h.height then
        throw (.malformed "first frame")
    | none => pure ()
    return (h, rest)

end Head

/-- The bytes that all such data starts with. -/
def signature : Bytes := [0x89, 0x50, 0x4E, 0x47, 0x0D, 0x0A, 0x1A, 0x0A]

end Captioning.Image.Png
