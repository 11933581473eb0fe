import Captioning.Image.Png.Pixels
/-!
# Pictures and animations in portable network graphics

A still picture is the first picture data. An animation has frames of its own data, each announced by a
frame control, and drawn over the canvas; the first picture is one of them only if a frame control stands
before it. `Reading.still` and `Reading.frames` read the two.
-/

namespace Captioning.Image.Png

/-- A signature, the chunks before the first picture data, and the chunks from there on. -/
structure Reading where
  head : Head
  chunks : List Chunk

/-- Reads what stands before the first picture data. -/
def Reading.ofBytes (b : Bytes) : Except Fault Reading := do
  if b.take 8 != signature then throw (.malformed "signature")
  let (head, chunks) ← Head.ofChunks (Chunk.ofBytes (b.drop 8))
  return ⟨head, chunks⟩

/-- The data in the chunks of one kind at the front, and the chunks behind them. There have to be such, so
that the data is known to be complete. -/
def takeData (kind : String) (skip : Bytes → Head → Except Fault (Bytes × Head)) :
    Head → List Chunk → Except Fault (Bytes × Head × List Chunk)
  | _, [] => .error .truncated
  | h, c :: more =>
    if c.kind == kind then do
      c.check
      let (here, h) ← skip c.data h
      let (data, h, rest) ← takeData kind skip h more
      return (here ++ data, h, rest)
    else .ok ([], h, c :: more)

/-- The data of the first picture. -/
def takeFirst (r : Reading) : Except Fault (Bytes × Reading) := do
  let (data, h, rest) ← takeData "IDAT" (fun b h => .ok (b, h)) r.head r.chunks
  return (data, ⟨h, rest⟩)

/-- The number in front of frame data has to be the next one. -/
def skipSequence (b : Bytes) (h : Head) : Except Fault (Bytes × Head) :=
  if b.length < 4 then .error .truncated
  else if bigAt b 0 4 != h.sequence then .error (.malformed "order of frames")
  else .ok (b.drop 4, { h with sequence := h.sequence + 1 })

/-- The data of the next frame, behind its frame control. -/
def takeNext (r : Reading) : Except Fault (Bytes × Reading) := do
  let (h, rest) ← r.head.upTo "fdAT" r.chunks
  if h.sequence == r.head.sequence then throw (.malformed "order of frames")
  let (data, h, rest) ← takeData "fdAT" skipSequence h rest
  return (data, ⟨h, rest⟩)

/-- The first picture. -/
def Reading.still (r : Reading) : Except Fault Raster := do
  let (data, _) ← takeFirst r
  r.head.raster r.head.width r.head.height data

/-! ## Frames -/

/-- What the next frame is drawn on, and the canvas before the last frame was drawn. -/
structure Canvas where
  shown : Raster
  before : Raster

/-- The frame control in force, which is that of the whole canvas when there is none. -/
def Head.frame (h : Head) : FrameControl :=
  h.control.getD ⟨h.width, h.height, 0, 0, .keep, false⟩

/-- The canvas with a frame's rectangle disposed of. -/
def Canvas.dispose (c : Canvas) (f : FrameControl) : Canvas :=
  let area := Raster.blank f.width f.height
  match f.disposal with
  | .keep => ⟨c.shown, c.shown⟩
  | .clear => ⟨c.shown.redraw area f.left f.top fun _ _ => .clear, c.shown⟩
  | .restore =>
    ⟨.ofFn c.shown.width c.shown.height fun x y =>
      if f.left ≤ x && f.top ≤ y && x < f.left + f.width && y < f.top + f.height then c.before.get x y
      else c.shown.get x y, c.before⟩

/-- The canvas with a frame drawn on it. -/
def Canvas.draw (c : Canvas) (f : FrameControl) (part : Raster) : Canvas :=
  { c with shown := c.shown.redraw part f.left f.top fun old new => if f.blends then old.under new else new }

/-- Draws `count` frames. `first` says whether the first picture is the next frame. -/
def drawFrames : Nat → Bool → Canvas → Reading → List (Except Fault Raster)
  | 0, _, _, _ => []
  | count + 1, first, c, r =>
    match (if first then takeFirst r else takeNext r) with
    | .error e => [.error e]
    | .ok (data, r) =>
      let f := r.head.frame
      match r.head.raster f.width f.height data with
      | .error e => [.error e]
      | .ok part =>
        let c := c.draw f part
        .ok c.shown :: drawFrames count false (c.dispose f) r

/-- Frames of sixteen bits are not drawn. -/
def checkDepth (h : Head) : Except Fault Unit :=
  if h.depth == 16 then .error (.unsupported "depth of frames") else .ok ()

/-- The frames of an animation up to the first fault; none if the data is a still picture. A first picture
that is no frame is read all the same. -/
def Reading.frames? (r : Reading) : Option (List (Except Fault Raster)) :=
  r.head.frames.map fun count =>
    let start := Raster.blank r.head.width r.head.height
    let opening : Except Fault Reading := do
      Raster.checkSize r.head.width r.head.height
      if r.head.control.isSome then
        checkDepth r.head
        return r
      else
        let (data, rest) ← takeFirst r
        let _ ← r.head.raster r.head.width r.head.height data
        checkDepth r.head
        return rest
    match opening with
    | .error e => [.error e]
    | .ok rest => drawFrames count r.head.control.isSome ⟨start, start⟩ rest

end Captioning.Image.Png
