import Captioning.Image.Webp.Lossless
/-!
# WebP files

A WebP file is a list of chunks behind `RIFF`, a size and `WEBP`. It holds a lossless picture, or an extended
header followed by a picture or by the frames of an animation. Frames are rectangles that are drawn over the
canvas. Lossy pictures are recognised, but not read.
-/

namespace Captioning.Image.Webp

/-- A chunk as far as the data goes: its kind, its announced size, and what is there of its data. -/
structure Piece where
  kind : Bytes
  size : Nat
  data : Bytes

/-- The letters of a kind of chunk. -/
def letters (s : String) : Bytes :=
  Utf8.ofString s

/-- The chunk at the front, and the data behind it. Chunks take an even number of bytes. -/
def Piece.take? (b : Bytes) : Option (Piece × Bytes) :=
  if b.length < 8 then none
  else
    let size := littleAt b 4 4
    let rest := b.drop 8
    some (⟨b.take 4, size, rest.take size⟩, rest.drop (size + size % 2))

/-- All chunks. `fuel` bounds their number. -/
def pieces : Nat → Bytes → List Piece
  | 0, _ => []
  | fuel + 1, b => match Piece.take? b with
    | none => []
    | some (p, rest) => p :: pieces fuel rest

/-- A frame of an animation. -/
structure FrameHead where
  left : Nat
  top : Nat
  width : Nat
  height : Nat
  blends : Bool
  clears : Bool
  picture : Piece

/-- What a file holds. -/
inductive File
  | still (picture : Piece) (width height : Nat) (hasAlpha : Bool)
  | animation (width height : Nat) (hasAlpha : Bool) (frames : List Piece)

/-- The chunks of some kind. -/
def ofKind (kind : String) (ps : List Piece) : List Piece :=
  ps.filter fun p => p.kind == letters kind

/-- Reads a file behind an extended header. -/
def readExtended (head : Piece) (rest : Bytes) : Except Fault File := do
  if head.data.length < 10 then throw .truncated
  let flags := (head.data.getD 0 0).toNat
  let width := littleAt head.data 4 3 + 1
  let height := littleAt head.data 7 3 + 1
  if Nat.pow 2 32 ≤ width * height then throw .tooLarge
  let hasAlpha := flags / 16 % 2 == 1
  let ps := pieces (rest.length + 1) rest
  let has := fun kind => !(ofKind kind ps).isEmpty
  if flags / 8 % 2 == 1 && !has "EXIF" || flags / 4 % 2 == 1 && !has "XMP " then
    throw (.malformed "file with a missing chunk")
  if (ofKind "ANMF" ps).any fun p => p.size < 24 then throw (.malformed "chunk size")
  if flags / 2 % 2 == 1 then
    match ofKind "ANIM" ps with
    | [] => throw (.malformed "file with a missing chunk")
    | settings :: _ =>
      if !has "ANMF" then throw (.malformed "file with a missing chunk")
      if settings.data.length < 6 then throw .truncated
      return .animation width height hasAlpha (ofKind "ANMF" ps)
  else
    match ofKind "VP8L" ps, has "VP8 " with
    | [], false => throw (.malformed "file with a missing chunk")
    | [], true => throw (.unsupported "lossy picture")
    | _, true => throw (.malformed "file with two pictures")
    | picture :: _, false => return .still picture width height hasAlpha

/-- Reads what a file holds, up to its pictures. -/
def File.ofBytes (b : Bytes) : Except Fault File := do
  if b.take 4 != letters "RIFF" then throw (.malformed "signature")
  if (b.drop 8).take 4 != letters "WEBP" then throw (.malformed "signature")
  match Piece.take? (b.drop 12) with
  | none => throw .truncated
  | some (p, rest) =>
    if p.kind == letters "VP8L" then
      let head ← readLosslessHead.run p.data
      return .still p head.width head.height head.hasAlpha
    else if p.kind == letters "VP8X" then readExtended p rest
    else if p.kind == letters "VP8 " then throw (.unsupported "lossy picture")
    else throw (.malformed "chunk")

/-- Reads what stands before the picture of a frame. -/
def FrameHead.ofPiece (width height : Nat) (p : Piece) : Except Fault FrameHead := do
  if p.size < 32 || p.data.length < 24 then throw .truncated
  let left := 2 * littleAt p.data 0 3
  let top := 2 * littleAt p.data 3 3
  let w := littleAt p.data 6 3 + 1
  let h := littleAt p.data 9 3 + 1
  if width < left + w || height < top + h then throw (.malformed "frame")
  let flags := (p.data.getD 15 0).toNat
  match Piece.take? (p.data.drop 16) with
  | none => throw .truncated
  | some (picture, _) =>
    if p.size < picture.size + picture.size % 2 + 24 then throw (.malformed "chunk size")
    return ⟨left, top, w, h, flags / 2 % 2 == 0, flags % 2 == 1, picture⟩

/-- A pixel seen through the one over it. -/
def blend (below above : Pixel) : Pixel :=
  let a : Float := above.alpha.toNat.toFloat
  let b : Float := below.alpha.toNat.toFloat
  let through := 1.0 - a / 255.0
  let alpha := a + b * through
  if alpha.toUInt8 == 0 then ⟨0, 0, 0, 0⟩
  else
    let mix := fun (low high : UInt8) =>
      ((high.toNat.toFloat * a + low.toNat.toFloat * b * through) / alpha).toUInt8
    ⟨mix below.red above.red, mix below.green above.green, mix below.blue above.blue, alpha.toUInt8⟩

/-- Reads the lossless picture in a chunk. -/
def readPicture (p : Piece) (width height : Nat) : Except Fault Raster :=
  if p.kind == letters "VP8L" then (readLossless width height).run p.data
  else .error (.unsupported "lossy picture")

/-- Draws frames over the canvas. -/
def drawFrames (hasAlpha : Bool) : Raster → List Piece → List (Except Fault Raster)
  | _, [] => []
  | canvas, p :: more =>
    let drawn : Except Fault (FrameHead × Raster × Raster) := do
      let f ← FrameHead.ofPiece canvas.width canvas.height p
      let part ← readPicture f.picture f.width f.height
      let shown := canvas.redraw part f.left f.top fun old new => if f.blends then blend old new else new
      return (f, part, shown)
    match drawn with
    | .error e => [.error e]
    | .ok (f, part, shown) =>
      let next := if f.clears then shown.redraw part f.left f.top fun _ _ => .clear else shown
      .ok (if hasAlpha then shown else shown.map .opaque_) :: drawFrames hasAlpha next more

/-- The frames of an animation up to the first fault; none if the file holds a still picture. -/
def File.frames? : File → Option (List (Except Fault Raster))
  | .still .. => none
  | .animation width height hasAlpha ps =>
    match Raster.checkSize width height with
    | .error e => some [.error e]
    | .ok () => some (drawFrames hasAlpha (.blank width height) ps)

/-- The picture of a file, or the first frame of an animation. -/
def File.picture : File → Except Fault Raster
  | .still p width height hasAlpha =>
    (readPicture p width height).map fun r => if hasAlpha then r else r.map .opaque_
  | .animation width height hasAlpha ps => do
    Raster.checkSize width height
    match drawFrames hasAlpha (.blank width height) (ps.take 1) with
    | first :: _ => first
    | [] => throw .truncated

end Captioning.Image.Webp
