import Captioning.Image.Webp.Entropy
/-!
# Lossless pictures

The lossless form of pictures in WebP files. Before it is entropy-coded a picture goes through up to four
transformations, which reading undoes in the opposite order: pixels are stored as differences to a
prediction, red and blue parts as differences to what other parts suggest, red and blue parts as differences
to the green one, or pixels as places in a table of colours.
-/

namespace Captioning.Image.Webp

/-- A transformation and what undoing it needs. Pictures that go with one are rows of pixels; each pixel is
for a block of 2 ^ `bits` by 2 ^ `bits` pixels. -/
inductive Transform
  | predicted (bits : Nat) (modes : Array Pixel)
  | correlated (bits : Nat) (factors : Array Pixel)
  | greenSubtracted
  /-- `bits` says how many places share a pixel: 2 ^ `bits`. -/
  | indexed (bits : Nat) (table : Array Pixel)

/-- Adds two pixels part by part. -/
def addPixels (a b : Pixel) : Pixel :=
  ⟨a.red + b.red, a.green + b.green, a.blue + b.blue, a.alpha + b.alpha⟩

/-- Combines two pixels part by part. -/
def zipParts (f : Nat → Nat → Nat) (a b : Pixel) : Pixel :=
  let g := fun (x y : UInt8) => UInt8.ofNat (f x.toNat y.toNat)
  ⟨g a.red b.red, g a.green b.green, g a.blue b.blue, g a.alpha b.alpha⟩

/-- The mean of two pixels, rounded down. -/
def mean (a b : Pixel) : Pixel :=
  zipParts (fun x y => (x + y) / 2) a b

/-- How far apart two pixels are, summed over the parts. -/
def distance (a b : Pixel) : Nat :=
  let d := fun (x y : UInt8) => ((x.toNat : Int) - y.toNat).natAbs
  d a.red b.red + d a.green b.green + d a.blue b.blue + d a.alpha b.alpha

/-- The one of two pixels that is nearer to left + top - corner. -/
def select (left top corner : Pixel) : Pixel :=
  if distance top corner < distance left corner then left else top

/-- A number cut off to the range of parts. -/
def clampPart (n : Int) : UInt8 :=
  UInt8.ofNat (min n.toNat 255)

/-- Combines three pixels part by part. -/
def zipThree (f : Int → Int → Int → Int) (a b c : Pixel) : Pixel :=
  let g := fun (x y z : UInt8) => clampPart (f x.toNat y.toNat z.toNat)
  ⟨g a.red b.red c.red, g a.green b.green c.green, g a.blue b.blue c.blue, g a.alpha b.alpha c.alpha⟩

/-- left + top - corner, cut off. -/
def gradient (left top corner : Pixel) : Pixel :=
  zipThree (fun a b c => a + b - c) left top corner

/-- A pixel moved away from another one by half their difference, cut off. -/
def halfGradient (a b : Pixel) : Pixel :=
  zipThree (fun x y _ => x + Int.tdiv (x - y) 2) a b b

/-- The prediction of a mode from the pixels left, above, left above and right above. -/
def predict (mode : Nat) (left top corner right : Pixel) : Pixel :=
  match mode with
  | 1 => left
  | 2 => top
  | 3 => right
  | 4 => corner
  | 5 => mean (mean left right) top
  | 6 => mean left corner
  | 7 => mean left top
  | 8 => mean corner top
  | 9 => mean top right
  | 10 => mean (mean left corner) (mean top right)
  | 11 => select left top corner
  | 12 => gradient left top corner
  | 13 => halfGradient (mean left top) corner
  | _ => ⟨0, 0, 0, 255⟩

/-- Undoes prediction of the pixels from the one after `out` on. -/
def undoPrediction (width bits : Nat) (modes : Array Pixel) (out : Array Pixel) (p : Pixel) : Array Pixel :=
  let n := out.size
  let x := n % width
  let y := n / width
  let back := fun (k : Nat) => out.getD (n - k) .clear
  let guess :=
    if y == 0 then if x == 0 then ⟨0, 0, 0, 255⟩ else back 1
    else if x == 0 then back width
    else
      let mode := (modes.getD (blockAt bits width x y) .clear).green.toNat % 16
      predict mode (back 1) (back width) (back (width + 1)) (back (width - 1))
  out.push (addPixels p guess)

/-- A byte as a number with a sign. -/
def signed (b : UInt8) : Int :=
  if b.toNat < 128 then b.toNat else (b.toNat : Int) - 256

/-- What one part suggests about another. -/
def suggested (factor part : UInt8) : UInt8 :=
  UInt8.ofNat ((signed factor * signed part).fdiv 32 % 256).toNat

/-- Undoes the correlation of a pixel. -/
def undoCorrelation (factor p : Pixel) : Pixel :=
  let red := p.red + suggested factor.blue p.green
  let blue := p.blue + suggested factor.green p.green + suggested factor.red red
  { p with red := red, blue := blue }

/-- Undoes one transformation of a picture of some width. -/
def Transform.undo (width height : Nat) (pixels : Array Pixel) : Transform → Array Pixel
  | .predicted bits modes => pixels.foldl (undoPrediction width bits modes) #[]
  | .correlated bits factors => pixels.mapIdx fun n p =>
    undoCorrelation (factors.getD (blockAt bits width (n % width) (n / width)) .clear) p
  | .greenSubtracted => pixels.map fun p => { p with red := p.red + p.green, blue := p.blue + p.green }
  | .indexed bits table =>
    let columns := blocks bits width
    let size := 8 / Nat.pow 2 bits
    (Array.range (width * height)).map fun n =>
      let x := n % width
      let packed := (pixels.getD (n / width * columns + x / Nat.pow 2 bits) .clear).green.toNat
      table.getD ((packed >>> (x % Nat.pow 2 bits * size)) % Nat.pow 2 size) .clear

/-- How many places of a table of `size` colours share a pixel, as a power of two. -/
def sharing (size : Nat) : Nat :=
  if size ≤ 2 then 3 else if size ≤ 4 then 2 else if size ≤ 16 then 1 else 0

/-- Reads transformations, the last one first, each with the width of the picture it is undone on. Returns
them and the width of what is stored. `fuel` bounds the steps, the one that ends the list among them: no
transformation occurs twice, so there are at most five. -/
def readTransforms (height : Nat) : Nat → Nat → List Nat → List (Nat × Transform) →
    BitReader (List (Nat × Transform) × Nat)
  | 0, width, _, found => return (found, width)
  | fuel + 1, width, seen, found => do
    if !(← BitReader.flag) then return (found, width)
    let kind ← BitReader.bits 2
    if seen.contains kind then throw (.malformed "transformation")
    match kind with
    | 2 => readTransforms height fuel width (2 :: seen) ((width, .greenSubtracted) :: found)
    | 3 =>
      let size := 1 + (← BitReader.bits 8)
      let table := (← readPlain size 1).foldl (fun table p =>
        table.push (addPixels p (table.back?.getD .clear))) #[]
      let bits := sharing size
      readTransforms height fuel (blocks bits width) (3 :: seen) ((width, .indexed bits table) :: found)
    | kind =>
      let bits := 2 + (← BitReader.bits 3)
      let parts ← readPlain (blocks bits width) (blocks bits height)
      let transform := if kind == 0 then .predicted bits parts else .correlated bits parts
      readTransforms height fuel width (kind :: seen) ((width, transform) :: found)

/-- The size of a lossless picture, and whether its opacity counts. -/
structure LosslessHead where
  width : Nat
  height : Nat
  hasAlpha : Bool

/-- Reads what stands before a lossless picture. -/
def readLosslessHead : BitReader LosslessHead := do
  if (← BitReader.byte) != 0x2F then throw (.malformed "lossless signature")
  let width := 1 + (← BitReader.bits 14)
  let height := 1 + (← BitReader.bits 14)
  let hasAlpha ← BitReader.flag
  if (← BitReader.bits 3) != 0 then throw (.malformed "lossless version")
  return ⟨width, height, hasAlpha⟩

/-- Reads a lossless picture of the given size. -/
def readLossless (width height : Nat) : BitReader Raster := do
  let head ← readLosslessHead
  if head.width != width || head.height != height then throw (.malformed "size")
  Raster.checkSize width height
  let (transforms, stored) ← readTransforms height 5 width [] []
  let pixels ← readGrouped stored height
  let pixels := transforms.foldl (fun ps (w, t) => t.undo w height ps) pixels
  return .ofFn width height fun x y => pixels.getD (y * width + x) .clear

end Captioning.Image.Webp
