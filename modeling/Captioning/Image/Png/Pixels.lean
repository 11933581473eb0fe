import Captioning.Image.Inflate
import Captioning.Image.Png.Head
import Captioning.Image.Raster
/-!
# Pixels of portable network graphics

Each row of pixels is stored as its differences to neighbouring bytes, by one of five filters that is named
in front of the row. An interlaced picture is stored in seven passes, each a coarser picture of its own.
`Head.raster` turns picture data into pixels with parts of eight bits.
-/

namespace Captioning.Image.Png

/-! ## Filters -/

/-- The neighbour that is nearest to `left` + `above` - `corner`. -/
def nearest (left above corner : Nat) : Nat :=
  let p : Int := (left : Int) + above - corner
  let a := (p - left).natAbs
  let b := (p - above).natAbs
  let c := (p - corner).natAbs
  if a ≤ b && a ≤ c then left else if b ≤ c then above else corner

/-- What a filter expects of a byte, from the bytes left of it, above it and left above it. -/
def expected (filter left above corner : Nat) : Nat :=
  match filter with
  | 0 => 0
  | 1 => left
  | 2 => above
  | 3 => (left + above) / 2
  | _ => nearest left above corner

/-- Undoes a filter on `n` bytes of `data` from `place` on. `step` is the distance to the byte left. -/
def unfilter (filter step : Nat) (above data : ByteArray) : Nat → Nat → ByteArray → ByteArray
  | 0, _, out => out
  | n + 1, place, out =>
    let i := out.size
    let left := if step ≤ i then (byteAt out (i - step)).toNat else 0
    let corner := if step ≤ i then (byteAt above (i - step)).toNat else 0
    let v := (byteAt data place).toNat + expected filter left (byteAt above i).toNat corner
    unfilter filter step above data n (place + 1) (out.push (UInt8.ofNat v))

/-- Undoes the filters of `count` rows of `length` bytes from `place` on. Returns the rows and the place
behind them. -/
def readRows (length step : Nat) (data : ByteArray) :
    Nat → Nat → ByteArray → Array ByteArray → Except Fault (Array ByteArray × Nat)
  | 0, place, _, rows => .ok (rows, place)
  | count + 1, place, above, rows =>
    if data.size < place + 1 + length then .error .truncated
    else
      let filter := (byteAt data place).toNat
      if 4 < filter then .error (.malformed "filter")
      else
        let row := unfilter filter step above data length (place + 1) .empty
        readRows length step data count (place + 1 + length) row (rows.push row)

/-! ## Passes -/

/-- A part of a picture: every `dx`th pixel from `x` on, in every `dy`th row from `y` on. -/
structure Pass where
  x : Nat
  y : Nat
  dx : Nat
  dy : Nat

/-- The passes of an interlaced picture. -/
def Pass.seven : List Pass := [
  ⟨0, 0, 8, 8⟩, ⟨4, 0, 8, 8⟩, ⟨0, 4, 4, 8⟩, ⟨2, 0, 4, 4⟩, ⟨0, 2, 2, 4⟩, ⟨1, 0, 2, 2⟩, ⟨0, 1, 1, 2⟩]

/-- The passes of a picture. -/
def Pass.all (interlaced : Bool) : List Pass :=
  if interlaced then seven else [⟨0, 0, 1, 1⟩]

/-- How many of `size` columns or rows are taken. -/
def Pass.count (size start step : Nat) : Nat :=
  (size - start + step - 1) / step

/-- Whether a point belongs to a pass. -/
def Pass.covers (p : Pass) (x y : Nat) : Bool :=
  p.x ≤ x && p.y ≤ y && (x - p.x) % p.dx == 0 && (y - p.y) % p.dy == 0

/-! ## Parts -/

/-- A part of `depth` bits in a row: the `n`th one. -/
def part (row : ByteArray) (depth n : Nat) : Nat :=
  if depth == 16 then (byteAt row (2 * n)).toNat * 256 + (byteAt row (2 * n + 1)).toNat
  else
    let place := n * depth
    ((byteAt row (place / 8)).toNat >>> (8 - depth - place % 8)) % Nat.pow 2 depth

/-- A part of `depth` bits brought to eight bits. -/
def toEight (depth v : Nat) : UInt8 :=
  UInt8.ofNat (if depth == 16 then (v + 128) / 257 else v * 255 / (Nat.pow 2 depth - 1))

namespace Head

/-- A number of the transparent colour. -/
def transparentPart (h : Head) (n : Nat) : Option Nat :=
  h.transparency.map fun t => bigAt t (2 * n) 2 % Nat.pow 2 (max h.depth 8)

/-- Opaque unless the parts are those of the transparent colour. -/
def keyedAlpha (h : Head) (parts : List Nat) : UInt8 :=
  if h.transparency.isSome && parts.zipIdx.all (fun (v, n) => h.transparentPart n == some v) then 0 else 255

/-- The colour of a palette index. -/
def paletteColor (palette : Bytes) (transparency : Option Bytes) (index : Nat) : Pixel :=
  match palette.drop (3 * index) with
  | r :: g :: b :: _ => ⟨r, g, b, (transparency.getD []).getD index 255⟩
  | _ => ⟨0, 0, 0, (transparency.getD []).getD index 255⟩

/-- A pixel of a row. -/
def pixel (h : Head) (colors : Array Pixel) (row : ByteArray) (x : Nat) : Pixel :=
  let v := fun (c : Nat) => part row h.depth (x * h.color.channels + c)
  let e := fun (c : Nat) => toEight h.depth (v c)
  match h.color with
  | .gray => .gray (e 0) (h.keyedAlpha [v 0])
  | .rgb => ⟨e 0, e 1, e 2, h.keyedAlpha [v 0, v 1, v 2]⟩
  | .indexed => colors.getD (v 0) .clear
  | .grayAlpha => .gray (e 0) (e 1)
  | .rgba => ⟨e 0, e 1, e 2, e 3⟩

/-- Reads the rows of every pass. -/
def readPasses (h : Head) (width height : Nat) (data : ByteArray) :
    List Pass → Nat → Except Fault (List (Pass × Array ByteArray))
  | [], _ => .ok []
  | p :: more, place => do
    let columns := Pass.count width p.x p.dx
    let rows := if columns == 0 then 0 else Pass.count height p.y p.dy
    let bits := h.depth * h.color.channels
    let (here, place) ← readRows ((columns * bits + 7) / 8) (max 1 (bits / 8)) data rows place .empty #[]
    return (p, here) :: (← readPasses h width height data more place)

/-- The picture in compressed data. -/
def raster (h : Head) (width height : Nat) (data : Bytes) : Except Fault Raster := do
  Raster.checkSize width height
  let colors ← match h.color, h.palette with
    | .indexed, none => throw (.malformed "picture without a palette")
    | _, palette =>
      pure ((Array.range 256).map (paletteColor (palette.getD []) h.transparency))
  let passes ← h.readPasses width height (← inflate data) (Pass.all h.interlaced) 0
  return .ofFn width height fun x y => match passes.find? fun (p, _) => p.covers x y with
    | some (p, rows) => h.pixel colors (rows.getD ((y - p.y) / p.dy) .empty) ((x - p.x) / p.dx)
    | none => .clear

end Head

end Captioning.Image.Png
