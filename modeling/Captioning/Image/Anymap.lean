import Captioning.Image.Bits
import Captioning.Image.Raster
import Captioning.Decimal.Scan
/-!
# Portable anymaps

The forms of pictures that start with `P1` to `P6`: black and white, grey, or colour, each with its numbers
written out in decimals or as bytes. A header gives the size and, except for black and white, the number
that stands for full brightness. In the header a comment runs from `#` to the end of the line; it does not
even end the number that it interrupts.
-/

namespace Captioning.Image.Anymap

/-- What the header says. -/
structure Head where
  /-- The numbers are written out. -/
  isText : Bool
  /-- The number of parts of a pixel. -/
  channels : Nat
  /-- The pixels are bits, a set one being black. -/
  isBits : Bool
  width : Nat
  height : Nat
  /-- What stands for full brightness. -/
  full : Nat

/-- The blanks between numbers. -/
def isSpace (b : UInt8) : Bool :=
  b == 32 || b == 9 || b == 10 || b == 11 || b == 12 || b == 13

/-- The next word behind blanks, without comments if there may be any, and the data behind the blank after
it. `word` is what has been read of it, latest first, and `inside` tells whether a comment is going on. -/
def takeWord (comments inside : Bool) (word : Bytes) : Bytes → Bytes × Bytes
  | [] => (word.reverse, [])
  | c :: r =>
    if inside then takeWord comments (c != 10 && c != 13) word r
    else if comments && c == 35 then takeWord comments true word r
    else if isSpace c then if word.isEmpty then takeWord comments false word r else (word.reverse, r)
    else takeWord comments false (c :: word) r

/-- A number below `bound`, and the data behind the blank after it. -/
def takeNumber (comments : Bool) (bound : Nat) (b : Bytes) : Except Fault (Nat × Bytes) :=
  let (word, r) := takeWord comments false [] b
  match Decimal.readNat? bound (word.map fun c => Char.ofNat c.toNat) with
  | some n => .ok (n, r)
  | none => if word.isEmpty then .error .truncated else .error (.malformed "number")

/-- Reads the header. -/
def takeHead (b : Bytes) : Except Fault (Head × Bytes) := do
  let kind ← match b with
    | 80 :: k :: _ => pure (k.toNat - 48)
    | _ => throw .truncated
  if kind == 0 || 6 < kind then throw (.unsupported "kind of anymap")
  let isBits := kind == 1 || kind == 4
  let number := takeNumber true (Nat.pow 2 32)
  let (width, r) ← number (b.drop 2)
  let (height, r) ← number r
  let (full, r) ← if isBits then pure (1, r) else number r
  if full == 0 || 65535 < full then throw (.malformed "brightness")
  return (⟨kind ≤ 3, if kind == 3 || kind == 6 then 3 else 1, isBits, width, height, full⟩, r)

/-- Numbers below `bound` that are written out, latest first. -/
def takeNumbers (bound : Nat) : Nat → Bytes → List Nat → Except Fault (List Nat)
  | 0, _, found => .ok found
  | n + 1, b, found => do
    let (v, r) ← takeNumber false bound b
    takeNumbers bound n r (v :: found)

/-- Bits that are written out, latest first. Blanks between them may be missing. -/
def takeBits : Nat → Bytes → List Nat → Except Fault (List Nat)
  | _, [], found => .ok found
  | n, c :: r, found =>
    if isSpace c then takeBits n r found
    else match n with
      | 0 => .ok found
      | n + 1 =>
        if c == 48 then takeBits n r (0 :: found)
        else if c == 49 then takeBits n r (1 :: found)
        else .error (.malformed "bit")

/-- The numbers of a picture in order. -/
def numbers (h : Head) (b : Bytes) : Except Fault (Array Nat) := do
  let count := h.width * h.height * h.channels
  if h.isText then
    let bound := if h.full < 256 then 256 else 65536
    let found ← if h.isBits then takeBits count b [] else takeNumbers bound count b []
    if found.length < count then throw .truncated
    return found.reverse.toArray
  else
    let length := if h.isBits then (h.width + 7) / 8 * h.height else if h.full < 256 then count else 2 * count
    if b.length < length then throw .truncated
    let data : ByteArray := ⟨b.toArray⟩
    return (Array.range count).map fun n =>
      if h.isBits then
        let x := n % h.width
        ((byteAt data (n / h.width * ((h.width + 7) / 8) + x / 8)).toNat >>> (7 - x % 8)) % 2
      else if h.full < 256 then (byteAt data n).toNat
      else (byteAt data (2 * n)).toNat * 256 + (byteAt data (2 * n + 1)).toNat

/-- How much brighter numbers become if full brightness is to be `top`. -/
def Head.gain (h : Head) (top : Float32) : Float32 :=
  top / h.full.toFloat32

/-- A number brought to eight bits. Brightness above 255 is scaled to sixteen bits first. -/
def toEight (h : Head) (v : Nat) : UInt8 :=
  if h.isBits then (if v == 0 then 255 else 0)
  else if h.full < 256 then (v.toFloat32 * h.gain 255.0).round.toUInt8
  else UInt8.ofNat (((v.toFloat32 * h.gain 65535.0).round.toUInt16.toNat + 128) / 257)

/-- Reads an anymap. -/
def read (b : Bytes) : Except Fault Raster := do
  let (h, r) ← takeHead b
  Raster.checkSize h.width h.height
  let ns ← numbers h r
  let part := fun (n : Nat) => toEight h (ns.getD n 0)
  return .ofFn h.width h.height fun x y =>
    let n := y * h.width + x
    if h.channels == 3 then ⟨part (3 * n), part (3 * n + 1), part (3 * n + 2), 255⟩
    else .gray (part n) 255

end Captioning.Image.Anymap
