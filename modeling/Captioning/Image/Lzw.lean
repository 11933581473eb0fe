import Captioning.Image.Bits
/-!
# Dictionary coding

Data is written in codes that stand for pieces of data. At first there is a code for each symbol; after
every code but the first the dictionary gains the piece before it, lengthened by the first symbol of the
new one. Codes are as wide as the dictionary needs, up to twelve bits. A clear code empties the dictionary
again, an end code ends the data.
-/

namespace Captioning.Image

namespace Lzw

/-- The widest codes. -/
def widest : Nat := 12

/-- A piece of data, last symbol first, with its first symbol. -/
structure Piece where
  reversed : Bytes
  first : UInt8

/-- The piece lengthened by a symbol. -/
def Piece.snoc (p : Piece) (b : UInt8) : Piece := ⟨b :: p.reversed, p.first⟩

/-- The pieces that have been added, the width of the next code, and the piece before it. -/
structure Dictionary where
  added : Array Piece
  width : Nat
  last : Option Piece

/-- The number of symbols of `size` bits. -/
def symbols (size : Nat) : Nat := Nat.pow 2 size

/-- The dictionary at the start. -/
def Dictionary.initial (size : Nat) : Dictionary := ⟨#[], size + 1, none⟩

/-- The number of codes in use: symbols, clear code, end code and added pieces. -/
def Dictionary.size (symbolSize : Nat) (d : Dictionary) : Nat :=
  symbols symbolSize + 2 + d.added.size

/-- The piece of a code. The code after the last one in use is that of the piece to be added next. -/
def Dictionary.piece? (symbolSize : Nat) (d : Dictionary) (code : Nat) : Option Piece :=
  if code < symbols symbolSize then some ⟨[UInt8.ofNat code], UInt8.ofNat code⟩
  else if code == d.size symbolSize then d.last.map fun p => p.snoc p.first
  else d.added[code - symbols symbolSize - 2]?

/-- The dictionary after a piece has been read. -/
def Dictionary.learn (symbolSize : Nat) (d : Dictionary) (p : Piece) : Dictionary :=
  match d.last with
  | none => { d with last := some p }
  | some before =>
    if d.size symbolSize < Nat.pow 2 widest then
      let d : Dictionary := { d with added := d.added.push (before.snoc p.first), last := some p }
      if Nat.pow 2 d.width ≤ d.size symbolSize && d.width < widest then { d with width := d.width + 1 } else d
    else { d with last := some p }

/-- Reads codes until `wanted` symbols have been read, or the data ends. `fuel` bounds their number. -/
def readCodes (symbolSize wanted : Nat) : Nat → Dictionary → ByteArray → BitReader ByteArray
  | 0, _, out => return out
  | fuel + 1, d, out => do
    if wanted ≤ out.size || (← BitReader.left) < d.width then return out
    let code ← BitReader.bits d.width
    if code == symbols symbolSize then readCodes symbolSize wanted fuel (.initial symbolSize) out
    else if code == symbols symbolSize + 1 then return out
    else match d.piece? symbolSize code with
      | none => throw (.malformed "code")
      | some p =>
        readCodes symbolSize wanted fuel (d.learn symbolSize p) (p.reversed.reverse.foldl ByteArray.push out)

end Lzw

/-- The first `wanted` symbols of data in dictionary coding, or as many as there are. -/
def readLzw (symbolSize wanted : Nat) (data : Bytes) : Except Fault ByteArray :=
  (Lzw.readCodes symbolSize wanted (8 * data.length + 1) (.initial symbolSize) .empty).run data

end Captioning.Image
