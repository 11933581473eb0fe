import Captioning.Bytes.Utf8
import Captioning.Image.Fault
/-!
# Reading data bit by bit

The bits of a byte are read from the lowest to the highest one. A `BitReader` knows the data and the place
of the next bit, and fails at the end of the data. Numbers in bytes are read in either order by `little`
and `big`.
-/

namespace Captioning.Image

/-- A computation that reads bits. Its state is the place of the next bit. -/
abbrev BitReader (α : Type) := ReaderT ByteArray (StateT Nat (Except Fault)) α

namespace BitReader

/-- The next bit, as a number. -/
def bit : BitReader Nat := do
  let data ← read
  let place ← get
  if h : place / 8 < data.size then
    set (place + 1)
    return (data[place / 8].toNat >>> (place % 8)) % 2
  else throw .truncated

/-- A number of `n` bits, the lowest one first. -/
def bits : Nat → BitReader Nat
  | 0 => return 0
  | n + 1 => do
    let low ← bit
    let rest ← bits n
    return low + 2 * rest

/-- A flag. -/
def flag : BitReader Bool :=
  return (← bit) == 1

/-- Goes on to the start of a byte. -/
def align : BitReader Unit :=
  modify fun place => (place + 7) / 8 * 8

/-- The next byte, which starts where a byte does. -/
def byte : BitReader UInt8 :=
  return UInt8.ofNat (← bits 8)

/-- How many bits are left. -/
def left : BitReader Nat := do
  return 8 * (← read).size - (← get)

/-- Reads data from its first bit. -/
def run {α : Type} (r : BitReader α) (data : Bytes) : Except Fault α :=
  (ReaderT.run r ⟨data.toArray⟩ 0).map (·.1)

end BitReader

/-- The byte at a place, 0 outside. -/
def byteAt (b : ByteArray) (i : Nat) : UInt8 :=
  if h : i < b.size then b[i] else 0

/-- The number that bytes spell, the lowest one first. -/
def little (b : Bytes) : Nat :=
  b.foldr (fun x n => x.toNat + 256 * n) 0

/-- The number that bytes spell, the highest one first. -/
def big (b : Bytes) : Nat :=
  b.foldl (fun n x => x.toNat + 256 * n) 0

/-- The number in the `n` bytes at `place`, the lowest one first. -/
def littleAt (b : Bytes) (place n : Nat) : Nat :=
  little ((b.drop place).take n)

/-- The number in the `n` bytes at `place`, the highest one first. -/
def bigAt (b : Bytes) (place n : Nat) : Nat :=
  big ((b.drop place).take n)

/-- Four bytes for a number, the highest one first. -/
def bigFour (n : Nat) : Bytes :=
  [UInt8.ofNat (n / Nat.pow 2 24), UInt8.ofNat (n / Nat.pow 2 16), UInt8.ofNat (n / Nat.pow 2 8), UInt8.ofNat n]

end Captioning.Image
