import Captioning.Image.PrefixCode
import Captioning.Image.Checksum
/-!
# Compressed streams

A compressed stream is a header of two bytes, blocks, and a check of four bytes. A block is stored as it is,
or written in two prefix codes: one for bytes and for lengths of repetitions, one for how far back a
repetition starts. The codes are fixed, or are given at the start of the block. `deflateStored` writes a
stream of stored blocks.
-/

namespace Captioning.Image

namespace Inflate

/-- The least length and the number of further bits of each length symbol. -/
def lengthTable : List (Nat × Nat) := [
  (3, 0), (4, 0), (5, 0), (6, 0), (7, 0), (8, 0), (9, 0), (10, 0), (11, 1), (13, 1), (15, 1), (17, 1),
  (19, 2), (23, 2), (27, 2), (31, 2), (35, 3), (43, 3), (51, 3), (59, 3), (67, 4), (83, 4), (99, 4),
  (115, 4), (131, 5), (163, 5), (195, 5), (227, 5), (258, 0)]

/-- The least distance and the number of further bits of each distance symbol. -/
def distanceTable : List (Nat × Nat) := [
  (1, 0), (2, 0), (3, 0), (4, 0), (5, 1), (7, 1), (9, 2), (13, 2), (17, 3), (25, 3), (33, 4), (49, 4),
  (65, 5), (97, 5), (129, 6), (193, 6), (257, 7), (385, 7), (513, 8), (769, 8), (1025, 9), (1537, 9),
  (2049, 10), (3073, 10), (4097, 11), (6145, 11), (8193, 12), (12289, 12), (16385, 13), (24577, 13)]

/-- The number that a symbol and its further bits stand for. -/
def tableValue (table : List (Nat × Nat)) (symbol : Nat) : BitReader Nat :=
  match table[symbol]? with
  | some (least, n) => return least + (← BitReader.bits n)
  | none => throw (.malformed "repetition")

/-- The two codes of a block. -/
structure Codes where
  literal : PrefixCode
  distance : PrefixCode

/-- The lengths of the fixed codes. -/
def fixedLengths : List Nat :=
  List.replicate 144 8 ++ List.replicate 112 9 ++ List.replicate 24 7 ++ List.replicate 8 8

/-- The fixed codes. -/
def fixedCodes : Except Fault Codes :=
  return ⟨← PrefixCode.ofLengths fixedLengths, ← PrefixCode.ofLengths (List.replicate 32 5)⟩

/-- The order in which the lengths of the code of lengths are given. -/
def lengthOrder : List Nat := [16, 17, 18, 0, 8, 7, 9, 6, 10, 5, 11, 4, 12, 3, 13, 2, 14, 1, 15]

/-- Reads code lengths, latest first, until there are `total`. `fuel` bounds their number. -/
def readLengths (code : PrefixCode) (total : Nat) : Nat → List Nat → BitReader (List Nat)
  | 0, found => return found
  | fuel + 1, found => do
    if total ≤ found.length then return found
    let symbol ← code.read
    if symbol < 16 then readLengths code total fuel (symbol :: found)
    else
      let (value, count) ← match symbol with
        | 16 => match found.head? with
          | some last => pure (last, 3 + (← BitReader.bits 2))
          | none => throw (.malformed "code lengths")
        | 17 => pure (0, 3 + (← BitReader.bits 3))
        | _ => pure (0, 11 + (← BitReader.bits 7))
      readLengths code total fuel (List.replicate count value ++ found)

/-- The code of distances. A code of a single symbol may leave codes over. -/
def distanceCode (lengths : List Nat) : Except Fault PrefixCode :=
  if lengths.countP (0 < ·) ≤ 1 then PrefixCode.ofLengths lengths
  else PrefixCode.ofLengthsComplete lengths

/-- Reads the codes at the start of a block. -/
def readCodes : BitReader Codes := do
  let literals := 257 + (← BitReader.bits 5)
  let distances := 1 + (← BitReader.bits 5)
  let count := 4 + (← BitReader.bits 4)
  if 286 < literals then throw (.malformed "code lengths")
  let given ← (lengthOrder.take count).mapM fun symbol => return (symbol, ← BitReader.bits 3)
  let lengths := (List.range 19).map fun symbol => (given.lookup symbol).getD 0
  let code ← PrefixCode.ofLengthsComplete lengths
  let found ← readLengths code (literals + distances) (literals + distances) []
  if found.length != literals + distances then throw (.malformed "code lengths")
  let lengths := found.reverse
  return ⟨← PrefixCode.ofLengthsComplete (lengths.take literals), ← distanceCode (lengths.drop literals)⟩

/-- Repeats `n` bytes from `distance` back. -/
def repeatBytes (distance : Nat) : Nat → ByteArray → ByteArray
  | 0, out => out
  | n + 1, out => repeatBytes distance n (out.push (byteAt out (out.size - distance)))

/-- Reads symbols up to the end of the block. `fuel` bounds their number. -/
def readSymbols (codes : Codes) : Nat → ByteArray → BitReader ByteArray
  | 0, _ => throw .truncated
  | fuel + 1, out => do
    let symbol ← codes.literal.read
    if symbol < 256 then readSymbols codes fuel (out.push (UInt8.ofNat symbol))
    else if symbol == 256 then return out
    else
      let length ← tableValue lengthTable (symbol - 257)
      let distance ← tableValue distanceTable (← codes.distance.read)
      if out.size < distance then throw (.malformed "repetition")
      readSymbols codes fuel (repeatBytes distance length out)

/-- Reads `n` bytes. -/
def readBytes : Nat → ByteArray → BitReader ByteArray
  | 0, out => return out
  | n + 1, out => do readBytes n (out.push (← BitReader.byte))

/-- Reads a stored block. -/
def readStored (out : ByteArray) : BitReader ByteArray := do
  BitReader.align
  let length ← BitReader.bits 16
  let check ← BitReader.bits 16
  if length + check != 65535 then throw (.malformed "stored block")
  readBytes length out

/-- Reads blocks up to the last one. `fuel` bounds their number. -/
def readBlocks : Nat → ByteArray → BitReader ByteArray
  | 0, _ => throw .truncated
  | fuel + 1, out => do
    let last ← BitReader.flag
    let out ← match ← BitReader.bits 2 with
      | 0 => readStored out
      | 1 => readSymbols (← fixedCodes) ((← BitReader.left) + 1) out
      | 2 => readSymbols (← readCodes) ((← BitReader.left) + 1) out
      | _ => throw (.malformed "block")
    if last then return out else readBlocks fuel out

/-- Reads a stream. The check at its end has to be there; its value is not looked at. -/
def readStream : BitReader ByteArray := do
  let method ← BitReader.bits 8
  let flags ← BitReader.bits 8
  if method % 16 != 8 || 7 < method / 16 || (method * 256 + flags) % 31 != 0 || flags / 32 % 2 == 1 then
    throw (.malformed "stream header")
  let out ← readBlocks (← BitReader.left) .empty
  BitReader.align
  let _ ← BitReader.bits 32
  return out

end Inflate

/-- The data of a compressed stream. -/
def inflate (data : Bytes) : Except Fault ByteArray :=
  Inflate.readStream.run data

/-- Stored blocks of at most 65535 bytes each. `fuel` bounds their number. -/
def storedBlocks : Nat → Bytes → Bytes
  | 0, _ => []
  | fuel + 1, b =>
    let here := b.take 65535
    let more := b.drop 65535
    let n := here.length
    (if more.isEmpty then 1 else 0) :: UInt8.ofNat n :: UInt8.ofNat (n / 256)
      :: UInt8.ofNat (65535 - n) :: UInt8.ofNat ((65535 - n) / 256)
      :: here ++ (if more.isEmpty then [] else storedBlocks fuel more)

/-- A compressed stream in which the data is stored as it is. -/
def deflateStored (b : Bytes) : Bytes :=
  0x78 :: 0x01 :: storedBlocks (b.length + 1) b ++ bigFour (streamCheck b)

end Captioning.Image
