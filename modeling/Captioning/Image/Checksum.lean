import Captioning.Bytes.Utf8
/-!
# Checksums

The two sums that guard stored pictures: the remainder of the data as a polynomial over two elements, and a
pair of running sums modulo 65521.
-/

namespace Captioning.Image

/-- The remainder after one more bit. -/
def remainderBit (r : UInt32) : UInt32 :=
  if r &&& 1 == 1 then (r >>> 1) ^^^ 0xEDB88320 else r >>> 1

/-- The remainder after one more byte. -/
def remainderByte (r : UInt32) (b : UInt8) : UInt32 :=
  (List.range 8).foldl (fun r _ => remainderBit r) (r ^^^ b.toUInt32)

/-- The remainder after more data. -/
def remainder (r : UInt32) (b : Bytes) : UInt32 :=
  b.foldl remainderByte r

/-- The check of a chunk: the remainder from all ones, with every bit flipped. -/
def chunkCheck (b : Bytes) : Nat :=
  (remainder 0xFFFFFFFF b ^^^ 0xFFFFFFFF).toNat

/-- The sum of bytes and the sum of those sums, modulo 65521. -/
def runningSums (s : Nat × Nat) (b : Bytes) : Nat × Nat :=
  b.foldl (fun (low, high) x =>
    let low := (low + x.toNat) % 65521
    (low, (high + low) % 65521)) s

/-- The check of a compressed stream. -/
def streamCheck (b : Bytes) : Nat :=
  let (low, high) := runningSums (1, 0) b
  high * 65536 + low

end Captioning.Image
