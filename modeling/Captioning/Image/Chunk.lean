import Captioning.Image.Bits
import Captioning.Image.Checksum
/-!
# Chunks

Portable network graphics are a signature and a list of chunks: a length, a kind of four letters, data, and
a check over kind and data. A chunk whose kind starts with a small letter may be ignored.
-/

namespace Captioning.Image

/-- A chunk as far as the data goes. -/
structure Chunk where
  kind : String
  data : Bytes
  /-- Whether data and check are there. -/
  isWhole : Bool
  /-- Whether the check is right. -/
  isSound : Bool

namespace Chunk

/-- The text of bytes, each standing for one character. -/
def kindText (b : Bytes) : String :=
  String.ofList (b.map fun x => Char.ofNat x.toNat)

/-- The bytes of a text of small code points. -/
def kindBytes (s : String) : Bytes :=
  s.toList.map fun c => UInt8.ofNat c.toNat

/-- Whether a reader that does not know the chunk has to give up. -/
def isCritical (c : Chunk) : Bool :=
  match c.kind.toList with
  | k :: _ => !(k.toNat / 32 % 2 == 1)
  | [] => true

/-- The chunks of data; the last one may be cut off. `fuel` bounds their number. -/
def readAll : Nat → Bytes → List Chunk
  | 0, _ => []
  | fuel + 1, b =>
    if b.length < 8 then []
    else
      let length := bigAt b 0 4
      let body := b.drop 4
      let data := (body.drop 4).take length
      let kind := kindText (body.take 4)
      let rest := body.drop (4 + length)
      if data.length < length || rest.length < 4 then [⟨kind, data, false, false⟩]
      else
        ⟨kind, data, true, bigAt rest 0 4 == chunkCheck (body.take (4 + length))⟩
          :: readAll fuel (rest.drop 4)

/-- The chunks of data. -/
def ofBytes (b : Bytes) : List Chunk :=
  readAll (b.length + 1) b

/-- Objects to a chunk that is cut off or damaged. -/
def check (c : Chunk) : Except Fault Unit :=
  if !c.isWhole then .error .truncated
  else if !c.isSound then .error (.malformed "check")
  else .ok ()

/-- The bytes of a chunk. -/
def write (kind : String) (data : Bytes) : Bytes :=
  let body := kindBytes kind ++ data
  bigFour data.length ++ body ++ bigFour (chunkCheck body)

end Chunk

end Captioning.Image
