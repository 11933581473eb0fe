import Captioning.Json.Reader
import Captioning.Decimal.Scan
import Captioning.Text.Blank
/-!
# What is known about a stream

A probe describes the streams of a clip as JSON. How long a stream is may be said outright, or follows from
the number of its frames and their rate.
-/

namespace Captioning

/-- The description of one stream. Any of it may be missing. -/
structure ProbeStream where
  codecType : Option String
  duration : Option String
  frameCount : Option String
  frameRate : Option String
deriving Repr, DecidableEq

namespace ProbeStream

/-- A description under construction: of each field, what it says if it is there. -/
structure Draft where
  codecType : Option (Option String)
  duration : Option (Option String)
  frameCount : Option (Option String)
  frameRate : Option (Option String)

/-- A text or nothing. -/
def readText : Json.Reader (Option String) :=
  Json.readOptional Json.readString

/-- The fields of a description in order. -/
def fields : List (Json.Field Draft) := [
  ⟨"codec_type", (·.codecType.isSome),
    fun depth v r => do return { r with codecType := some (← readText depth v) }, true⟩,
  ⟨"duration", (·.duration.isSome),
    fun depth v r => do return { r with duration := some (← readText depth v) }, true⟩,
  ⟨"nb_frames", (·.frameCount.isSome),
    fun depth v r => do return { r with frameCount := some (← readText depth v) }, true⟩,
  ⟨"r_frame_rate", (·.frameRate.isSome),
    fun depth v r => do return { r with frameRate := some (← readText depth v) }, true⟩]

/-- How a description is read. -/
def shape : Json.Shape Draft := ⟨"ProbeStream", fields, .pass, true⟩

/-- Reads a description. -/
def read : Json.Reader ProbeStream := fun depth d => do
  let r ← shape.read ⟨none, none, none, none⟩ depth d
  return ⟨r.codecType.join, r.duration.join, r.frameCount.join, r.frameRate.join⟩

/-- A positive number of sixty-four bits. -/
def positive? (s : List Char) : Option Nat :=
  match Decimal.readNat? (Nat.pow 2 64) (Text.trim s) with
  | some 0 => none
  | n => n

/-- A rate: frames over seconds. -/
def rate? (s : String) : Option (Nat × Nat) :=
  let s := s.toList
  match s.dropWhile (· != '/') with
  | _ :: seconds => do some (← positive? (s.takeWhile (· != '/')), ← positive? seconds)
  | [] => none

/-- The length that is said outright, in seconds. -/
def declared? (p : ProbeStream) : Option Float := do
  let seconds ← Decimal.readFloat? (Text.trim (← p.duration).toList)
  if seconds.isFinite && 0.0 < seconds then some seconds else none

/-- The length that follows from the number of frames and their rate. -/
def counted? (p : ProbeStream) : Option Float := do
  let frames ← positive? (← p.frameCount).toList
  let (num, den) ← rate? (p.frameRate.getD "30/1")
  some (Float.ofNat frames * Float.ofNat den / Float.ofNat num)

/-- How long a stream is, in seconds. -/
def duration? (p : ProbeStream) : Option Float :=
  p.declared? <|> p.counted?

end ProbeStream

/-- What a probe says about a clip. -/
structure Probe where
  streams : List ProbeStream
deriving Repr, DecidableEq

namespace Probe

/-- How a probe is read. -/
def shape : Json.Shape (Option (List ProbeStream)) :=
  ⟨"ProbeOutput", [⟨"streams", (·.isSome),
    fun depth v _ => do return some (← Json.readList ProbeStream.read depth v), true⟩], .pass, true⟩

/-- Reads a probe. -/
def read : Json.Reader Probe := fun depth d => do
  return ⟨(← shape.read none depth d).getD []⟩

/-- The first stream of pictures. -/
def video? (p : Probe) : Option ProbeStream :=
  p.streams.find? fun s => s.codecType == some "video"

end Probe

end Captioning
