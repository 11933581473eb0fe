import Captioning.Catalog.Basic
import Captioning.Catalog.Sources
import Captioning.Command.Arguments
import Captioning.Image.Format
import Captioning.Locate.Locators
import Captioning.Model.Service
import Captioning.RecordLog.Basic
import Captioning.Run.Basic
import Captioning.Sampling.Animated
import Captioning.Sampling.Video
import Captioning.Settings.Load
/-!
# Commands

A command describes the items of one catalog after another. What surrounds it is a value, and so is what it
leaves behind: the files, what is reported, and the runs that there were. Everything that can keep a command
from running is found out before the first log is opened, and each source is finished before the next one
is looked at.
-/

namespace Captioning

/-- What surrounds a command. -/
structure Surroundings where
  environment : Environment
  network : Network
  tools : Tools
  /-- The directory for decoded pictures. -/
  scratch : String
  now : Instant

/-- What a command has done so far. -/
structure Progression where
  files : FileTree
  notices : List String
  runs : List RunResult

namespace Command

variable [Image.Library]

/-! ## One catalog -/

/-- The way to describe items from some files. -/
def pipeline (z : Surroundings) (s : Settings) (key : String) (fetcher : Fetcher) (t : FileTree) : Pipeline :=
  let clips : ClipDecoder :=
    ⟨z.tools, s.ffmpegPath, s.ffprobePath, s.decodeTimeout, z.scratch, Path.join z.scratch "media"⟩
  let service : Service := ⟨z.network, s.apiBaseUrl, s.model, key⟩
  Pipeline.standard (Locator.any fetcher t) (SamplerTable.standard (Sampler.animatedImage t) (Sampler.video clips))
    s.sampling ⟨.ofService service, descriptionPrompt, s.parseRetries, s.retryBackoff⟩

/-- The identities that have a record in the log, unless the log is to be written anew. -/
def skipSetFor (t : FileTree) (output : String) : OpenMode → Except SetupFault (SkipSet × List String)
  | .extend => RecordLog.loadSkipSet t output
  | .truncate => .ok (.empty, [])

/-- The files with records appended to a log. -/
def writeRecords (t : FileTree) (log : RecordLog) (records : List Record) :
    Except FileFault (FileTree × RecordLog) :=
  records.foldlM (fun (t, log) r => RecordLog.append t log r) (t, log)

/-- What is reported about a run. -/
def runNotices (r : RunResult) : List String :=
  r.failures.map Failure.text

/-- Describes the items of a catalog: opens the log, runs the plan, and stores the marks of the catalog. Once the log is
open, nothing in a tree of files keeps a record from being appended to it (`RecordLog.writeRecords_of_openAt`): so no
write fails in the run, and the second fault of the log is not met. -/
def describeCatalog (z : Surroundings) (plan : FileTree → RunPlan) (catalog : Catalog) (output : String)
    (mode : OpenMode) (p : Progression) : Progression × Except SetupFault RunResult :=
  match skipSetFor p.files output mode with
  | .error f => (p, .error f)
  | .ok (skip, skipNotices) =>
    let p := { p with notices := p.notices ++ skipNotices }
    match RecordLog.openAt p.files output mode with
    | .error f => (p, .error f)
    | .ok (t, log, logNotices) =>
      let plan := plan t
      let r := plan.run z.now (plan.pipeline.getD []) catalog skip (fun _ => none) false
      let p : Progression := ⟨t, p.notices ++ logNotices ++ runNotices r, p.runs ++ [r]⟩
      match writeRecords t log r.written with
      | .error f => (p, .error (.output output f))
      | .ok (t, _) =>
        let (t, saved) := r.catalog.save t
        ({ p with files := t }, match saved with
          | .ok () => .ok r
          | .error f => .error (.catalog f))

/-! ## Plans -/

/-- The plan for a run, once all that it needs is there: the key, the way to fetch media, and settings that
make sense. -/
def planFor (z : Surroundings) (s : Settings) (limits : RunLimits) (force : Bool) (t : FileTree) :
    Except SetupFault (FileTree → RunPlan) := do
  let key ← s.apiKey t z.environment
  let fetcher ← Fetcher.ofSettings z.network s
  let chosen := { s with workers := limits.workers.getD s.workers }
  let plan := fun t => (⟨chosen, some (pipeline z s key fetcher t), limits.limit, force⟩ : RunPlan)
  discard (plan t).check
  return plan

/-! ## Tables -/

/-- The table at a path, if there is anything in it, and what is reported about it. -/
def loadTable (s : Settings) (t : FileTree) (path : String) : Except SetupFault (Table × List String) := do
  if !t.isFile path then throw (.noInput (path ++ " does not exist"))
  let (loaded, skipped) ← (Table.load t path s.relocations).mapError .catalog
  if loaded.items.isEmpty then throw (.noInput (path ++ " has no entries"))
  return (loaded, ["Loading GIFs from " ++ path] ++ Table.skippedNotice skipped
    ++ ["Loaded " ++ toString loaded.items.length ++ " GIFs"])

/-- Describes the items of a table. -/
def describeTable (z : Surroundings) (s : Settings) (path output : String) (resume : Bool)
    (limits : RunLimits) (p : Progression) : Progression × Except SetupFault Unit :=
  match (do
      let (loaded, notices) ← loadTable s p.files path
      return (loaded, notices, ← planFor z s limits false p.files)) with
  | .error f => (p, .error f)
  | .ok (loaded, notices, plan) =>
    let p := { p with notices := p.notices ++ notices }
    let (p, r) := describeCatalog z plan (.table loaded) output (if resume then .extend else .truncate) p
    (p, r.map fun _ => ())

/-! ## Sources -/

/-- Describes the items of the source in a directory. -/
def describeSource (z : Surroundings) (plan : FileTree → RunPlan) (mode : OpenMode) (dir : String)
    (p : Progression) : Progression × Except SetupFault RunResult :=
  match SourceDir.load p.files dir with
  | .error f => (p, .error (.catalog f))
  | .ok d =>
    let p := { p with notices := p.notices ++ [d.statsNotice] }
    describeCatalog z plan (.source d) (SourceDir.recordsPath dir) mode p

/-- Describes the items of the sources in some directories, up to one that cannot be finished, or during
which the command was asked to stop. Returns the counts of all. -/
def describeAll (z : Surroundings) (plan : FileTree → RunPlan) (mode : OpenMode) :
    List String → Counters → Progression → Progression × Except SetupFault Counters
  | [], totals, p => (p, .ok totals)
  | dir :: more, totals, p =>
    match describeSource z plan mode dir p with
    | (p, .error f) => (p, .error f)
    | (p, .ok r) =>
      let totals := totals.add r.summary.counters
      if r.stopped then (p, .ok totals) else describeAll z plan mode more totals p

/-- What is reported about sources that have been found. -/
def foundNotice (dirs : List String) : String :=
  let names := dirs.filterMap fun dir => (Path.fileName? dir.toList).map String.ofList
  "Found " ++ toString dirs.length ++ " source(s): " ++ ", ".intercalate names

/-- What is reported when all is done. -/
def totalsNotice (sources : Nat) (c : Counters) : String :=
  "Described " ++ toString c.succeeded ++ " items total across " ++ toString sources ++ " source(s) ("
    ++ toString c.removed ++ " removed, " ++ toString c.failed ++ " failed)"

/-- The sources below a root, if there are any. -/
def findSources (t : FileTree) (root : String) (only : Option String) : Except SetupFault (List String) := do
  let dirs ← (SourceDir.find t root only).mapError .catalog
  if dirs.isEmpty then throw (.noInput ("no sources with a manifest under " ++ root))
  return dirs

/-- Describes the items of the sources below a root. -/
def describeSources (z : Surroundings) (s : Settings) (root : String) (only : Option String)
    (force : Bool) (limits : RunLimits) (p : Progression) : Progression × Except SetupFault Unit :=
  match (do
      let dirs ← findSources p.files root only
      return (dirs, ← planFor z s limits force p.files)) with
  | .error f => (p, .error f)
  | .ok (dirs, plan) =>
    let p := { p with notices := p.notices ++ [foundNotice dirs] }
    match describeAll z plan (if force then .truncate else .extend) dirs .zero p with
    | (p, .error f) => (p, .error f)
    | (p, .ok totals) => ({ p with notices := p.notices ++ [totalsNotice dirs.length totals] }, .ok ())

/-! ## All commands -/

/-- Carries out a command. -/
def run (z : Surroundings) (i : Invocation) (t : FileTree) : Progression × Except SetupFault Unit :=
  let p : Progression := ⟨t, [], []⟩
  match Settings.load t z.environment i.settings with
  | .error f => (p, .error f)
  | .ok s => match i.command with
    | .table path output resume limits => describeTable z s path output resume limits p
    | .sources root only force limits => describeSources z s root only force limits p

/-- What the program reports to its caller about the end of a command. -/
def exitCode : Except SetupFault Unit → Nat
  | .ok () => 0
  | .error _ => 1

end Command

end Captioning
