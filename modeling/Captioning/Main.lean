import Captioning.Command.Run
import Std.Time.DateTime.Timestamp
/-!
# The program

Gathers what surrounds a command, carries it out and makes on the disk the changes that it has made. This
program has no network and starts no other programs: items that need either fail one by one, as they do
when nothing can be reached.
-/

namespace Captioning

/-- A tree with an entry of a directory, and all that is below it on the disk. -/
partial def gather (place : Place) (t : FileTree) (e : IO.FS.DirEntry) : IO FileTree := do
  let place := place ++ [e.fileName]
  if ← e.path.isDir then
    (← e.path.readDir).foldlM (gather place) (t.put place .directory)
  else
    try return t.put place (.file (← IO.FS.readBinFile e.path).toList)
    catch _ => return t

/-- A tree with a file on the disk, if there is one. -/
def gatherFile (t : FileTree) (path : String) : IO FileTree := do
  try
    let content := (← IO.FS.readBinFile path).toList
    let t := match Path.parent? path with
      | some dir => (t.makeDirectories dir).toOption.getD t
      | none => t
    return (t.write path content).toOption.getD t
  catch _ => return t

/-- The files that a command may need: those below the current directory, and those that are named by the
words of the command line or kept in the home directory. -/
def gatherFiles (words : List String) (home : String) : IO FileTree := do
  let dir ← IO.currentDir
  let here := (Path.names dir.toString.toList).map String.ofList
  let t := ((⟨[], []⟩ : FileTree).makeDirectories dir.toString).toOption.getD ⟨[], []⟩
  let t ← (← dir.readDir).foldlM (gather here) { t with here := here }
  let named := (words.flatMap fun w => w.splitOn "=").filter fun w => w.startsWith "/"
  (named ++ [(Settings.default home).apiKeyPath]).foldlM gatherFile t

/-- Makes the changes from one tree to another on the disk. -/
def store (before after : FileTree) : IO Unit :=
  after.entries.forM fun (place, node) => do
    if before.get? place != some node then
      let path := "/" ++ "/".intercalate place
      match node with
      | .directory => IO.FS.createDirAll path
      | .file content => do
        if let some dir := Path.parent? path then IO.FS.createDirAll dir
        IO.FS.writeBinFile path ⟨content.toArray⟩

/-- The variables of the environment that count. -/
def gatherEnvironment : IO Environment :=
  Settings.variableNames.filterMapM fun name => do
    return (← IO.getEnv name).map fun value => (name, value)

/-- The moment that it is now. -/
def currentInstant : IO Instant := do
  return .ofNanos (← Std.Time.Timestamp.now).toNanosecondsSinceUnixEpoch.toInt.toNat

/-- Reports what a command has done. -/
def report (p : Progression) (elapsed : Span) : IO Unit := do
  p.notices.forM IO.println
  p.runs.zipIdx.forM fun (r, n) => (r.summary.lines (toString (n + 1)) elapsed).forM IO.println

/-- Carries out a command. -/
def carryOut (words : List String) (i : Invocation) : IO UInt32 := do
  let environment ← gatherEnvironment
  let before ← gatherFiles words environment.home
  let start ← IO.monoNanosNow
  let surroundings : Surroundings :=
    ⟨environment, .unreachable, fun _ _ => .value (.error .noEntry), "frames", ← currentInstant⟩
  let (p, outcome) := Command.run surroundings i before
  store before p.files
  report p ⟨(← IO.monoNanosNow) - start⟩
  if let .error f := outcome then IO.eprintln ("Error: " ++ f.message)
  return UInt32.ofNat (Command.exitCode outcome)

end Captioning

open Captioning in
/-- Reads the command line and carries it out. -/
def main (words : List String) : IO UInt32 := do
  match Invocation.ofArguments words with
  | .ok i => carryOut words i
  | .error stop =>
    match stop with
    | .help => Invocation.usage.forM IO.println
    | .version => IO.println Invocation.versionText
    | .mistake => Invocation.usage.forM IO.eprintln
    return UInt32.ofNat stop.exitCode
