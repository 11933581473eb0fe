import Captioning.Decimal.Scan
/-!
# The command line

A command line names a command among options of two levels: those in front of the command, and those behind
it. Some options may stand at either level. An option is given by its name or by its letter, and its value
is attached or follows as a word of its own that does not look like an option. What is asked for first
wins: reading stops at a request for help, and at the first mistake.
-/

namespace Captioning

/-- Why a command line leads to no command. -/
inductive ArgumentStop
  | help
  | version
  | mistake
deriving Repr, DecidableEq

/-- What the program reports to its caller. -/
def ArgumentStop.exitCode : ArgumentStop → Nat
  | .help | .version => 0
  | .mistake => 2

/-- An option: its name, its letter if it has one, and which values it takes, if it takes one. -/
structure ArgumentOption where
  name : String
  letter : Option Char
  accepts : Option (String → Bool)

/-- What may be given at one level. -/
structure ArgumentLevel where
  options : List ArgumentOption
  /-- Whether the version may be asked for. -/
  versioned : Bool
  commands : List String

/-- What has been given at a level: the options with their values, and one at the end that is not settled,
because its value is still to come or has not been looked at. -/
structure Given where
  values : List (String × String)
  open_ : Option (ArgumentOption × Option String)

namespace Given

/-- Nothing given. -/
def nothing : Given := ⟨[], none⟩

/-- The value of an option. -/
def get? (g : Given) (name : String) : Option String :=
  g.values.lookup name

/-- Whether an option has been given. -/
def has (g : Given) (name : String) : Bool :=
  (g.get? name).isSome

/-- The options with one more. -/
def add (o : ArgumentOption) (value : String) (g : Given) : Except ArgumentStop Given :=
  if g.has o.name then .error .mistake
  else if o.accepts.all fun accepts => accepts value then .ok { g with values := g.values ++ [(o.name, value)] }
  else .error .mistake

/-- The options with the last one settled. -/
def settle (g : Given) : Except ArgumentStop Given :=
  match g.open_ with
  | none => .ok g
  | some (_, none) => .error .mistake
  | some (o, some value) => add o value { g with open_ := none }

/-- Takes an option with what is attached to it. -/
def take (o : ArgumentOption) (attached : Option String) (g : Given) : Except ArgumentStop Given := do
  let g ← g.settle
  match o.accepts, attached with
  | none, none => g.add o ""
  | none, some _ => throw .mistake
  | some _, some value => g.add o value
  | some _, none => return { g with open_ := some (o, none) }

end Given

namespace ArgumentLevel

/-- Takes an option by its name. -/
def takeName (level : ArgumentLevel) (word : List Char) (g : Given) : Except ArgumentStop Given :=
  let name := String.ofList (word.takeWhile (· != '='))
  let attached := match word.dropWhile (· != '=') with
    | [] => none
    | _ :: value => some (String.ofList value)
  match level.options.find? fun o => o.name == name with
  | some o => g.take o attached
  | none =>
    if attached.isSome then .error .mistake
    else if name == "help" then g.settle >>= fun _ => .error .help
    else if name == "version" && level.versioned then g.settle >>= fun _ => .error .version
    else .error .mistake

/-- Takes options by their letters. The first that takes a value takes all behind it. -/
def takeLetters (level : ArgumentLevel) : List Char → Given → Except ArgumentStop Given
  | [], g => .ok g
  | c :: more, g =>
    match level.options.find? fun o => o.letter == some c with
    | some o =>
      if o.accepts.isSome then
        let value := if more.head? == some '=' then more.drop 1 else more
        g.take o (if more.isEmpty then none else some (String.ofList value))
      else g.take o none >>= level.takeLetters more
    | none =>
      if c == 'h' then g.settle >>= fun _ => .error .help
      else if c == 'V' && level.versioned then g.settle >>= fun _ => .error .version
      else .error .mistake

/-- Whether help is given on some words: on nothing more, or on a command. -/
def helpOn (level : ArgumentLevel) (words : List String) : ArgumentStop :=
  match words with
  | [] => .help
  | [name] => if ("help" :: level.commands).contains name then .help else .mistake
  | _ => .mistake

/-- Takes a word that is no option: a value that is awaited, or a command. -/
def takeWord (level : ArgumentLevel) (word : String) (more : List String) (g : Given) :
    Except ArgumentStop (Given × Option (String × List String)) :=
  match g.open_ with
  | some (o, none) => .ok ({ g with open_ := some (o, some word) }, none)
  | _ =>
    if level.commands.contains word then .ok (g, some (word, more))
    else if word == "help" && !level.commands.isEmpty then .error (level.helpOn more)
    else .error .mistake

/-- Reads the words of a level. Returns the command that ends it, with the words behind. -/
def readWords (level : ArgumentLevel) :
    List String → Given → Except ArgumentStop (Given × Option (String × List String))
  | [], g => .ok (g, none)
  | word :: more, g =>
    match word.toList with
    | ['-', '-'] => if more.isEmpty then .ok (g, none) else .error .mistake
    | '-' :: '-' :: name => level.takeName name g >>= level.readWords more
    | '-' :: c :: letters => level.takeLetters (c :: letters) g >>= level.readWords more
    | _ => do
      match ← level.takeWord word more g with
      | (g, some found) => return (g, some found)
      | (g, none) => level.readWords more g

end ArgumentLevel

/-! ## Commands -/

/-- A bound on a run, and how many jobs it may have at a time. -/
structure RunLimits where
  limit : Option Nat
  workers : Option Nat
deriving Repr, DecidableEq

/-- What is to be done. -/
inductive Command
  /-- Describe the items of a table. -/
  | table (path output : String) (resume : Bool) (limits : RunLimits)
  /-- Describe the items of sources. -/
  | sources (root : String) (only : Option String) (force : Bool) (limits : RunLimits)
deriving Repr, DecidableEq

/-- A command with what concerns all commands. -/
structure Invocation where
  settings : Option String
  verbose : Bool
  command : Command
deriving Repr, DecidableEq

namespace Invocation

/-- The name of the program. -/
def program : String := "gif-describer"

/-- The version of the program. -/
def versionText : String := program ++ " 0.1.0"

/-- An option for a path, which is not empty. -/
def pathOption (name : String) : ArgumentOption :=
  ⟨name, none, some fun s => !s.isEmpty⟩

/-- A count. -/
def count? (s : String) : Option Nat :=
  Decimal.readNat? (Nat.pow 2 64) s.toList

/-- An option for a count. -/
def countOption (name : String) : ArgumentOption :=
  ⟨name, none, some fun s => (count? s).isSome⟩

/-- An option without a value. -/
def plainOption (name : String) : ArgumentOption :=
  ⟨name, none, none⟩

/-- The options of either level. -/
def commonOptions : List ArgumentOption := [
  { pathOption "config" with letter := some 'c' },
  { plainOption "verbose" with letter := some 'v' }]

/-- The options of runs. -/
def runOptions : List ArgumentOption :=
  [countOption "limit", countOption "workers"]

/-- The command for tables. -/
def tableName : String := "tgif"

/-- The command for sources. -/
def sourcesName : String := "sources"

/-- The level in front of the command. -/
def outer : ArgumentLevel := ⟨commonOptions, true, [tableName, sourcesName]⟩

/-- The level behind a command. -/
def inner (command : String) : ArgumentLevel :=
  let own := if command == tableName then [pathOption "tsv", pathOption "output", plainOption "resume"]
    else [pathOption "sources-dir", ⟨"source", none, some fun _ => true⟩, plainOption "force"]
  ⟨own ++ runOptions ++ commonOptions, false, []⟩

/-- The limits of a run. -/
def limits (g : Given) : RunLimits :=
  ⟨(g.get? "limit").bind count?, (g.get? "workers").bind count?⟩

/-- The command that options ask for. -/
def commandOf (name : String) (g : Given) : Except ArgumentStop Command :=
  if name == tableName then
    match g.get? "tsv" with
    | some path =>
      .ok (.table path ((g.get? "output").getD "gif_descriptions.jsonl") (g.has "resume") (limits g))
    | none => .error .mistake
  else
    .ok (.sources ((g.get? "sources-dir").getD "sources") (g.get? "source") (g.has "force") (limits g))

/-- Reads a command line. -/
def ofArguments (words : List String) : Except ArgumentStop Invocation := do
  match ← outer.readWords words .nothing with
  | (_, none) => throw .mistake
  | (front, some (name, more)) =>
    let (behind, _) ← (inner name).readWords more .nothing
    let behind ← behind.settle
    let command ← commandOf name behind
    let front ← front.settle
    return {
      settings := (behind.get? "config").orElse fun _ => front.get? "config"
      verbose := behind.has "verbose" || front.has "verbose"
      command := command }

/-- How the program is used. -/
def usage : List String := [
  "Describe animated GIFs and short videos with a multimodal model",
  "",
  "Usage: " ++ program ++ " [-c FILE] [-v] " ++ tableName
    ++ " --tsv FILE [--output FILE] [--resume] [--limit N] [--workers N]",
  "       " ++ program ++ " [-c FILE] [-v] " ++ sourcesName
    ++ " [--sources-dir DIR] [--source NAME] [--force] [--limit N] [--workers N]"]

end Invocation

end Captioning
