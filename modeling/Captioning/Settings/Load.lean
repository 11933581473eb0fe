import Captioning.Command.Fault
import Captioning.Files.Tree
import Captioning.Json.Reader
import Captioning.Settings.Read
import Captioning.Toml.Reader
/-!
# Where settings come from

The defaults are overlaid by a settings file, and that by variables of the environment. A file is TOML or
JSON, which its extension tells; a file that is named without its extension is looked for with either.
-/

namespace Captioning

/-- What surrounds a command: the variables of the environment. -/
abbrev Environment := List (String × String)

namespace Environment

/-- The value of a variable. -/
def get? (e : Environment) (name : String) : Option String :=
  e.lookup name

/-- The home directory. -/
def home (e : Environment) : String :=
  (e.get? "HOME").getD ""

end Environment

namespace Settings

/-- The forms of settings files, by extension. -/
def forms : List (String × (List Char → Option (List (String × Json.Value)))) := [
  ("toml", Toml.read?),
  ("json", fun s => match Json.readText Json.readValue (String.ofList s) with
    | .ok (.object ms) => some ms
    | _ => none)]

/-- The path of a settings file, and the form of its contents. -/
def findFile? (t : FileTree) (path : String) :
    Option (String × (List Char → Option (List (String × Json.Value)))) :=
  if t.isFile path then do
    let extension := String.ofList ((Path.extension? path.toList).getD [])
    return (path, ← forms.lookup extension)
  else
    (forms.find? fun f => t.isFile (path ++ "." ++ f.1)).map fun f => (path ++ "." ++ f.1, f.2)

/-- The settings in a file. -/
def ofFile (t : FileTree) (path : String) : Except SetupFault (List (String × Json.Value)) :=
  let refuse := SetupFault.settings ("configuration file \"" ++ path ++ "\" cannot be used")
  match findFile? t path with
  | none => .error refuse
  | some (path, form) => match t.read path with
    | .error _ => .error refuse
    | .ok b => match form (Utf8.decodeUnmarked b) with
      | some ms => .ok ms
      | none => .error refuse

/-- What the names of variables start with that are settings. -/
def variableStart : String := "gif_describer_"

/-- The value of a variable: a truth value, a number or a text. -/
def variableValue (s : String) : Json.Value :=
  let word := String.ofList (Decimal.asciiLower s.toList)
  if word == "true" then .bool true
  else if word == "false" then .bool false
  else match Decimal.readInt? s.toList with
    | some n => .integer n
    | none => match Decimal.readFloat? s.toList with
      | some x => .double x
      | none => .string s

/-- The settings in the environment. Large and small letters are not told apart in names. -/
def ofEnvironment (e : Environment) : List (String × Json.Value) :=
  e.filterMap fun (name, s) =>
    let name := Decimal.asciiLower name.toList
    if variableStart.toList.isPrefixOf name then
      some (String.ofList (name.drop variableStart.length), variableValue s)
    else none

/-- A table with the members of another one put over its own. -/
def overlay (below above : List (String × Json.Value)) : List (String × Json.Value) :=
  above.foldl (fun ms (k, v) => Json.putMember k v ms) below

/-- The settings of a command, which have to make sense. -/
def load (t : FileTree) (e : Environment) (path : Option String) : Except SetupFault Settings := do
  let file ← match path with
    | some path => ofFile t path
    | none => pure []
  match (Settings.default e.home).changeAll? (overlay (overlay [] file) (ofEnvironment e)) with
  | none => throw (.settings "a value has the wrong type")
  | some s => match s.fault? with
    | some reason => throw (.unsound reason)
    | none => return s

/-- The variable that holds the key of the service. -/
def keyVariable : String := "GEMINI_API_KEY"

/-- The names of the variables that count. -/
def variableNames : List String :=
  ["HOME", keyVariable] ++ names.map fun name => (variableStart ++ name).toUpper

/-- The key of the service: from the environment, or else the first word of the key file. -/
def apiKey (s : Settings) (t : FileTree) (e : Environment) : Except SetupFault String := do
  let given := Text.trim ((e.get? keyVariable).getD "").toList
  if !given.isEmpty then return String.ofList given
  let content ← (t.readText s.apiKeyPath).mapError fun f => .key s.apiKeyPath f
  match (Text.trimStart content.toList).takeWhile fun c => !Text.isBlank c with
  | [] => throw (.emptyKey s.apiKeyPath)
  | word => return String.ofList word

end Settings

end Captioning
