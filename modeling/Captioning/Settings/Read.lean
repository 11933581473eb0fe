import Captioning.Decimal.Scan
import Captioning.Json.Value
import Captioning.Settings.Basic
/-!
# Settings by name

Settings are given as members of a table: a name and a value each. Values of another kind than the wanted
one are converted where that makes sense: a number that is written as a string, a truth value as 1 or 0, a
double as the nearest whole number. Names that mean nothing are passed over.
-/

namespace Captioning

/-- The words that stand for 1 and 0. -/
def numberWord? (s : String) : Option Nat :=
  let s := String.ofList (Decimal.asciiLower s.toList)
  if ["true", "on", "yes"].contains s then some 1
  else if ["false", "off", "no"].contains s then some 0
  else none

/-- A value as it counts in settings: an integer past the signed ones of sixty-four bits is a double. -/
def settingValue : Json.Value → Json.Value
  | .integer n => if n < Nat.pow 2 63 then .integer n else .double (Float.ofInt n)
  | v => v

/-- A whole number below `bound`. Doubles are rounded, a half away from zero, and cut off to the range of
sixty-four bits. -/
def wholeNumber? (bound : Nat) (v : Json.Value) : Option Nat := do
  let n ← match settingValue v with
    | .integer n => if n < 0 then none else some n.toNat
    | .double x => some x.round.toUInt64.toNat
    | .bool b => some (if b then 1 else 0)
    | .string s => (numberWord? s).orElse fun _ => Decimal.readNat? (Nat.pow 2 64) s.toList
    | _ => none
  if n < bound then some n else none

/-- A text. Numbers and truth values are written out. -/
def settingText? (v : Json.Value) : Option String :=
  match settingValue v with
  | .string s => some s
  | .bool b => some (if b then "true" else "false")
  | .integer n => some (String.ofList (Json.integerText n))
  | .double x => some (Decimal.plainText x)
  | _ => none

/-- A list. -/
def settingList? {α : Type} (f : Json.Value → Option α) : Json.Value → Option (List α)
  | .array vs => vs.mapM f
  | _ => none

/-- A relocation: a table with the old and the new host, or a list of the two. -/
def settingRelocation? (v : Json.Value) : Option Relocation := do
  match v with
  | .object ms =>
    return ⟨← settingText? (← Json.member? "from" ms), ← settingText? (← Json.member? "to" ms)⟩
  | .array (old :: new :: _) => return ⟨← settingText? old, ← settingText? new⟩
  | _ => none

namespace Settings

/-- The settings with one of them changed; none if its value makes no sense. -/
def change? (s : Settings) (name : String) (v : Json.Value) : Option Settings := do
  let number := wholeNumber? (Nat.pow 2 64) v
  let short := wholeNumber? (Nat.pow 2 32) v
  let text := settingText? v
  match name with
  | "frame_count" => return { s with frameCount := ← number }
  | "max_frame_dimension" => return { s with maxFrameDimension := ← short }
  | "workers" => return { s with workers := ← number }
  | "parse_retries" => return { s with parseRetries := ← short }
  | "retry_backoff_ms" => return { s with retryBackoffMillis := ← number }
  | "progress_interval" => return { s with progressInterval := ← number }
  | "fetch_timeout_secs" => return { s with fetchTimeoutSeconds := ← number }
  | "decode_timeout_secs" => return { s with decodeTimeoutSeconds := ← number }
  | "job_timeout_secs" => match v with
    | .null => return { s with jobTimeoutSeconds := none }
    | _ => return { s with jobTimeoutSeconds := some (← number) }
  | "user_agent" => return { s with userAgent := ← text }
  | "model" => return { s with model := ← text }
  | "api_base_url" => return { s with apiBaseUrl := ← text }
  | "api_key_path" => return { s with apiKeyPath := ← text }
  | "removal_markers" => return { s with removalMarkers := ← settingList? settingText? v }
  | "legacy_domains" => return { s with relocations := ← settingList? settingRelocation? v }
  | "ffmpeg_path" => return { s with ffmpegPath := ← text }
  | "ffprobe_path" => return { s with ffprobePath := ← text }
  | _ => return s

/-- The settings as members of a table. -/
def members (s : Settings) : List (String × Json.Value) := [
  ("frame_count", .integer s.frameCount),
  ("max_frame_dimension", .integer s.maxFrameDimension),
  ("workers", .integer s.workers),
  ("parse_retries", .integer s.parseRetries),
  ("retry_backoff_ms", .integer s.retryBackoffMillis),
  ("progress_interval", .integer s.progressInterval),
  ("fetch_timeout_secs", .integer s.fetchTimeoutSeconds),
  ("decode_timeout_secs", .integer s.decodeTimeoutSeconds),
  ("job_timeout_secs", match s.jobTimeoutSeconds with
    | some n => .integer n
    | none => .null),
  ("user_agent", .string s.userAgent),
  ("model", .string s.model),
  ("api_base_url", .string s.apiBaseUrl),
  ("api_key_path", .string s.apiKeyPath),
  ("removal_markers", .array (s.removalMarkers.map .string)),
  ("legacy_domains", .array (s.relocations.map fun r => .array [.string r.old, .string r.new])),
  ("ffmpeg_path", .string s.ffmpegPath),
  ("ffprobe_path", .string s.ffprobePath)]

/-- The names of the settings. -/
def names : List String :=
  (default "").members.map (·.1)

/-- The settings with those of a table changed. -/
def changeAll? (s : Settings) (members : List (String × Json.Value)) : Option Settings :=
  members.foldlM (fun s m => s.change? m.1 m.2) s

end Settings

end Captioning
