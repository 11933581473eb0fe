import Captioning.Bytes.Base64
import Captioning.Model.Client
import Captioning.Network.Exchange
/-!
# The model as a service

The model is asked over the network. A request holds the instruction and behind it the frames, as parts of
one content; the answer is what the first candidate says in all of its parts together.

Main statement: `answerOf_of_refusal` (a status that does not report success is a fault, whatever the body
is).
-/

namespace Captioning

/-- Where the model is. -/
structure Service where
  network : Network
  base : String
  model : String
  key : String

namespace Service

/-! ## Requests -/

/-- The part for the instruction. -/
def textPart (instruction : String) : Json.Value :=
  .object [("text", .string instruction)]

/-- The part for a frame. -/
def framePart (f : Frame) : Json.Value :=
  .object [("inlineData", .object [("mimeType", .string Frame.mediaType),
    ("data", .string (String.ofList (Base64.encode f.data)))])]

/-- The body of a request. -/
def requestValue (instruction : String) (frames : FrameSet) : Json.Value :=
  .object [("contents", .array [
    .object [("parts", .array (textPart instruction :: frames.map framePart))]])]

/-- The address without slashes at its end. -/
def trimSlashes (url : String) : String :=
  String.ofList (url.toList.reverse.dropWhile (· == '/')).reverse

/-- The address that is asked. -/
def endpoint (s : Service) : String :=
  trimSlashes s.base ++ "/models/" ++ s.model ++ ":generateContent"

/-- The request for an answer. -/
def request (s : Service) (instruction : String) (frames : FrameSet) : Request where
  method := .post
  url := s.endpoint
  headers := [("x-goog-api-key", s.key), ("content-type", "application/json")]
  body := Utf8.ofString (requestValue instruction frames).line

/-! ## Answers -/

/-- What a candidate says: its parts, of which some hold a text; nothing if it has no content. -/
abbrev Candidate := Option (List (Option String))

/-- Reads a record with a single field, which may be missing. -/
def readSingle {α : Type} (name field : String) (r : Json.Reader α) : Json.Reader (Option α) :=
  (⟨name, [⟨field, Option.isSome, fun depth v _ => do return some (← r depth v), true⟩], .pass, true⟩ :
    Json.Shape (Option α)).read none

/-- Reads a part of a content. -/
def readPart : Json.Reader (Option String) := fun depth d => do
  return (← readSingle "ResponsePart" "text" (Json.readOptional Json.readString) depth d).join

/-- Reads the parts of a content. -/
def readContent : Json.Reader (List (Option String)) := fun depth d => do
  return (← readSingle "CandidateContent" "parts" (Json.readList readPart) depth d).getD []

/-- Reads a candidate. -/
def readCandidate : Json.Reader Candidate := fun depth d => do
  return (← readSingle "Candidate" "content" (Json.readOptional readContent) depth d).join

/-- Reads the candidates of an answer. -/
def readCandidates : Json.Reader (List Candidate) := fun depth d => do
  return (← readSingle "GenerateResponse" "candidates" (Json.readList readCandidate) depth d).getD []

/-- The texts of some parts, joined. -/
def joinTexts (parts : List (Option String)) : String :=
  String.ofList ((parts.filterMap id).flatMap String.toList)

/-- What the first candidate says. -/
def spoken : List Candidate → String
  | some parts :: _ => joinTexts parts
  | _ => ""

/-- The beginning of a body, for messages. -/
def excerpt (body : String) : String :=
  String.ofList (body.toList.take 500)

/-- The answer in a reply. -/
def answerOf (status : Nat) (body : String) : Except ServiceFault String := do
  if !Status.isSuccess status then throw (.status status (excerpt body))
  let candidates ← (Json.readText readCandidates body).mapError .payload
  let text := spoken candidates
  if Text.allBlank text.toList then throw .noText
  return text

/-- What comes of a request. -/
def judge : Except NetworkFault Reply → Except ServiceFault String
  | .error f => .error (.transport f.message)
  | .ok r => match r.body with
    | .error f => .error (.transport f.message)
    | .ok b => answerOf r.status (String.ofList (Utf8.decodeLossy b))

/-- Asks for an answer. -/
def generate (s : Service) (instruction : String) (frames : FrameSet) :
    Timed (Except ServiceFault String) :=
  (s.network.send none (s.request instruction frames)).andThen fun r => .value (judge r)

/-! ## Small facts -/

theorem answerOf_of_refusal {status : Nat} (h : Status.isSuccess status = false) (body : String) :
    answerOf status body = .error (.status status (excerpt body)) := by
  simp [answerOf, h]
  rfl

end Service

/-- The model of a service. -/
def Model.ofService (s : Service) : Model :=
  ⟨s.model, fun _ => s.generate⟩

end Captioning
