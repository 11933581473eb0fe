import Captioning.Bytes.Utf8
import Captioning.Job.Timed
import Captioning.Network.Url
/-!
# Requests and replies

A request is sent to an address and is answered from the address where it has landed, with a status and a
body, unless something goes wrong on the way. The body may break off after the reply has begun.

Main statement: `isSuccess_iff` (which statuses report success).
-/

namespace Captioning

/-- What a request does. -/
inductive Method
  | get
  | post
deriving Repr, DecidableEq

/-- A request. -/
structure Request where
  method : Method
  url : String
  headers : List (String × String)
  body : Bytes
deriving Repr, DecidableEq

/-- What goes wrong between a request and the end of its reply. -/
inductive NetworkFault
  /-- There is no sense in the request. -/
  | unusable
  | unsent (url : String)
  /-- The request was sent on too often. -/
  | astray (url : String)
  | refused (status : Nat) (landing : String)
  | brokenBody
deriving Repr, DecidableEq

/-- A reply: where the request has landed, and what came from there. -/
structure Reply where
  landing : String
  status : Nat
  body : Except NetworkFault Bytes

/-- What comes of requests. -/
abbrev Network := Request → Timed (Except NetworkFault Reply)

/-- A network on which nothing can be reached. -/
def Network.unreachable : Network := fun r => .value (.error (.unsent r.url))

namespace Status

/-- The names of the statuses that report failure. -/
def names : List (Nat × String) := [
  (400, "Bad Request"), (401, "Unauthorized"), (402, "Payment Required"), (403, "Forbidden"),
  (404, "Not Found"), (405, "Method Not Allowed"), (406, "Not Acceptable"),
  (407, "Proxy Authentication Required"), (408, "Request Timeout"), (409, "Conflict"), (410, "Gone"),
  (411, "Length Required"), (412, "Precondition Failed"), (413, "Payload Too Large"),
  (414, "URI Too Long"), (415, "Unsupported Media Type"), (416, "Range Not Satisfiable"),
  (417, "Expectation Failed"), (418, "I'm a teapot"), (421, "Misdirected Request"),
  (422, "Unprocessable Entity"), (423, "Locked"), (424, "Failed Dependency"), (425, "Too Early"),
  (426, "Upgrade Required"), (428, "Precondition Required"), (429, "Too Many Requests"),
  (431, "Request Header Fields Too Large"), (451, "Unavailable For Legal Reasons"),
  (500, "Internal Server Error"), (501, "Not Implemented"), (502, "Bad Gateway"),
  (503, "Service Unavailable"), (504, "Gateway Timeout"), (505, "HTTP Version Not Supported"),
  (506, "Variant Also Negotiates"), (507, "Insufficient Storage"), (508, "Loop Detected"),
  (510, "Not Extended"), (511, "Network Authentication Required")]

/-- A status with its name. -/
def text (status : Nat) : String :=
  toString status ++ " " ++ (names.lookup status).getD "<unknown status code>"

/-- Whether a status reports success. -/
def isSuccess (status : Nat) : Bool :=
  200 ≤ status && status < 300

/-- Whether a status blames the request. -/
def isRequestFault (status : Nat) : Bool :=
  400 ≤ status && status < 500

/-- Whether a status blames the service. -/
def isServiceFault (status : Nat) : Bool :=
  500 ≤ status && status < 600

theorem isSuccess_iff {status : Nat} : isSuccess status = true ↔ 200 ≤ status ∧ status < 300 := by
  simp [isSuccess]

end Status

namespace NetworkFault

/-- Words a fault. -/
def message : NetworkFault → String
  | .unusable => "builder error"
  | .unsent url => "error sending request for url (" ++ url ++ ")"
  | .astray url => "error following redirect for url (" ++ url ++ ")"
  | .refused status landing =>
    (if Status.isRequestFault status then "HTTP status client error (" else "HTTP status server error (")
      ++ Status.text status ++ ") for url (" ++ landing ++ ")"
  | .brokenBody => "error decoding response body"

end NetworkFault

namespace Reply

/-- The body of a reply, unless its status reports a failure or it breaks off. -/
def content (r : Reply) : Except NetworkFault Bytes :=
  if Status.isRequestFault r.status || Status.isServiceFault r.status then .error (.refused r.status r.landing)
  else r.body

end Reply

/-- Whether a text can be the value of a header: it holds no controls but tabs. -/
def isHeaderValue (s : String) : Bool :=
  s.toList.all fun c => (0x20 ≤ c.toNat || c == '\t') && c.toNat != 0x7F

namespace Network

/-- The request with the address in its canonical form, if the request makes sense. -/
def prepare? (r : Request) : Option Request :=
  if r.headers.all fun h => isHeaderValue h.2 then
    (Url.ofText? r.url).map fun u => { r with url := u.text }
  else none

/-- Sends a request. It is given up after `limit`, if there is one. -/
def send (n : Network) (limit : Option Span) (r : Request) : Timed (Except NetworkFault Reply) :=
  match prepare? r with
  | none => .value (.error .unusable)
  | some r => match limit with
    | none => n r
    | some limit => ((n r).within limit).andThen fun
      | some outcome => .value outcome
      | none => .value (.error (.unsent r.url))

end Network

end Captioning
