import Captioning.Command.Fault
import Captioning.Job.Steps
import Captioning.Locate.Address
import Captioning.Network.Exchange
import Captioning.Settings.Basic
/-!
# Looking for media

Media at an address is fetched, media at a path has to be there. Whether media was taken down is decided
by where the request has landed, before anything else is asked about the reply: a notice that media was
removed may itself come with a status that reports a failure.

Main statements: `classify_of_removalNotice` (landing on a notice is a removal, whatever came from there),
`classify_error` (without a reply there is a fault).
-/

namespace Captioning

/-- How media is fetched. -/
structure Fetcher where
  network : Network
  limit : Span
  userAgent : String
  relocations : List Relocation
  markers : List String

namespace Fetcher

/-- How media is fetched under some settings, if they name what can be sent along with requests. -/
def ofSettings (n : Network) (s : Settings) : Except SetupFault Fetcher :=
  if isHeaderValue s.userAgent then
    .ok ⟨n, s.fetchTimeout, s.userAgent, s.relocations, s.removalMarkers⟩
  else .error (.httpClient "the user agent cannot be sent")

/-- The request for an address. -/
def request (f : Fetcher) (url : String) : Request :=
  ⟨.get, url, [("user-agent", f.userAgent)], []⟩

/-- What comes of a request to `url`. -/
def classify (markers : List String) (url : String) :
    Except NetworkFault Reply → Except ItemFault Located
  | .error f => .error (.network f.message)
  | .ok r =>
    if Address.isRemovalNotice markers r.landing then .ok (.removed r.landing)
    else match r.content with
      | .error f => .error (.network f.message)
      | .ok data => .ok (.media (.fetched data url))

/-- Fetches what is at an address. -/
def fetch (f : Fetcher) (url : String) : Timed (Except ItemFault Located) :=
  let url := Address.relocate f.relocations url
  (f.network.send (some f.limit) (f.request url)).andThen fun r => .value (classify f.markers url r)

/-! ## Small facts -/

theorem classify_error (markers : List String) (url : String) (f : NetworkFault) :
    classify markers url (.error f) = .error (.network f.message) := rfl

theorem classify_of_removalNotice {markers : List String} {r : Reply}
    (h : Address.isRemovalNotice markers r.landing = true) (url : String) :
    classify markers url (.ok r) = .ok (.removed r.landing) := by
  simp [classify, h]

end Fetcher

namespace Locator

/-- Fetches media from addresses; nothing is at a path. -/
def remote (f : Fetcher) : Locator := fun i =>
  match i.source with
  | .remote url => f.fetch url
  | .local_ path => .value (.error (.notFound path))

/-- Finds media at paths; addresses cannot be fetched. -/
def files (t : FileTree) : Locator := fun i =>
  .value (match i.source with
    | .remote url => .error (.network ("Local locator cannot fetch " ++ url))
    | .local_ path => if t.holds path then .ok (.media (.file path)) else .error (.notFound path))

/-- Fetches media from addresses and finds media at paths. -/
def any (f : Fetcher) (t : FileTree) : Locator := fun i =>
  if i.source.isRemote then remote f i else files t i

end Locator

end Captioning
