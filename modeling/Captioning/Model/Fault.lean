import Captioning.Json.Fault
/-!
# Why the model gives no answer

A request can fail on the way, be refused by the service, be answered without any text, or be answered by
something that is no answer at all.
-/

namespace Captioning

/-- Why a request to the model has no answer. -/
inductive ServiceFault
  | transport (reason : String)
  | status (code : Nat) (body : String)
  | noText
  | payload (cause : Json.Fault)

/-- Words a fault. -/
def ServiceFault.message : ServiceFault → String
  | .transport reason => "Request failed: " ++ reason
  | .status code body => "Service returned " ++ toString code ++ ": " ++ body
  | .noText => "Service returned no text"
  | .payload cause => "Malformed service payload: " ++ cause.message

end Captioning
