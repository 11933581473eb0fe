import Captioning.Files.Fault
import Captioning.Model.Fault
import Captioning.Time.Span
/-!
# Why an item fails

Everything that can go wrong for one item. Such a fault ends the work on that item and on no other.
-/

namespace Captioning

/-- Why an item has no description. -/
inductive ItemFault
  | network (reason : String)
  | notFound (path : String)
  | sampling (reason : String)
  | decodeTimeout (limit : Span)
  /-- What the model said is no description, even after some attempts. -/
  | unreadable (attempts : Nat) (reason snippet : String)
  | service (cause : ServiceFault)
  | jobTimeout (limit : Span)
  | output (cause : FileFault)
  | aborted (reason : String)

/-- Words a fault. -/
def ItemFault.message : ItemFault → String
  | .network reason => "Network error: " ++ reason
  | .notFound path => "File not found: " ++ path
  | .sampling reason => "Frame extraction failed: " ++ reason
  | .decodeTimeout limit => "Decoder did not finish within " ++ limit.text
  | .unreadable attempts reason _ =>
    "Could not parse model response after " ++ toString attempts ++ " attempt(s): " ++ reason
  | .service cause => "Inference error: " ++ cause.message
  | .jobTimeout limit => "Job did not finish within " ++ limit.text
  | .output cause => "Failed to write output record: " ++ cause.message
  | .aborted reason => "Worker aborted: " ++ reason

end Captioning
