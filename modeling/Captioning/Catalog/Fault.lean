import Captioning.Files.Fault
import Captioning.Json.Fault
/-!
# Why a catalog cannot be used

A catalog is read from a file, has to be well formed, and may be written back. Each of the three can fail.
-/

namespace Captioning

/-- Why a catalog could not be read, understood or written back. -/
inductive CatalogFault
  | read (path : String) (cause : FileFault)
  | form (path : String) (cause : Json.Fault)
  | write (path : String) (cause : FileFault)

/-- Words a fault. -/
def CatalogFault.message : CatalogFault → String
  | .read path cause => "Failed to read " ++ path ++ ": " ++ cause.message
  | .form path cause => "Failed to parse " ++ path ++ ": " ++ cause.message
  | .write path cause => "Failed to write " ++ path ++ ": " ++ cause.message

end Captioning
