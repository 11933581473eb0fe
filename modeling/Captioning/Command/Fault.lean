import Captioning.Catalog.Fault
/-!
# Why a command does not start

What ends a command before or between runs. Faults of single items are not among them.
-/

namespace Captioning

/-- Why a command does not start. -/
inductive SetupFault
  /-- The settings cannot be read. -/
  | settings (reason : String)
  /-- The settings make no sense. -/
  | unsound (reason : String)
  | key (path : String) (cause : FileFault)
  | emptyKey (path : String)
  | catalog (cause : CatalogFault)
  | noInput (reason : String)
  | httpClient (reason : String)
  | output (path : String) (cause : FileFault)

/-- Words a fault. -/
def SetupFault.message : SetupFault → String
  | .settings reason => "Configuration Error: " ++ reason
  | .unsound reason => "Invalid configuration: " ++ reason
  | .key path cause => "Failed to read API key from " ++ path ++ ": " ++ cause.message
  | .emptyKey path => "API key file " ++ path ++ " is empty"
  | .catalog cause => "Catalog Error: " ++ cause.message
  | .noInput reason => "No input: " ++ reason
  | .httpClient reason => "Failed to build HTTP client: " ++ reason
  | .output path cause => "Failed to open output " ++ path ++ ": " ++ cause.message

end Captioning
