/-!
# Why a picture cannot be read

A `Fault` says why data is no picture: it ends too early, breaks the rules of its form, uses something that
is not supported, or is too large to be held.
-/

namespace Captioning.Image

/-- Why data is not read as a picture. -/
inductive Fault
  | truncated
  | malformed (what : String)
  | unsupported (what : String)
  | tooLarge
deriving Repr, DecidableEq

/-- Words a fault. -/
def Fault.message : Fault → String
  | .truncated => "unexpected end of data"
  | .malformed what => "invalid " ++ what
  | .unsupported what => "unsupported " ++ what
  | .tooLarge => "the picture is too large"

end Captioning.Image
