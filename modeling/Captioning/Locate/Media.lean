import Captioning.Files.Tree
/-!
# Located media

The media of an item once it has been found: its contents, fetched from an address, or a file.
-/

namespace Captioning

/-- Media that can be read. -/
inductive Media
  | fetched (data : Bytes) (url : String)
  | file (path : String)
deriving Repr, DecidableEq

/-- What comes of looking for the media of an item. -/
inductive Located
  | media (m : Media)
  /-- The media was taken down; looking for it led to `landing`. -/
  | removed (landing : String)
deriving Repr, DecidableEq

namespace Media

/-- The contents of media. -/
def bytes (t : FileTree) : Media → Except FileFault Bytes
  | .fetched data _ => .ok data
  | .file path => t.read path

/-- Media in messages. -/
def text : Media → String
  | .fetched data url => url ++ " (" ++ toString data.length ++ " bytes)"
  | .file path => path

end Media

end Captioning
