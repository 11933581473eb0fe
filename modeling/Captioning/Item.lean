import Captioning.Decimal.Scan
import Captioning.Files.Path
import Captioning.Text.Blank
/-!
# Items

An item is one animation or clip of a catalog: where its media is, how it is to be sampled, and whether it
is there and has been described.

Main statements: `isPending_iff` (an item is due when its media is there and it is not described, or
everything is to be described again).
-/

namespace Captioning

/-- How media is sampled: a run of still images, or a stream over time. -/
inductive MediaFormat
  | imageSequence
  | video
deriving Repr, DecidableEq

/-- Where the media of an item is. -/
inductive SourceRef
  | remote (url : String)
  | local_ (path : String)
deriving Repr, DecidableEq

/-- One entry of a catalog. -/
structure Item where
  id : String
  source : SourceRef
  format : MediaFormat
  /-- The address that goes into the record. -/
  originUrl : String
  caption : String
  attribution : Option String
  /-- The media is there. -/
  located : Bool
  /-- The item has a record. -/
  described : Bool
deriving Repr, DecidableEq

namespace MediaFormat

/-- The tags of formats that are streams over time. -/
def videoTags : List String := ["mp4", "webm", "mov", "mkv", "m4v", "video"]

/-- The format for a tag, in any case of letters and with any blanks around it. -/
def ofTag (tag : List Char) : MediaFormat :=
  if videoTags.contains (String.ofList (Decimal.asciiLower (Text.trim tag))) then .video else .imageSequence

/-- The format for an address or path, by the extension in front of any query or fragment. -/
def ofReference (reference : String) : MediaFormat :=
  let path := reference.toList.takeWhile fun c => c != '?' && c != '#'
  match Path.extension? path with
  | some ext => ofTag ext
  | none => .imageSequence

/-- The name of a format. -/
def name : MediaFormat → String
  | .imageSequence => "image-sequence"
  | .video => "video"

end MediaFormat

namespace SourceRef

/-- The schemes of addresses; everything else is a path. -/
def schemes : List String := ["http://", "https://"]

/-- Reads a reference. -/
def ofText (reference : String) : SourceRef :=
  if schemes.any fun s => reference.startsWith s then .remote reference else .local_ reference

/-- Whether the media has to be fetched. -/
def isRemote : SourceRef → Bool
  | .remote _ => true
  | .local_ _ => false

/-- The text of a reference. -/
def text : SourceRef → String
  | .remote url => url
  | .local_ path => path

theorem text_ofText (s : String) : (ofText s).text = s := by
  unfold ofText
  split <;> rfl

end SourceRef

namespace Item

/-- An item about which nothing else is known. -/
def new (id : String) (source : SourceRef) (format : MediaFormat) : Item where
  id := id
  source := source
  format := format
  originUrl := source.text
  caption := ""
  attribution := none
  located := true
  described := false

/-- Whether an item is to be described now; `force` ignores that it has been already. -/
def isPending (force : Bool) (i : Item) : Bool :=
  i.located && (force || !i.described)

theorem isPending_iff (force : Bool) (i : Item) :
    i.isPending force = true ↔ i.located = true ∧ (force = true ∨ i.described = false) := by
  simp [isPending]

end Item

end Captioning
