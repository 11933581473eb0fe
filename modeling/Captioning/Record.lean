import Captioning.Description
import Captioning.Item
import Captioning.Time.Instant
/-!
# Records

A record is one line of the output: a description with the identity, address, attribution and caption of
its item and the time at which it was made. The members of the description stand among the record's own.
-/

namespace Captioning

/-- One line of the output. -/
structure Record where
  id : String
  url : String
  attribution : Option String
  caption : String
  description : Description
  describedAt : Instant
deriving Repr, DecidableEq

namespace Record

/-- The record of an item that was described at some time. -/
def ofItem (item : Item) (description : Description) (now : Instant) : Record where
  id := item.id
  url := item.originUrl
  attribution := item.attribution
  caption := item.caption
  description := description
  describedAt := now

/-- The members of a record in order. There is none for a missing attribution. -/
def members (r : Record) : List (String × Json.Value) :=
  [("id", .string r.id), ("url", .string r.url)]
    ++ (match r.attribution with
      | some a => [("attribution", .string a)]
      | none => [])
    ++ [("original_description", .string r.caption)]
    ++ r.description.members
    ++ [("described_at", .string r.describedAt.text)]

/-- The text of a record, without the end of the line. -/
def line (r : Record) : String :=
  (Json.Value.object r.members).line

/-- A record under construction. Members that are not the record's own are kept with their order. -/
structure Draft where
  id : Option String
  url : Option String
  attribution : Option (Option String)
  caption : Option String
  describedAt : Option Instant
  description : Description.Draft

/-- Nothing read yet. -/
def Draft.empty : Draft := ⟨none, none, none, none, none, .empty⟩

/-- Reads an instant. -/
def readInstant : Json.Reader Instant := fun depth v => do
  let s ← Json.readString depth v
  match Instant.read? s.toList with
  | some t => .ok t
  | none => .error (.refused "input contains invalid characters")

/-- A field of the description as a field of the record. -/
def liftField (f : Json.Field Description.Draft) : Json.Field Draft where
  name := f.name
  present := fun r => f.present r.description
  take := fun depth v r => do return { r with description := ← f.take depth v r.description }
  defaulted := f.defaulted

/-- The fields of a record: its own, and those of the description. -/
def fields : List (Json.Field Draft) := [
  ⟨"id", (·.id.isSome), fun depth v r => do return { r with id := some (← Json.readString depth v) }, false⟩,
  ⟨"url", (·.url.isSome),
    fun depth v r => do return { r with url := some (← Json.readString depth v) }, false⟩,
  ⟨"attribution", (·.attribution.isSome),
    fun depth v r => do
      return { r with attribution := some (← Json.readOptional Json.readString depth v) }, true⟩,
  ⟨"original_description", (·.caption.isSome),
    fun depth v r => do return { r with caption := some (← Json.readString depth v) }, true⟩,
  ⟨"described_at", (·.describedAt.isSome),
    fun depth v r => do return { r with describedAt := some (← readInstant depth v) }, false⟩]
  ++ Description.fields.map liftField

/-- How a record is read. Other members are read as values, so that they have to be values, and dropped. -/
def shape : Json.Shape Draft := ⟨"DescriptionRecord", fields, .keep fun _ _ r => r, false⟩

/-- The record, if what it needs has been read. -/
def Draft.finish (r : Draft) : Except Json.Fault Record := do
  let id ← Json.require "id" r.id
  let url ← Json.require "url" r.url
  let describedAt ← Json.require "described_at" r.describedAt
  let description ← r.description.finish
  return ⟨id, url, r.attribution.getD none, r.caption.getD "", description, describedAt⟩

/-- Reads a text that holds a record. -/
def ofText (s : String) : Except Json.Fault Record :=
  Json.readText (fun depth d => do (← shape.read Draft.empty depth d).finish) s

end Record

end Captioning
