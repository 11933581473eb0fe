import Captioning.Json.Reader
/-!
# Descriptions

What the model says about an animation, and how that is written as JSON. Mood and action are one phrase or
a list of phrases. A description that is read needs its literal description and its tags; the rest has
defaults.

Main statement: `ofValue?_toValue` (one phrase and a list of one phrase are told apart).
-/

namespace Captioning

/-- One phrase, or a list of phrases. -/
inductive OneOrMany
  | one (phrase : String)
  | many (phrases : List String)
deriving Repr, DecidableEq

/-- What the model says about an animation. -/
structure Description where
  literal : String
  source : String
  mood : OneOrMany
  action : OneOrMany
  context : String
  tags : List String
deriving Repr, DecidableEq

namespace OneOrMany

/-- The value of a phrase or phrases. -/
def toValue : OneOrMany → Json.Value
  | .one s => .string s
  | .many ss => .array (ss.map .string)

/-- The phrase or phrases of a value. -/
def ofValue? : Json.Value → Option OneOrMany
  | .string s => some (.one s)
  | .array vs => (vs.mapM Json.Value.text?).map .many
  | _ => none

/-- Reads a phrase or phrases: any value is read first, and then has to be one of the two. -/
def read : Json.Reader OneOrMany := fun depth d => do
  match ofValue? (← Json.readValue depth d) with
  | some x => .ok x
  | none => .error (.noVariant "OneOrMany")

theorem ofValue?_toValue (x : OneOrMany) : ofValue? x.toValue = some x := by
  cases x with
  | one s => rfl
  | many ss =>
    have : (ss.map Json.Value.string).mapM Json.Value.text? = some ss := by
      induction ss with
      | nil => rfl
      | cons s ss ih => simp [List.mapM_cons, ih, Json.Value.text?]
    simp [toValue, ofValue?, this]

end OneOrMany

namespace Description

/-- The members of a description in order. -/
def members (d : Description) : List (String × Json.Value) := [
  ("literal", .string d.literal),
  ("source", .string d.source),
  ("mood", d.mood.toValue),
  ("action", d.action.toValue),
  ("context", .string d.context),
  ("tags", .array (d.tags.map .string))]

/-- The value of a description. -/
def toValue (d : Description) : Json.Value :=
  .object d.members

/-- A description under construction. -/
structure Draft where
  literal : Option String
  source : Option String
  mood : Option OneOrMany
  action : Option OneOrMany
  context : Option String
  tags : Option (List String)

/-- Nothing read yet. -/
def Draft.empty : Draft := ⟨none, none, none, none, none, none⟩

/-- The fields of a description in order. -/
def fields : List (Json.Field Draft) := [
  ⟨"literal", (·.literal.isSome),
    fun depth v r => do return { r with literal := some (← Json.readString depth v) }, false⟩,
  ⟨"source", (·.source.isSome),
    fun depth v r => do return { r with source := some (← Json.readString depth v) }, true⟩,
  ⟨"mood", (·.mood.isSome),
    fun depth v r => do return { r with mood := some (← OneOrMany.read depth v) }, true⟩,
  ⟨"action", (·.action.isSome),
    fun depth v r => do return { r with action := some (← OneOrMany.read depth v) }, true⟩,
  ⟨"context", (·.context.isSome),
    fun depth v r => do return { r with context := some (← Json.readString depth v) }, true⟩,
  ⟨"tags", (·.tags.isSome),
    fun depth v r => do return { r with tags := some (← Json.readList Json.readString depth v) }, false⟩]

/-- How a description is read. -/
def shape : Json.Shape Draft := ⟨"Description", fields, .pass, true⟩

/-- The description, if what it needs has been read. -/
def Draft.finish (r : Draft) : Except Json.Fault Description := do
  let literal ← Json.require "literal" r.literal
  let tags ← Json.require "tags" r.tags
  return {
    literal := literal
    source := r.source.getD "unknown"
    mood := r.mood.getD (.one "")
    action := r.action.getD (.one "")
    context := r.context.getD ""
    tags := tags }

/-- Reads a description. -/
def read : Json.Reader Description := fun depth d => do
  (← shape.read Draft.empty depth d).finish

/-- Reads a text that holds a description. -/
def ofText (s : String) : Except Json.Fault Description :=
  Json.readText read s

end Description

end Captioning
