import Captioning.Bytes.Utf8
import Captioning.Json.Numeral
/-!
# Reading values of known shape

A `Reader` takes what it wants from a draft, or objects. Readers meet the parts of a draft in the order of
the text, so that of two faults the earlier one is reported. `depth` is how many brackets may still be
opened by a reader that keeps what it finds; passing over a part has no such limit.

A record is described by its fields in order. It is written as an object, in which a field may not occur
twice and members of other names are passed over or kept, or as an array of its fields.
-/

namespace Captioning.Json

/-- How many brackets may be nested. -/
def maxDepth : Nat := 128

/-- Takes a value from a draft, below `depth` further brackets. -/
abbrev Reader (α : Type) := Nat → Draft → Except Fault α

/-- Opens a bracket. -/
def openBracket (depth : Nat) : Except Fault Nat :=
  if depth ≤ 1 then .error .tooDeep else .ok (depth - 1)

/-- The fault of a draft that is not of the wanted type. -/
def Draft.unwanted (wanted : String) : Draft → Fault
  | .null => .wrongType .null wanted
  | .bool b => .wrongType (.boolean b) wanted
  | .number n => match n.read with
    | .ok (.integer k) => .wrongType (.integer k) wanted
    | .ok (.double x) => .wrongType (.double x) wanted
    | .error f => f
  | .string (.ok s) => .wrongType (.text (String.ofList s)) wanted
  | .string (.error f) => f
  | .array .. => .wrongType .sequence wanted
  | .object .. => .wrongType .map wanted
  | .broken wanting _ => wanting

/-- A string. -/
def readString : Reader String := fun _ d =>
  match d with
  | .string content => content.map String.ofList
  | d => .error (d.unwanted "a string")

/-- A truth value. -/
def readBool : Reader Bool := fun _ d =>
  match d with
  | .bool b => .ok b
  | d => .error (d.unwanted "a boolean")

/-- A value or null. -/
def readOptional {α : Type} (r : Reader α) : Reader (Option α) := fun depth d =>
  match d with
  | .null => .ok none
  | d => (r depth d).map some

/-- An array of values. -/
def readList {α : Type} (r : Reader α) : Reader (List α) := fun depth d =>
  match d with
  | .array items closing => do
    let depth ← openBracket depth
    let xs ← items.mapM (r depth)
    closing.wantingItems
    return xs
  | d => .error (d.unwanted "a sequence")

/-! ## Any value -/

mutual

/-- Any value at all. Members are sorted by name, and of members of one name the last is kept. -/
def readValue (depth : Nat) : Draft → Except Fault Value
  | .null => .ok .null
  | .bool b => .ok (.bool b)
  | .number n => n.read.map Number.toValue
  | .string content => content.map fun s => .string (String.ofList s)
  | .array items closing => do
    let depth ← openBracket depth
    let xs ← readValues depth items
    closing.wantingItems
    return .array xs
  | .object members closing => do
    let depth ← openBracket depth
    let ms ← readPairs depth members []
    closing.wantingMembers
    return .object ms
  | .broken wanting _ => .error wanting

/-- Any items. -/
def readValues (depth : Nat) : List Draft → Except Fault (List Value)
  | [] => .ok []
  | d :: more => do
    let v ← readValue depth d
    let vs ← readValues depth more
    return v :: vs

/-- Any members, put into `found`. -/
def readPairs (depth : Nat) :
    List (Except Fault (List Char) × Draft) → List (String × Value) → Except Fault (List (String × Value))
  | [], found => .ok found
  | (k, d) :: more, found => do
    let k ← k
    let v ← readValue depth d
    readPairs depth more (putMember (String.ofList k) v found)

end

/-! ## Records -/

/-- A field of a record under construction. -/
structure Field (σ : Type) where
  name : String
  /-- Whether the field has been read. -/
  present : σ → Bool
  /-- Reads the field into the record. -/
  take : Nat → Draft → σ → Except Fault σ
  /-- Whether an array of fields may end before this one. -/
  defaulted : Bool

/-- What becomes of members that are no fields: they are passed over, or kept. -/
inductive Others (σ : Type)
  | pass
  | keep (put : String → Value → σ → σ)

/-- Reads the members of an object into a record. -/
def readMembersInto {σ : Type} (fields : List (Field σ)) (others : Others σ) (depth : Nat) :
    List (Except Fault (List Char) × Draft) → σ → Except Fault σ
  | [], r => .ok r
  | (k, d) :: more, r => do
    let k := String.ofList (← k)
    match fields.find? (fun f => f.name == k) with
    | some f =>
      if f.present r then .error (.duplicateField k)
      else
        let r ← f.take depth d r
        readMembersInto fields others depth more r
    | none =>
      match others with
      | .pass =>
        d.pass
        readMembersInto fields others depth more r
      | .keep put =>
        let v ← readValue depth d
        readMembersInto fields others depth more (put k v r)

/-- Reads items in the order of the fields. Returns the record and how many items are left. -/
def readItemsInto {σ : Type} (wanted : String) (closing : Closing) (depth : Nat) :
    List (Field σ) → Nat → List Draft → σ → Except Fault (σ × Nat)
  | [], _, items, r => .ok (r, items.length)
  | f :: fields, place, d :: items, r => do
    let r ← f.take depth d r
    readItemsInto wanted closing depth fields (place + 1) items r
  | f :: fields, place, [], r => do
    closing.wantingItems
    if f.defaulted then readItemsInto wanted closing depth fields (place + 1) [] r
    else .error (.wrongLength place wanted)

/-- How a record is read. -/
structure Shape (σ : Type) where
  /-- The name of the record in messages. -/
  name : String
  fields : List (Field σ)
  others : Others σ
  /-- Whether an array of the fields may stand for the record. -/
  asArray : Bool

/-- What a message says was wanted when an array of fields is too short. -/
def Shape.lengthText {σ : Type} (shape : Shape σ) : String :=
  "struct " ++ shape.name ++ " with " ++ toString shape.fields.length
    ++ (if shape.fields.length == 1 then " element" else " elements")

/-- Reads a record into `start`. -/
def Shape.read {σ : Type} (shape : Shape σ) (start : σ) : Reader σ := fun depth d =>
  match d with
  | .object members closing => do
    let depth ← openBracket depth
    let r ← readMembersInto shape.fields shape.others depth members start
    closing.wantingMembers
    return r
  | .array items closing =>
    if shape.asArray then do
      let depth ← openBracket depth
      let (r, left) ← readItemsInto shape.lengthText closing depth shape.fields 0 items start
      closing.afterItems left
      return r
    else .error (d.unwanted ("struct " ++ shape.name))
  | d => .error (d.unwanted ("struct " ++ shape.name))

/-- The value of a field that must be there. -/
def require {α : Type} (name : String) : Option α → Except Fault α
  | some x => .ok x
  | none => .error (.missingField name)

/-! ## Whole texts -/

/-- Reads a value behind which there is nothing but blanks. -/
def readWhole {α : Type} (r : Reader α) (text : Reading Draft) : Except Fault α := do
  let x ← r maxDepth text.1
  match text.2 with
  | none => .error .trailingCharacters
  | some rest => if (skipSpace rest).isEmpty then return x else .error .trailingCharacters

/-- Reads a text that holds one value and nothing else but blanks. -/
def readText {α : Type} (r : Reader α) (s : String) : Except Fault α :=
  readWhole r (Draft.ofText s.toList)

/-! ## Bytes that are no text -/

/-- The content of a string, refused if it holds `mark`. -/
def refuseMark (mark : Char) (content : Except Fault (List Char)) : Except Fault (List Char) :=
  match content with
  | .ok s => if s.contains mark then .error .badCodePoint else .ok s
  | .error f => .error f

mutual

/-- A draft whose strings and names are refused where they hold `mark`. -/
def Draft.refusing (mark : Char) : Draft → Draft
  | .string content => .string (refuseMark mark content)
  | .array items closing => .array (refusingItems mark items) closing
  | .object members closing => .object (refusingMembers mark members) closing
  | d => d

/-- Items whose strings are refused where they hold `mark`. -/
def refusingItems (mark : Char) : List Draft → List Draft
  | [] => []
  | d :: more => d.refusing mark :: refusingItems mark more

/-- Members whose names and strings are refused where they hold `mark`. -/
def refusingMembers (mark : Char) :
    List (Except Fault (List Char) × Draft) → List (Except Fault (List Char) × Draft)
  | [] => []
  | (k, d) :: more => (refuseMark mark k, d.refusing mark) :: refusingMembers mark more

end

/-- Reads bytes that hold one value. Bytes that are no text are refused where they stand inside of a string
that is wanted; a mark that the text does not use stands for them meanwhile. -/
def readBytes {α : Type} (r : Reader α) (b : Bytes) : Except Fault α :=
  let plain := Utf8.decodeLossy b
  let unused := (List.range (plain.length + 1)).map fun n => Char.ofNat (0xF0000 + n)
  let mark := (unused.find? fun c => !plain.contains c).getD '\uFFFD'
  let s := Utf8.decodeWith mark b
  let (d, rest) := Draft.ofText s
  readWhole r (if s.contains mark then d.refusing mark else d, rest)

end Captioning.Json
