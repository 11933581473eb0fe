import Captioning.Json.Value
/-!
# The tables of a TOML document

A document is a tree of tables that is put together from its headers and pairs. No name is given a value
twice, and a table is opened by one header only; tables that merely lie on the way to another one may be
opened later, once.
-/

namespace Captioning.Toml

/-- What a name stands for: a value, a table, or a list of tables, the last one first. A table that no
header has opened is implicit; one made by the name of a pair is dotted. -/
inductive Entry
  | value (v : Json.Value)
  | table (isImplicit isDotted : Bool) (members : List (String × Entry))
  | tables (rows : List (List (String × Entry)))

instance : Inhabited Entry := ⟨.value .null⟩

/-- The members of a table in the order in which they came. -/
abbrev Members := List (String × Entry)

/-- What a name stands for. -/
def Members.find? (k : String) (ms : Members) : Option Entry :=
  (List.find? (fun m => m.1 == k) ms).map (·.2)

/-- The members with one put in place of another, or at the end. -/
def Members.put (k : String) (e : Entry) : Members → Members
  | [] => [(k, e)]
  | (j, f) :: more => if j == k then (k, e) :: more else (j, f) :: Members.put k e more

/-- Changes the table that a path leads to, which is made if it is not there. With `dotted` the path is that
of a pair, and does not lead through tables that a header has opened. -/
def change (dotted : Bool) (f : Members → Option Members) : List String → Members → Option Members
  | [], ms => f ms
  | k :: path, ms =>
    match ms.find? k with
    | none => do some (ms.put k (.table true dotted (← change dotted f path [])))
    | some (.value _) => none
    | some (.tables rows) => match rows with
      | [] => none
      | row :: more => do some (ms.put k (.tables ((← change dotted f path row) :: more)))
    | some (.table isImplicit isDotted inner) =>
      if dotted && !isImplicit then none
      else do some (ms.put k (.table isImplicit isDotted (← change dotted f path inner)))

/-- Gives a name a value. -/
def addValue (k : String) (v : Json.Value) (ms : Members) : Option Members :=
  if (ms.find? k).isSome then none else some (ms.put k (.value v))

/-- Opens a table. -/
def openTable (k : String) (ms : Members) : Option Members :=
  match ms.find? k with
  | none => some (ms.put k (.table false false []))
  | some (.table true false inner) => some (ms.put k (.table false false inner))
  | _ => none

/-- Opens one more table of a list. -/
def openRow (k : String) (ms : Members) : Option Members :=
  match ms.find? k with
  | none => some (ms.put k (.tables [[]]))
  | some (.tables rows) => some (ms.put k (.tables ([] :: rows)))
  | _ => none

/-- Does something with the last name of a path in the table before it. -/
def atLast (dotted : Bool) (f : String → Members → Option Members) (path : List String) (ms : Members) :
    Option Members :=
  match path.getLast? with
  | some k => change dotted (f k) path.dropLast ms
  | none => none

mutual

/-- The value of an entry. -/
def Entry.toValue : Entry → Json.Value
  | .value v => v
  | .table _ _ ms => .object (membersValue ms)
  | .tables rows => .array (rowsValue rows).reverse

/-- The values of members. -/
def membersValue : List (String × Entry) → List (String × Json.Value)
  | [] => []
  | (k, e) :: more => (k, e.toValue) :: membersValue more

/-- The values of tables. -/
def rowsValue : List (List (String × Entry)) → List Json.Value
  | [] => []
  | ms :: more => .object (membersValue ms) :: rowsValue more

end

end Captioning.Toml
