import NodeFleet.Document.Value

/-!
# NodeFleet.Document.Record — reading the fields of a record from a value

A record is written as a table, in which a field goes by its name or an older name, or as a list of
its fields in order.

* `Dialect`: the two points in which the notations differ.
* `Record.fields?`: the fields that a value gives, under their names.  Fields that the record does
  not have are skipped; a field given twice, also once under each of two names, makes the value no
  record.
* `Fields.required`, `Fields.orElse`, `Fields.optional`: one field, read by a reader for its kind.
-/

namespace NodeFleet

/-- A reader of one kind of value: nothing when the value is of another kind. -/
abbrev Reader (α : Type) := Value → Option α

/-- What a notation decides. -/
structure Dialect where
  /-- The value that a choice without contents carries when it is written as a table of one
  field. -/
  isUnit : Value → Bool
  /-- Whether a list may not have more items than the record it stands for has fields. -/
  exactLists : Bool

/-- The name of a field, and the older names that it may still go by. -/
structure FieldName where
  name : String
  olderNames : List String
  deriving Repr

/-- The fields that were given, each once. -/
abbrev Fields := List (String × Value)

namespace Record

/-- The name of the field that goes by the given name. -/
def canonical? (names : List FieldName) (key : String) : Option String :=
  (names.find? fun f => f.name == key || f.olderNames.contains key).map FieldName.name

/-- The fields of a table under their names, unless one is given twice. -/
def fieldsOfTable? (names : List FieldName) : List (String × Value) → Option Fields
  | [] => some []
  | (key, v) :: rest => do
    let fields ← fieldsOfTable? names rest
    match canonical? names key with
    | none => pure fields
    | some name => if (fields.lookup name).isSome then none else pure ((name, v) :: fields)

/-- The fields that a value gives to a record with the given field names, in their order. -/
def fields? (d : Dialect) (names : List FieldName) : Value → Option Fields
  | .table fields => fieldsOfTable? names fields
  | .date => some []
  | .list items =>
    if d.exactLists && names.length < items.length then none
    else some ((names.map FieldName.name).zip items)
  | _ => none

end Record

namespace Fields

/-- A field that has to be there. -/
def required (fields : Fields) (name : String) (read : Reader α) : Option α :=
  (fields.lookup name).bind read

/-- A field that has the given value when it is not there. -/
def orElse (fields : Fields) (name : String) (read : Reader α) (default : α) : Option α :=
  match fields.lookup name with
  | some v => read v
  | none => some default

/-- A reader that takes null for the absence of a value. -/
def nullable (read : Reader α) : Reader (Option α)
  | .null => some none
  | v => (read v).map some

/-- A field that may be missing or null. -/
def optional (fields : Fields) (name : String) (read : Reader α) : Option (Option α) :=
  fields.orElse name (nullable read) none

end Fields

/-! ## Readers of simple values -/

namespace Value

/-- A text. -/
def asText : Reader String
  | .text s => some s
  | _ => none

/-- A whole number from zero up to, but not including, `bound`. -/
def asBelow (bound : Nat) : Reader Nat
  | .whole n => if 0 ≤ n ∧ n < bound then some n.toNat else none
  | _ => none

/-- A number; a whole one has to fit 64 bits, with or without a sign. -/
def asAmount : Reader Amount
  | .whole n =>
    if -9223372036854775808 ≤ n ∧ n < 18446744073709551616 then some (Amount.ofInt n) else none
  | .real a => some a
  | _ => none

/-- A list whose items are all of one kind. -/
def asList (read : Reader α) : Reader (List α)
  | .list items => items.mapM read
  | _ => none

/-- One of several named choices: its name, or a table whose one field has that name and carries
nothing. -/
def asChoice (d : Dialect) (choices : List (String × α)) : Reader α
  | .text s => choices.lookup s
  | .table [(s, v)] => if d.isUnit v then choices.lookup s else none
  | _ => none

end Value

end NodeFleet
