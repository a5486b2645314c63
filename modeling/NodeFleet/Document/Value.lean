import NodeFleet.Amount.Basic

/-!
# NodeFleet.Document.Value — the tree that a document of data stands for

Configuration files and printed reports are trees of the same few kinds of values, whatever the
notation.  A table keeps its fields in the order in which they were written, and keeps a name that
was written twice.
-/

namespace NodeFleet

/-- A value of a document. -/
inductive Value where
  | null
  | bool (b : Bool)
  | whole (n : Int)
  | real (a : Amount)
  | text (s : String)
  | list (items : List Value)
  | table (fields : List (String × Value))
  /-- A date or a time of day: no field of this library takes one. -/
  | date
  /-- A text or a number that has no value in this library: it can be skipped but not read. -/
  | unreadable
  deriving Inhabited, Repr

namespace Value

/-- The value, or null. -/
def orNull (f : α → Value) : Option α → Value
  | some a => f a
  | none => null

/-- A list of texts. -/
def texts (items : List String) : Value := list (items.map text)

/-- A count. -/
def count (n : Nat) : Value := whole n

end Value

end NodeFleet
