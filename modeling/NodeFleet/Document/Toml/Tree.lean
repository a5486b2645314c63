import NodeFleet.Document.Value

/-!
# NodeFleet.Document.Toml.Tree — the tables of a TOML document while it is read

A document names its tables piece by piece, and each table may be defined once.  A `Node` remembers
how its table came about, which decides what may still be added to it.

* `Origin`: a table under a header of its own, one that only a longer header implied, or one that a
  dotted key made.
* `Node.within`: the change of a table that is found along a path of keys.
* `Node.define?`, `Node.append?`, `Node.insert?`: a header `[a.b]`, a header `[[a.b]]`, and an entry
  `a.b = v`.
-/

namespace NodeFleet.Toml

/-- How a table came about.  An implied table counts as dotted once dotted keys have gone through
it. -/
inductive Origin where
  | defined
  | implied
  | dotted
  deriving DecidableEq, Repr

/-- An entry of a table: a finished value, a table, or a list of tables, the last of them first. -/
inductive Node where
  | value (v : Value)
  | table (origin : Origin) (entries : List (String × Node))
  | tables (items : List (List (String × Node)))

/-- The entries of a table, in order. -/
abbrev Entries := List (String × Node)

/-- The entries with the node under `key` replaced. -/
def Entries.replace (es : Entries) (key : String) (node : Node) : Entries :=
  es.map fun e => if e.1 = key then (key, node) else e

namespace Node

/--
Changes the table along `path` by `change`, making the tables on the way where there are none.
Along dotted keys a table that has a header of its own is closed; a list of tables stands for its
last one; a value has no tables in it.
-/
def within (dotted : Bool) (change : Origin → Entries → Option Entries) :
    List String → Origin → Entries → Option Entries
  | [], origin, es => change origin es
  | key :: path, _, es =>
    match es.lookup key with
    | none =>
      let origin := if dotted then .dotted else .implied
      (within dotted change path origin []).map fun sub => es ++ [(key, table origin sub)]
    | some (value _) => none
    | some (tables []) => none
    | some (tables (last :: earlier)) =>
      (within dotted change path .defined last).map fun sub =>
        es.replace key (tables (sub :: earlier))
    | some (table origin sub) =>
      if dotted && origin == .defined then none
      else
        let origin := if dotted then .dotted else origin
        (within dotted change path origin sub).map fun sub => es.replace key (table origin sub)

/-- The header `[path.key]`: a new table, or one that was only implied so far. -/
def define? (path : List String) (key : String) (root : Entries) : Option Entries :=
  within false (fun _ es =>
    match es.lookup key with
    | none => some (es ++ [(key, table .defined [])])
    | some (table .implied sub) => some (es.replace key (table .defined sub))
    | some _ => none) path .defined root

/-- The header `[[path.key]]`: one more table in a list of tables. -/
def append? (path : List String) (key : String) (root : Entries) : Option Entries :=
  within false (fun _ es =>
    match es.lookup key with
    | none => some (es ++ [(key, tables [[]])])
    | some (tables items) => some (es.replace key (tables ([] :: items)))
    | some _ => none) path .defined root

/-- The entry `path.key = v` of a table.  Dotted keys add to a table that dotted keys made, plain
keys to others. -/
def insert? (path : List String) (key : String) (v : Value) (es : Entries) : Option Entries :=
  within true (fun origin es =>
    if (origin == .dotted) == path.isEmpty then none
    else if (es.lookup key).isSome then none
    else some (es ++ [(key, value v)])) path .defined es

mutual

/-- The value that a node stands for. -/
def toValue : Node → Value
  | value v => v
  | table _ entries => .table (fieldsOf entries)
  | tables items => .list (itemsOf items).reverse

/-- The fields that entries stand for. -/
def fieldsOf : List (String × Node) → List (String × Value)
  | [] => []
  | (key, node) :: es => (key, node.toValue) :: fieldsOf es

/-- The tables of a list of tables. -/
def itemsOf : List (List (String × Node)) → List Value
  | [] => []
  | entries :: items => .table (fieldsOf entries) :: itemsOf items

end

end Node

end NodeFleet.Toml
