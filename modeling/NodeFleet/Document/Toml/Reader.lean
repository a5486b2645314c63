import NodeFleet.Document.Record
import NodeFleet.Document.Toml.Scalar
import NodeFleet.Document.Toml.Text
import NodeFleet.Document.Toml.Tree

/-!
# NodeFleet.Document.Toml.Reader — reading the TOML notation, version 1.1

A document is a sequence of lines: a header that names the current table, or an entry of it.  A list
and a table between braces may go over several lines, and a comma may stand after the last of their
items.

* `readKeys?`: the parts of a dotted key.  `readItem?`: a value.
* `parse?`: the table that a whole text stands for.
-/

namespace NodeFleet.Toml

/-- The text without leading blanks. -/
def skipSpace (cs : List Char) : List Char := cs.dropWhile isSpace

/-- What follows a comment, if one begins here; it ends before the end of the line. -/
def skipComment? : List Char → Option (List Char)
  | '#' :: rest =>
    let body := rest.takeWhile fun c => c ≠ '\n' && c ≠ '\r'
    if body.any isForbidden then none else some (rest.drop body.length)
  | cs => some cs

/-- The end of a line: blanks, a comment, and a line end or the end of the text. -/
def endOfLine? (cs : List Char) : Option (List Char) := do
  match ← skipComment? (skipSpace cs) with
  | [] => some []
  | cs => afterLineEnd? cs

/-- Blanks, comments and line ends, as between the items of a list; `fuel` is at least the number of
lines. -/
def skipLines? : Nat → List Char → Option (List Char)
  | 0, cs => some cs
  | fuel + 1, cs => do
    let cs ← skipComment? (skipSpace cs)
    match afterLineEnd? cs with
    | some rest => skipLines? fuel rest
    | none => some cs

/-- The characters of a key without quotes. -/
def isBareChar (c : Char) : Bool := c.isAlphanum || c = '_' || c = '-'

/-- One part of a key, and what follows it. -/
def readKey? (cs : List Char) : Option (String × List Char) :=
  let bare := cs.takeWhile isBareChar
  if bare.isEmpty then
    match cs with
    | '"' :: '"' :: '"' :: _ => none
    | '\'' :: '\'' :: '\'' :: _ => none
    | cs => (readText? false cs).map fun (k, rest) => (.ofList k, rest)
  else some (.ofList bare, cs.drop bare.length)

/-- The most parts that a key may have. -/
def keyLimit : Nat := 80

/-- The parts of a key with dots between them, blanks around each, at most `left` of them, and what
follows. -/
def readParts? : Nat → List Char → Option (List String × List Char)
  | 0, _ => none
  | left + 1, cs => do
    let (key, rest) ← readKey? (skipSpace cs)
    match skipSpace rest with
    | '.' :: rest =>
      let (keys, rest) ← readParts? left rest
      pure (key :: keys, rest)
    | rest => pure ([key], rest)

/-- The parts of a key, and what follows. -/
def readKeys? (cs : List Char) : Option (List String × List Char) := readParts? keyLimit cs

/-- A scalar without quotes, and what follows it.  A blank may stand between a day and a time. -/
def readBareItem? (cs : List Char) : Option (Value × List Char) :=
  let run := cs.takeWhile isScalarChar
  let rest := cs.drop run.length
  match rest with
  | ' ' :: later =>
    let more := later.takeWhile isScalarChar
    if isDay run && ((more[2]?).any (· == ':')) then
      (readScalar? (run ++ ' ' :: more)).map fun v => (v, later.drop more.length)
    else (readScalar? run).map fun v => (v, rest)
  | _ => (readScalar? run).map fun v => (v, rest)

/-- Lists and tables may stand in one another this deep. -/
def nestingLimit : Nat := 80

mutual

/-- A value and what follows it; `level` is how much deeper values may still be nested. -/
def readItem? (fuel level : Nat) (cs : List Char) : Option (Value × List Char) :=
  match fuel with
  | 0 => none
  | fuel + 1 =>
    match cs with
    | '"' :: _ => (readText? true cs).map fun (s, rest) => (.text (.ofList s), rest)
    | '\'' :: _ => (readText? true cs).map fun (s, rest) => (.text (.ofList s), rest)
    | '[' :: rest =>
      if level = 0 then none
      else (readItems? fuel (level - 1) rest).map fun (vs, rest) => (.list vs, rest)
    | '\x7b' :: rest =>
      if level = 0 then none
      else
        (readFields? fuel (level - 1) [] rest).map fun (es, rest) =>
          (.table (Node.fieldsOf es), rest)
    | cs => readBareItem? cs

/-- The items of a list up to its closing bracket. -/
def readItems? (fuel level : Nat) (cs : List Char) : Option (List Value × List Char) :=
  match fuel with
  | 0 => none
  | fuel + 1 => do
    match ← skipLines? (cs.length + 1) cs with
    | ']' :: rest => pure ([], rest)
    | cs =>
      let (v, rest) ← readItem? fuel level cs
      match ← skipLines? (rest.length + 1) rest with
      | ']' :: rest => pure ([v], rest)
      | ',' :: rest =>
        let (vs, rest) ← readItems? fuel level rest
        pure (v :: vs, rest)
      | _ => none

/-- The entries of a table between braces up to the closing one, after the entries `es`.  Only
within a key do line ends not count as blanks. -/
def readFields? (fuel level : Nat) (es : Entries) (cs : List Char) : Option (Entries × List Char) :=
  match fuel with
  | 0 => none
  | fuel + 1 => do
    match ← skipLines? (cs.length + 1) cs with
    | '\x7d' :: rest => pure (es, rest)
    | cs =>
      let (keys, rest) ← readKeys? cs
      match ← skipLines? (rest.length + 1) rest with
      | '=' :: rest =>
        let (v, rest) ← readItem? fuel level (← skipLines? (rest.length + 1) rest)
        let es ← Node.insert? keys.dropLast (keys.getLast?.getD "") v es
        match ← skipLines? (rest.length + 1) rest with
        | '\x7d' :: rest => pure (es, rest)
        | ',' :: rest => readFields? fuel level es rest
        | _ => none
      | _ => none

end

/-- What has been read of a document: its tables, and the path of the current one. -/
structure Progress where
  root : Entries
  path : List String

/-- Enters the value of `keys` into the current table. -/
def Progress.enter? (p : Progress) (keys : List String) (v : Value) : Option Progress :=
  let insert (_ : Origin) (es : Entries) : Option Entries :=
    Node.insert? keys.dropLast (keys.getLast?.getD "") v es
  (Node.within false insert p.path .defined p.root).map fun root => { p with root }

/-- Makes the table of a header the current one. -/
def Progress.header? (p : Progress) (isList : Bool) (keys : List String) : Option Progress :=
  let key := keys.getLast?.getD ""
  let root? :=
    if isList then Node.append? keys.dropLast key p.root else Node.define? keys.dropLast key p.root
  root?.map fun root => { root, path := keys }

/-- One line of a document, and what follows it. -/
def readLine? (p : Progress) (cs : List Char) : Option (Progress × List Char) :=
  let fuel := 2 * cs.length + 2
  match skipSpace cs with
  | [] => some (p, [])
  | '[' :: '[' :: rest => do
    let (keys, rest) ← readKeys? rest
    match rest with
    | ']' :: ']' :: rest => pure (← p.header? true keys, ← endOfLine? rest)
    | _ => none
  | '[' :: rest => do
    let (keys, rest) ← readKeys? rest
    match rest with
    | ']' :: rest => pure (← p.header? false keys, ← endOfLine? rest)
    | _ => none
  | c :: rest =>
    if c = '#' ∨ c = '\n' ∨ c = '\r' then (endOfLine? (c :: rest)).map fun rest => (p, rest)
    else do
      let (keys, rest) ← readKeys? (c :: rest)
      match rest with
      | '=' :: rest =>
        let (v, rest) ← readItem? fuel nestingLimit (skipSpace rest)
        pure (← p.enter? keys v, ← endOfLine? rest)
      | _ => none

/-- The lines of a document; `fuel` is at least their number. -/
def readLines? : Nat → Progress → List Char → Option Progress
  | 0, _, _ => none
  | _, p, [] => some p
  | fuel + 1, p, cs => do
    let (p, rest) ← readLine? p cs
    readLines? fuel p rest

/-- The table that a text stands for; a mark of byte order may stand before it. -/
def parse? (text : String) : Option Value :=
  let cs :=
    match text.toList with
    | '\uFEFF' :: cs => cs
    | cs => cs
  (readLines? (cs.length + 1) ⟨[], []⟩ cs).map fun p => .table (Node.fieldsOf p.root)

/-- In TOML a choice without contents carries an empty table or list; a list that stands for a
record may be longer. -/
def dialect : Dialect :=
  ⟨fun v => match v with | .table [] => true | .list [] => true | _ => false, false⟩

end NodeFleet.Toml
