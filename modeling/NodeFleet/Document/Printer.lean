import NodeFleet.Amount.Shortest
import NodeFleet.Document.Value

/-!
# NodeFleet.Document.Printer — writing a value in the JSON notation

* `Json.quote`: a text between quotation marks; a quotation mark, a backslash and the control
  characters below U+0020 are escaped, the five common ones by a letter.
* `Json.number`: an amount in the fewest digits, always with a point; null for what is no finite
  number.
* `Json.compact`: everything on one line.  `Json.pretty`: one item or field a line, two spaces to a
  level.
-/

namespace NodeFleet.Json

/-- The escaped form of one character. -/
def escapeChar (c : Char) : List Char :=
  if c = '"' then ['\\', '"']
  else if c = '\\' then ['\\', '\\']
  else if c = '\x08' then ['\\', 'b']
  else if c = '\x0c' then ['\\', 'f']
  else if c = '\n' then ['\\', 'n']
  else if c = '\r' then ['\\', 'r']
  else if c = '\t' then ['\\', 't']
  else if c.toNat < 0x20 then ['\\', 'u', '0', '0'] ++ (Nat.toDigits 16 (256 + c.toNat)).drop 1
  else [c]

/-- The text between quotation marks. -/
def quote (s : String) : String := .ofList ('"' :: s.toList.flatMap escapeChar ++ ['"'])

/-- An amount as a number of the notation. -/
def number (a : Amount) : String :=
  if a.isFinite then
    let t := a.toText
    if t.toList.contains '.' then t else t ++ ".0"
  else "null"

mutual

/-- The value on one line. -/
def compact : Value → String
  | .null | .date | .unreadable => "null"
  | .bool b => if b then "true" else "false"
  | .whole n => toString n
  | .real a => number a
  | .text s => quote s
  | .list items => "[" ++ ",".intercalate (compactItems items) ++ "]"
  | .table fields => "\x7b" ++ ",".intercalate (compactFields fields) ++ "\x7d"

/-- The items of a list. -/
def compactItems : List Value → List String
  | [] => []
  | v :: vs => compact v :: compactItems vs

/-- The fields of a table, each after its name. -/
def compactFields : List (String × Value) → List String
  | [] => []
  | (name, v) :: fs => (quote name ++ ":" ++ compact v) :: compactFields fs

end

/-- The start of a line at the given level. -/
def newLine (level : Nat) : String := "\n" ++ .ofList (List.replicate (2 * level) ' ')

mutual

/-- The value over several lines, at the given level. -/
def prettyAt (level : Nat) : Value → String
  | .list (v :: vs) =>
    "[" ++ ",".intercalate (prettyItems (level + 1) (v :: vs)) ++ newLine level ++ "]"
  | .table (f :: fs) =>
    "\x7b" ++ ",".intercalate (prettyFields (level + 1) (f :: fs)) ++ newLine level ++ "\x7d"
  | v => compact v

/-- The items of a list, each on a line of its own. -/
def prettyItems (level : Nat) : List Value → List String
  | [] => []
  | v :: vs => (newLine level ++ prettyAt level v) :: prettyItems level vs

/-- The fields of a table, each on a line of its own after its name. -/
def prettyFields (level : Nat) : List (String × Value) → List String
  | [] => []
  | (name, v) :: fs =>
    (newLine level ++ quote name ++ ": " ++ prettyAt level v) :: prettyFields level fs

end

/-- The value over several lines. -/
def pretty (v : Value) : String := prettyAt 0 v

end NodeFleet.Json
