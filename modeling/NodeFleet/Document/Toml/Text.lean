import NodeFleet.Document.Json

/-!
# NodeFleet.Document.Toml.Text — quoted texts of the TOML notation

* `readBasic?`: characters and escapes up to a quotation mark, on one line.
* `readLiteral?`: characters up to an apostrophe, on one line, none of them special.
* `readLongBasic?`, `readLongLiteral?`: the same between three marks, over several lines, whose ends
  are kept as they are.  One or two marks may stand before the closing three.  A backslash at the
  end of a line takes the blanks and line ends after it with it.

No text holds a control character other than a tab, and the long ones line ends.
-/

namespace NodeFleet.Toml

/-- The control characters that may not stand in a text or a comment. -/
def isForbidden (c : Char) : Bool := (c.toNat < 0x20 && c != '\t') || c.toNat = 0x7F

/-- The character with the given number, if it has one. -/
def charOf? (n : Nat) : Option Char :=
  if n < 0xD800 ∨ (0xDFFF < n ∧ n < 0x110000) then some (Char.ofNat n) else none

/-- The value of digits in base sixteen. -/
def hexValue? (cs : List Char) : Option Nat :=
  cs.foldlM (fun n c => (Text.hexDigit? c).map fun d => 16 * n + d) 0

/-- The character that a one-letter escape stands for. -/
def letterEscape? : Char → Option Char
  | 'b' => some '\x08'
  | 'e' => some '\x1b'
  | 't' => some '\t'
  | 'n' => some '\n'
  | 'f' => some '\x0c'
  | 'r' => some '\r'
  | '"' => some '"'
  | '\\' => some '\\'
  | _ => none

/-- The character of an escape, and what follows it. -/
def readEscape? : List Char → Option (Char × List Char)
  | 'x' :: a :: b :: rest => do pure (← charOf? (← hexValue? [a, b]), rest)
  | 'u' :: a :: b :: c :: d :: rest => do pure (← charOf? (← hexValue? [a, b, c, d]), rest)
  | 'U' :: a :: b :: c :: d :: e :: f :: g :: h :: rest => do
    pure (← charOf? (← hexValue? [a, b, c, d, e, f, g, h]), rest)
  | c :: rest => (letterEscape? c).map fun e => (e, rest)
  | [] => none

/-- A text up to its quotation mark, and what follows it; `fuel` is at least the number of
characters. -/
def readBasic? : Nat → List Char → Option (List Char × List Char)
  | 0, _ => none
  | _, [] => none
  | _, '"' :: rest => some ([], rest)
  | fuel + 1, '\\' :: rest => do
    let (c, rest) ← readEscape? rest
    let (cs, rest) ← readBasic? fuel rest
    pure (c :: cs, rest)
  | fuel + 1, c :: rest => do
    if isForbidden c then none
    let (cs, rest) ← readBasic? fuel rest
    pure (c :: cs, rest)

/-- A text up to its apostrophe, and what follows it. -/
def readLiteral? : List Char → Option (List Char × List Char)
  | [] => none
  | '\'' :: rest => some ([], rest)
  | c :: rest => do
    if isForbidden c then none
    let (cs, rest) ← readLiteral? rest
    pure (c :: cs, rest)

/-- What follows a line end at the front. -/
def afterLineEnd? : List Char → Option (List Char)
  | '\n' :: rest => some rest
  | '\r' :: '\n' :: rest => some rest
  | _ => none

/-- A line end straight after the opening marks is not part of the text. -/
def dropFirstLineEnd (cs : List Char) : List Char := (afterLineEnd? cs).getD cs

/-- Blanks within a line. -/
def isSpace (c : Char) : Bool := c = ' ' || c = '\t'

/-- The text without the blanks and line ends at its front. -/
def skipBlankLines : List Char → List Char
  | '\n' :: rest => skipBlankLines rest
  | '\r' :: '\n' :: rest => skipBlankLines rest
  | c :: rest => if isSpace c then skipBlankLines rest else c :: rest
  | [] => []

/-- What follows the blanks and line ends after a backslash that ends its line. -/
def afterContinuation? (cs : List Char) : Option (List Char) :=
  (afterLineEnd? (cs.dropWhile isSpace)).map skipBlankLines

/-- What stands at the front of a long text, and what follows it: a line end as it is written, or
another character that may stand there. -/
def readLongPiece? : List Char → Option (List Char × List Char)
  | '\n' :: rest => some (['\n'], rest)
  | '\r' :: '\n' :: rest => some (['\r', '\n'], rest)
  | c :: rest => if isForbidden c then none else some ([c], rest)
  | [] => none

/-- The closing marks: three of them, with up to two more before that belong to the text. -/
def closing? (mark : Char) (cs : List Char) : Option (List Char × List Char) :=
  let n := (cs.takeWhile (· == mark)).length
  if n < 3 then none else some (List.replicate (min n 5 - 3) mark, cs.drop (min n 5))

/-- A long text up to its three quotation marks, and what follows them. -/
def readLongBasic? : Nat → List Char → Option (List Char × List Char)
  | 0, _ => none
  | _, [] => none
  | fuel + 1, c :: rest =>
    match (if c = '"' then closing? '"' (c :: rest) else none) with
    | some done => some done
    | none =>
      if c = '\\' then
        match afterContinuation? rest with
        | some rest => readLongBasic? fuel rest
        | none => do
          let (e, rest) ← readEscape? rest
          let (cs, rest) ← readLongBasic? fuel rest
          pure (e :: cs, rest)
      else do
        let (piece, rest) ← readLongPiece? (c :: rest)
        let (cs, rest) ← readLongBasic? fuel rest
        pure (piece ++ cs, rest)

/-- A long text up to its three apostrophes, and what follows them. -/
def readLongLiteral? : Nat → List Char → Option (List Char × List Char)
  | 0, _ => none
  | _, [] => none
  | fuel + 1, c :: rest =>
    match (if c = '\'' then closing? '\'' (c :: rest) else none) with
    | some done => some done
    | none => do
      let (piece, rest) ← readLongPiece? (c :: rest)
      let (cs, rest) ← readLongLiteral? fuel rest
      pure (piece ++ cs, rest)

/-- A quoted text from its opening mark on, and what follows it. -/
def readText? (long : Bool) (cs : List Char) : Option (List Char × List Char) :=
  let fuel := cs.length + 1
  match cs with
  | '"' :: '"' :: '"' :: rest =>
    if long then readLongBasic? fuel (dropFirstLineEnd rest) else some ([], '"' :: rest)
  | '\'' :: '\'' :: '\'' :: rest =>
    if long then readLongLiteral? fuel (dropFirstLineEnd rest) else some ([], '\'' :: rest)
  | '"' :: rest => readBasic? fuel rest
  | '\'' :: rest => readLiteral? rest
  | _ => none

end NodeFleet.Toml
