import NodeFleet.Amount.Decimal
import NodeFleet.Document.Value
import NodeFleet.Text.Letter

/-!
# NodeFleet.Document.Json — reading the JSON notation

* `Json.readString?`: the characters up to the closing quotation mark.  An escape gives a 16-bit
  unit; a pair of surrogates is one character, and a surrogate without its partner leaves the text
  unreadable.
* `Json.readNumber?`: a whole number keeps its value when it fits 64 bits; any other number is an
  amount, and one too large for an amount is unreadable.
* `Json.parse?`: the value of a whole text, white space around it.  What is unreadable in it need
  only be readable where something reads it; a table with an unreadable name is unreadable itself.
-/

namespace NodeFleet.Json

/-- The four blanks of the notation. -/
def isSpace (c : Char) : Bool := c = ' ' || c = '\t' || c = '\n' || c = '\r'

/-- The text without its leading blanks. -/
def skipSpace (cs : List Char) : List Char := cs.dropWhile isSpace

/-! ## Texts -/

/-- A part of a quoted text: a character, or a 16-bit unit given by number. -/
inductive Piece where
  | char (c : Char)
  | unit (n : Nat)

/-- The character that a one-letter escape stands for. -/
def simpleEscape? : Char → Option Char
  | '"' => some '"'
  | '\\' => some '\\'
  | '/' => some '/'
  | 'b' => some '\x08'
  | 'f' => some '\x0c'
  | 'n' => some '\n'
  | 'r' => some '\r'
  | 't' => some '\t'
  | _ => none

/-- The parts of a quoted text, and what follows its closing quotation mark. -/
def pieces? : List Char → Option (List Piece × List Char)
  | '"' :: rest => some ([], rest)
  | '\\' :: 'u' :: a :: b :: c :: d :: rest => do
    let unit :=
      4096 * (← Text.hexDigit? a) + 256 * (← Text.hexDigit? b) + 16 * (← Text.hexDigit? c) +
        (← Text.hexDigit? d)
    let (ps, rest) ← pieces? rest
    pure (.unit unit :: ps, rest)
  | '\\' :: c :: rest => do
    let e ← simpleEscape? c
    let (ps, rest) ← pieces? rest
    pure (.char e :: ps, rest)
  | c :: rest =>
    if c.toNat < 0x20 then none
    else do
      let (ps, rest) ← pieces? rest
      pure (.char c :: ps, rest)
  | [] => none

/-- The characters of the parts: a high surrogate joins with the low one after it, and none stands
alone. -/
def charsOfPieces? : List Piece → Option (List Char)
  | [] => some []
  | .char c :: ps => (charsOfPieces? ps).map (c :: ·)
  | .unit n :: .unit m :: ps =>
    if 0xD800 ≤ n ∧ n < 0xDC00 then
      if 0xDC00 ≤ m ∧ m < 0xE000 then
        (charsOfPieces? ps).map (Char.ofNat (0x10000 + 1024 * (n - 0xD800) + (m - 0xDC00)) :: ·)
      else none
    else if 0xDC00 ≤ n ∧ n < 0xE000 then none
    else (charsOfPieces? (.unit m :: ps)).map (Char.ofNat n :: ·)
  | .unit n :: ps =>
    if 0xD800 ≤ n ∧ n < 0xE000 then none else (charsOfPieces? ps).map (Char.ofNat n :: ·)

/-- A quoted text after its opening quotation mark: the text, if it is readable, and what follows
it. -/
def readString? (cs : List Char) : Option (Option String × List Char) :=
  (pieces? cs).map fun (ps, rest) => ((charsOfPieces? ps).map String.ofList, rest)

/-! ## Numbers -/

/-- One past the largest whole number of 64 bits. -/
def wordLimit : Nat := 18446744073709551616

/--
Digits taken into a number of 64 bits as long as they fit, the number so far in `n`: the number, and
how many digits were left out.  The first that does not fit ends the taking.
-/
def takeDigits (n : Nat) : List Char → Nat × Nat
  | [] => (n, 0)
  | d :: ds =>
    let next := 10 * n + (d.toNat - '0'.toNat)
    if next < wordLimit then takeDigits next ds else (n, ds.length + 1)

/-- An exponent, whose sign and digits are given, joined with the exponent of the digits before
it. -/
def scaled (negative : Bool) (digits : Nat) (exponent : Int) (expNegative : Bool)
    (exp : List Char) : Value :=
  let e := Amount.digitsValue exp
  -- an exponent of more than 31 bits makes any number zero or too large
  if e < 2147483648 then
    let exponent := if expNegative then exponent - e else exponent + e
    match Amount.ofScientific? negative digits exponent with
    | some a => .real a
    | none => .unreadable
  else if digits ≠ 0 ∧ !expNegative then .unreadable
  else .real (.finite negative 0)

/-- The value of a number without a point and an exponent. -/
def wholeNumber (negative : Bool) (ds : List Char) : Value :=
  let n := Amount.digitsValue ds
  if n < wordLimit then
    if !negative then .whole n
    else if n = 0 ∨ wordLimit < 2 * n then .real (Amount.ofRatio true n 1)
    else .whole (-(n : Int))
  else
    let (m, left) := takeDigits 0 ds
    scaled negative m left false []

/-- The value of a number with a point, an exponent, or both. -/
def realNumber (negative : Bool) (ds fraction : List Char) (expNegative : Bool) (exp : List Char) :
    Value :=
  let (n, left) := takeDigits 0 ds
  let (m, dropped) := takeDigits n fraction
  let exponent : Int := left - (fraction.length - dropped : Nat)
  scaled negative m exponent expNegative exp

/-- The digits at the front, at least one, and what follows them. -/
def leadingDigits? (cs : List Char) : Option (List Char × List Char) :=
  let ds := cs.takeWhile Char.isDigit
  if ds.isEmpty then none else some (ds, cs.dropWhile Char.isDigit)

/-- A number from its first character on: its value and what follows.  No zero stands before another
digit. -/
def readNumber? (cs : List Char) : Option (Value × List Char) :=
  let (negative, cs) :=
    match cs with
    | '-' :: r => (true, r)
    | r => (false, r)
  let ds := cs.takeWhile Char.isDigit
  let rest := cs.dropWhile Char.isDigit
  if ds.isEmpty ∨ (ds.head? = some '0' ∧ ds.length ≠ 1) then none
  else
    let ending (fraction rest : List Char) (pointed : Bool) : Option (Value × List Char) :=
      match rest with
      | c :: r =>
        if c = 'e' ∨ c = 'E' then
          (Amount.readExponent? leadingDigits? r).map fun (expNegative, exp, rest) =>
            (realNumber negative ds fraction expNegative exp, rest)
        else if pointed then some (realNumber negative ds fraction false [], c :: r)
        else some (wholeNumber negative ds, c :: r)
      | [] =>
        if pointed then some (realNumber negative ds fraction false [], [])
        else some (wholeNumber negative ds, [])
    match rest with
    | '.' :: r =>
      let fraction := r.takeWhile Char.isDigit
      if fraction.isEmpty then none else ending fraction (r.dropWhile Char.isDigit) true
    | r => ending [] r false

/-! ## Values -/

/-- What follows the given word, if the text begins with it. -/
def afterWord? : List Char → List Char → Option (List Char)
  | [], cs => some cs
  | w :: ws, c :: cs => if w = c then afterWord? ws cs else none
  | _ :: _, [] => none

/-- The table of the given fields, if their names are readable. -/
def tableOf (fields : List (Option String × Value)) : Value :=
  match fields.mapM fun field => field.1.map fun name => (name, field.2) with
  | some fields => .table fields
  | none => .unreadable

mutual

/-- A value after leading blanks, and what follows it; `depth` bounds the nesting. -/
def readValue? (depth : Nat) (cs : List Char) : Option (Value × List Char) :=
  match depth with
  | 0 => none
  | depth + 1 =>
    match skipSpace cs with
    | '"' :: r => (readString? r).map fun (s, rest) => ((s.map Value.text).getD .unreadable, rest)
    | '[' :: r =>
      match skipSpace r with
      | ']' :: rest => some (.list [], rest)
      | r => (readItems? depth r).map fun (items, rest) => (.list items, rest)
    | '\x7b' :: r =>
      match skipSpace r with
      | '\x7d' :: rest => some (.table [], rest)
      | r => (readFields? depth r).map fun (fields, rest) => (tableOf fields, rest)
    | 't' :: r => (afterWord? ['r', 'u', 'e'] r).map fun rest => (.bool true, rest)
    | 'f' :: r => (afterWord? ['a', 'l', 's', 'e'] r).map fun rest => (.bool false, rest)
    | 'n' :: r => (afterWord? ['u', 'l', 'l'] r).map fun rest => (.null, rest)
    | r => readNumber? r

/-- The items of a list up to its closing bracket. -/
def readItems? (depth : Nat) (cs : List Char) : Option (List Value × List Char) :=
  match depth with
  | 0 => none
  | depth + 1 => do
    let (v, rest) ← readValue? depth cs
    match skipSpace rest with
    | ']' :: rest => pure ([v], rest)
    | ',' :: rest =>
      let (vs, rest) ← readItems? depth rest
      pure (v :: vs, rest)
    | _ => none

/-- The fields of a table up to its closing brace, each with its name if that is readable. -/
def readFields? (depth : Nat) (cs : List Char) :
    Option (List (Option String × Value) × List Char) :=
  match depth with
  | 0 => none
  | depth + 1 =>
    match skipSpace cs with
    | '"' :: r => do
      let (name?, rest) ← readString? r
      match skipSpace rest with
      | ':' :: rest =>
        let (v, rest) ← readValue? depth rest
        match skipSpace rest with
        | '\x7d' :: rest => pure ([(name?, v)], rest)
        | ',' :: rest =>
          let (fs, rest) ← readFields? depth rest
          pure ((name?, v) :: fs, rest)
        | _ => none
      | _ => none
    | _ => none

end

/-- The value of a text, if the whole of it is one value with blanks around it. -/
def parse? (text : String) : Option Value :=
  let cs := text.toList
  match readValue? (2 * cs.length + 1) cs with
  | some (v, rest) => if (skipSpace rest).isEmpty then some v else none
  | none => none

end NodeFleet.Json
