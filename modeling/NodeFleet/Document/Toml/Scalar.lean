import NodeFleet.Amount.Decimal
import NodeFleet.Document.Value

/-!
# NodeFleet.Document.Toml.Scalar — numbers, truth values, dates and times of the TOML notation

A scalar without quotes is a run of letters, digits and the signs `+-_.:`.

* `readWhole?`: a decimal number without leading zeros, or one in base 16, 8 or 2 after `0x`, `0o`,
  `0b`; an underscore may stand between two digits, and between a sign and a digit.
* `readReal?`: a decimal number with a point or an exponent, an infinity, or no number; it has to be
  finite if it is written in digits.
* `isDateTime`: a day, a time of day, or both with or without an offset.  A time of day may end with
  its minutes.
-/

namespace NodeFleet.Toml

/-- The characters of a scalar without quotes. -/
def isScalarChar (c : Char) : Bool :=
  c.isAlphanum || c = '+' || c = '-' || c = '_' || c = '.' || c = ':'

/-- The digits of a run in which an underscore stands only between two digits. -/
def ungroup? (isDigit : Char → Bool) : List Char → Option (List Char)
  | [] => none
  | [d] => if isDigit d then some [d] else none
  | d :: '_' :: rest => if isDigit d then (ungroup? isDigit rest).map (d :: ·) else none
  | d :: rest => if isDigit d then (ungroup? isDigit rest).map (d :: ·) else none

/-- The value of a digit up to `f`. -/
def digitValue (c : Char) : Nat :=
  if c.isDigit then c.toNat - '0'.toNat else c.toLower.toNat - 'a'.toNat + 10

/-- The value of digits in a base. -/
def ofDigits (base : Nat) (ds : List Char) : Nat := ds.foldl (fun n d => base * n + digitValue d) 0

/-- The digits below a base up to 16. -/
def isDigitBelow (base : Nat) (c : Char) : Bool :=
  (c.isDigit || ('a' ≤ c.toLower && c.toLower ≤ 'f')) && digitValue c < base

/-- Decimal digits after a sign, if there is one.  A needless zero does not stand at their front,
except after an underscore that follows the sign. -/
def plainDigits? (signed : Bool) (cs : List Char) : Option (List Char) :=
  match signed, cs with
  | true, '_' :: cs => ungroup? Char.isDigit cs
  | _, cs => do
    let ds ← ungroup? Char.isDigit cs
    if ds.head? = some '0' ∧ ds.length ≠ 1 then none else some ds

/-- A whole number. -/
def readWhole? (cs : List Char) : Option Int :=
  let based (base : Nat) (ds : List Char) : Option Int :=
    (ungroup? (isDigitBelow base) ds).map fun ds => (ofDigits base ds : Nat)
  match cs with
  | '0' :: 'x' :: ds => based 16 ds
  | '0' :: 'o' :: ds => based 8 ds
  | '0' :: 'b' :: ds => based 2 ds
  | cs =>
    let (negative, digits) := Amount.readSign cs
    (plainDigits? (digits.length < cs.length) digits).map (Amount.signedValue negative)

/-- A number that need not be whole. -/
def readReal? (text : List Char) : Option Amount :=
  let (negative, cs) := Amount.readSign text
  if cs = ['i', 'n', 'f'] then some (.infinite negative)
  else if cs = ['n', 'a', 'n'] then some .nan
  else do
    let isExp (c : Char) : Bool := c = 'e' || c = 'E'
    let digits := cs.takeWhile fun c => !isExp c
    let exp := (cs.dropWhile fun c => !isExp c).drop 1
    let hasExp := digits.length < cs.length
    let whole := digits.takeWhile (· ≠ '.')
    let fraction := (digits.dropWhile (· ≠ '.')).drop 1
    let hasPoint := whole.length < digits.length
    if !hasExp && !hasPoint then none
    let ws ← plainDigits? (cs.length < text.length) whole
    let fs ← if hasPoint then ungroup? Char.isDigit fraction else some []
    let e ← if hasExp then Amount.exponentValue? (ungroup? Char.isDigit) exp else some 0
    let a := Amount.ofDecimal negative (ofDigits 10 (ws ++ fs)) (e - fs.length)
    if a.isFinite then some a else none

/-! ## Days and times -/

/-- The value of exactly `n` digits at the front, and the rest. -/
def digitsAt? (n : Nat) (cs : List Char) : Option (Nat × List Char) :=
  let ds := cs.take n
  if ds.length = n ∧ ds.all Char.isDigit then some (ofDigits 10 ds, cs.drop n) else none

/-- The rest after the given character. -/
def after? (c : Char) : List Char → Option (List Char)
  | [] => none
  | d :: cs => if d = c then some cs else none

/-- The days of a month. -/
def daysIn (year month : Nat) : Nat :=
  if month = 2 then (if year % 4 = 0 ∧ (year % 100 ≠ 0 ∨ year % 400 = 0) then 29 else 28)
  else if month = 4 ∨ month = 6 ∨ month = 9 ∨ month = 11 then 30
  else 31

/-- What follows a day at the front. -/
def afterDay? (cs : List Char) : Option (List Char) := do
  let (year, cs) ← digitsAt? 4 cs
  let (month, cs) ← digitsAt? 2 (← after? '-' cs)
  let (day, cs) ← digitsAt? 2 (← after? '-' cs)
  if 1 ≤ month ∧ month ≤ 12 ∧ 1 ≤ day ∧ day ≤ daysIn year month then some cs else none

/-- What follows the seconds of a time of day, if they are given, with or without a fraction. -/
def afterSeconds? : List Char → Option (List Char)
  | ':' :: cs => do
    let (second, cs) ← digitsAt? 2 cs
    if 60 < second then none
    match cs with
    | '.' :: r =>
      if (r.takeWhile Char.isDigit).isEmpty then none else some (r.dropWhile Char.isDigit)
    | r => some r
  | cs => some cs

/-- What follows a time of day at the front. -/
def afterTime? (cs : List Char) : Option (List Char) := do
  let (hour, cs) ← digitsAt? 2 cs
  let (minute, cs) ← digitsAt? 2 (← after? ':' cs)
  if 23 < hour ∨ 59 < minute then none else afterSeconds? cs

/-- Whether the text is an offset from the universal time. -/
def isOffset : List Char → Bool
  | ['Z'] | ['z'] => true
  | c :: cs =>
    (c = '+' || c = '-') &&
      (do let (hour, cs) ← digitsAt? 2 cs
          let (minute, cs) ← digitsAt? 2 (← after? ':' cs)
          pure (cs.isEmpty && hour ≤ 23 && minute ≤ 59)) == some true
  | [] => false

/-- Whether the text is a day. -/
def isDay (cs : List Char) : Bool := afterDay? cs == some []

/-- Whether the text is a day, a time of day, or a day and a time with a letter or a blank between
them. -/
def isDateTime (cs : List Char) : Bool :=
  match afterDay? cs with
  | some [] => true
  | some (sep :: cs) =>
    (sep = 'T' || sep = 't' || sep = ' ') &&
      match afterTime? cs with
      | some [] => true
      | some rest => isOffset rest
      | none => false
  | none => afterTime? cs == some []

/-- The whole numbers that a document may hold: those of 128 bits, with or without a sign. -/
def isBounded (n : Int) : Bool :=
  -170141183460469231731687303715884105728 ≤ n && n < 340282366920938463463374607431768211456

/-- The value of a scalar without quotes. -/
def readScalar? (cs : List Char) : Option Value :=
  if cs = ['t', 'r', 'u', 'e'] then some (.bool true)
  else if cs = ['f', 'a', 'l', 's', 'e'] then some (.bool false)
  else
    match readWhole? cs with
    | some n => if isBounded n then some (.whole n) else none
    | none =>
      match readReal? cs with
      | some a => some (.real a)
      | none => if isDateTime cs then some .date else none

end NodeFleet.Toml
