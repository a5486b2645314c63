import NodeFleet.Amount.Basic

/-!
# NodeFleet.Amount.Decimal — reading an amount from its decimal text

* `Amount.ofDecimal`: the number nearest to `digits · 10^exponent`.
* `Amount.read?`: a sign, if any, and then digits with an optional point and an optional exponent,
  or one of the words `inf`, `infinity` and `nan` in any letter case; nothing else may stand around
  it.
* `Amount.ofScientific?`: the value that a configuration document gives to a number with a point or
  an exponent.  It rounds the digits first and then scales by a power of ten that is itself rounded,
  and it refuses a result that is too large.
-/

namespace NodeFleet.Amount

/-- The value of a run of decimal digits. -/
def digitsValue (ds : List Char) : Nat := ds.foldl (fun n d => 10 * n + (d.toNat - '0'.toNat)) 0

/--
The number nearest to `digits · 10^exponent`.  Past the exponents that any double can have, the
answer is an infinity or zero without further work.
-/
def ofDecimal (negative : Bool) (digits : Nat) (exponent : Int) : Amount :=
  if digits = 0 then finite negative 0
  else
    let magnitude := exponent + (digits.log2 / 3 : Nat)
    if 400 < exponent then infinite negative
    else if magnitude < -400 then finite negative 0
    else if 0 ≤ exponent then ofRatio negative (digits * Nat.pow 10 exponent.toNat) 1
    else ofRatio negative digits (Nat.pow 10 (-exponent).toNat)

/-! ## The text of a number -/

/-- Whether a negative sign stands first, and what follows the sign, if any. -/
def readSign : List Char → Bool × List Char
  | '-' :: cs => (true, cs)
  | '+' :: cs => (false, cs)
  | cs => (false, cs)

/-- The value of decimal digits whose sign has been read. -/
def signedValue (negative : Bool) (ds : List Char) : Int :=
  if negative then -(digitsValue ds : Int) else digitsValue ds

/-- An exponent after its letter: whether it is negative, and what `digits?` reads behind the sign,
if any.  Each notation has its own rule for the digits. -/
def readExponent? {α : Type} (digits? : List Char → Option α) (cs : List Char) :
    Option (Bool × α) :=
  let (negative, rest) := readSign cs
  (digits? rest).map (negative, ·)

/-- The value of an exponent. -/
def exponentValue? (digits? : List Char → Option (List Char)) (cs : List Char) : Option Int :=
  (readExponent? digits? cs).map fun (negative, ds) => signedValue negative ds

/-- At least one digit and nothing else. -/
def onlyDigits? (cs : List Char) : Option (List Char) :=
  if cs.isEmpty || !cs.all Char.isDigit then none else some cs

/-- Digits with an optional point and an optional exponent; at least one digit stands before the
exponent. -/
def readDigits? (negative : Bool) (cs : List Char) : Option Amount :=
  let whole := cs.takeWhile Char.isDigit
  let rest := cs.dropWhile Char.isDigit
  let (fraction, rest) :=
    match rest with
    | '.' :: r => (r.takeWhile Char.isDigit, r.dropWhile Char.isDigit)
    | r => ([], r)
  if whole.isEmpty && fraction.isEmpty then none
  else
    let value (exponent : Int) :=
      ofDecimal negative (digitsValue (whole ++ fraction)) (exponent - fraction.length)
    match rest with
    | [] => some (value 0)
    | c :: r => if c = 'e' ∨ c = 'E' then (exponentValue? onlyDigits? r).map value else none

/-- A number without its sign: digits, or a word for an infinity or for no number. -/
def readUnsigned? (negative : Bool) (cs : List Char) : Option Amount :=
  let word := String.ofList (cs.map Char.toLower)
  if word = "inf" ∨ word = "infinity" then some (infinite negative)
  else if word = "nan" then some nan
  else readDigits? negative cs

/-- Reads the text of a number, the whole of it. -/
def read? (s : String) : Option Amount :=
  let (negative, cs) := readSign s.toList
  readUnsigned? negative cs

/-! ## The numbers of a document -/

/-- The count of units of the number nearest to `10^k`. -/
def powerOfTen (k : Nat) : Nat := roundUnits (Nat.pow 10 k * one) 1

/-- Divides by `10^308` until the exponent is at least `-308`; zero stays zero. -/
def scaleDown (units : Nat) (exponent : Int) : Nat → Nat × Int
  | 0 => (units, exponent)
  | fuel + 1 =>
    if exponent < -308 ∧ units ≠ 0 then
      scaleDown (divUnits units (powerOfTen 308)) (exponent + 308) fuel
    else (units, exponent)

/--
The value of `digits · 10^exponent` in a document: the digits are rounded to a double, which is then
multiplied or divided by the double nearest to the power of ten, in steps of 308 for small
exponents.  A value too large is refused.
-/
def ofScientific? (negative : Bool) (digits : Nat) (exponent : Int) : Option Amount :=
  let units := roundUnits (digits * one) 1
  if 0 ≤ exponent then
    if units = 0 then some (finite negative 0)
    else if 308 < exponent then none
    else
      let scaled := mulUnits units (powerOfTen exponent.toNat)
      if scaled < limit then some (finite negative scaled) else none
  else
    let (units, exponent) := scaleDown units exponent 4
    if units = 0 then some (finite negative 0)
    else some (finite negative (divUnits units (powerOfTen (-exponent).toNat)))

end NodeFleet.Amount
