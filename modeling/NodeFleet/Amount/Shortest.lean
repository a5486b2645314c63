import NodeFleet.Amount.Basic

/-!
# NodeFleet.Amount.Shortest — the fewest digits that read back as the same amount

A number is printed with the fewest decimal digits that lie nearer to it than to any other number of
the format, the nearest of those (the larger of two equally near), and never with an exponent.

* `Amount.reading units`: the interval, in quarters of a unit, of the values that round to `units`,
  and whether its ends belong to it.
* `Amount.shortest units`: digits `d` and an exponent `e` with `d · 10^e` in that interval, for the
  coarsest decimal grid that has a point in it.
* `Amount.toText`: the digits written out, `NaN`, `inf` or `-inf`; `Amount.toFixed`: a fixed number
  of decimals.
-/

namespace NodeFleet.Amount

/-- The values that round to one number of the format, as an interval in quarters of a least
unit. -/
structure Reading where
  low : Nat
  high : Nat
  closed : Bool

/--
The interval of a count of units.  Below a power of two the neighbour is nearer; the ends belong to
the interval when the number's last binary digit is even, since a half goes to the even neighbour.
-/
def reading (units : Nat) : Reading :=
  let step := spacing units
  let below := if units = step * Nat.pow 2 52 ∧ 1 < step then step / 2 else step
  { low := 4 * units - 2 * below, high := 4 * units + 2 * step, closed := (units / step) % 2 == 0 }

/-- Whether the fraction `num / den` of a unit lies in the interval. -/
def Reading.holds (r : Reading) (num den : Nat) : Bool :=
  let v := 4 * num
  if r.closed then r.low * den ≤ v && v ≤ r.high * den else r.low * den < v && v < r.high * den

/-- `d · 10^e` as a fraction of least units. -/
def gridPoint (d : Nat) (e : Int) : Nat × Nat :=
  if 0 ≤ e then (d * Nat.pow 10 e.toNat * one, 1) else (d * one, Nat.pow 10 (-e).toNat)

/-- The multiples of `10^e` next to `units`: the one below or at it, as a number of steps. -/
def gridBelow (units : Nat) (e : Int) : Nat :=
  if 0 ≤ e then units / (Nat.pow 10 e.toNat * one) else units * Nat.pow 10 (-e).toNat / one

/-- The point of the grid `10^e` that reads back as `units` and is nearest to it, if there is
one. -/
def onGrid? (units : Nat) (e : Int) : Option Nat :=
  let r := reading units
  let down := gridBelow units e
  let fits (d : Nat) : Bool := let (n, m) := gridPoint d e; r.holds n m
  match fits down, fits (down + 1) with
  | false, false => none
  | true, false => some down
  | false, true => some (down + 1)
  | true, true =>
    let (n, m) := gridPoint down e
    let (n', m') := gridPoint (down + 1) e
    -- the distances to the two neighbours, over the common denominator of the grid
    if units * m - n < n' - units * m' then some down else some (down + 1)

/-- The largest exponent, from `e` downwards, whose grid has a point that reads back as `units`. -/
def coarsest (units : Nat) (e : Int) : Nat → Nat × Int
  | 0 => (gridBelow units e, e)
  | fuel + 1 =>
    match onGrid? units e with
    | some d => if d = 0 then coarsest units (e - 1) fuel else (d, e)
    | none => coarsest units (e - 1) fuel

/-- The number of decimal digits of a whole number. -/
def digitCount (n : Nat) : Nat := (Nat.toDigits 10 n).length

/-- An exponent whose power of ten is larger than `units` least units, and not much larger. -/
def exponentAbove (units : Nat) : Int :=
  if one ≤ units then digitCount (units / one)
  else -((digitCount (one / units) : Int) - 2)

/-- The fewest digits, and their exponent, that read back as a positive count of units. -/
def shortest (units : Nat) : Nat × Int := coarsest units (exponentAbove units) 25

/-- `d · 10^e` written out in full: no exponent, no needless point. -/
def positional (d : Nat) (e : Int) : List Char :=
  let ds := Nat.toDigits 10 d
  if 0 ≤ e then ds ++ List.replicate e.toNat '0'
  else
    let places := (-e).toNat
    let padded := List.replicate (places + 1 - ds.length) '0' ++ ds
    let whole := padded.take (padded.length - places)
    let fraction := (padded.drop (padded.length - places)).reverse.dropWhile (· == '0') |>.reverse
    if fraction.isEmpty then whole else whole ++ '.' :: fraction

/-- The text of an amount, in the fewest digits that read back as it. -/
def toText : Amount → String
  | nan => "NaN"
  | infinite negative => if negative then "-inf" else "inf"
  | finite negative units =>
    let text := if units = 0 then ['0'] else let (d, e) := shortest units; positional d e
    .ofList (if negative then '-' :: text else text)

/-- The text of an amount with `places` decimals; a half goes to the even neighbour. -/
def toFixed (places : Nat) : Amount → String
  | nan => "NaN"
  | infinite negative => if negative then "-inf" else "inf"
  | finite negative units =>
    let ds := Nat.toDigits 10 (nearest (units * Nat.pow 10 places) one)
    let padded := List.replicate (places + 1 - ds.length) '0' ++ ds
    let whole := padded.take (padded.length - places)
    let text := if places = 0 then whole else whole ++ '.' :: padded.drop (padded.length - places)
    .ofList (if negative then '-' :: text else text)

end NodeFleet.Amount
