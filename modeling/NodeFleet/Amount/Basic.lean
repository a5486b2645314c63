/-!
# NodeFleet.Amount.Basic — sums of coins as binary floating-point numbers of 64 bits

A daemon prints its sums in decimals, and the fleet compares and prints them as numbers of 64 bits.
Every finite such number is a whole count of the least positive one, `2^-1074`; an `Amount` keeps
that count, so that order and rounding are statements about natural numbers.

* `Amount`: not a number, an infinity, or a sign and a count of least units.
* `Amount.ofRatio`: the number nearest to a fraction, halves to the even neighbour, an infinity past
  the largest one.
* `Amount.atLeast`: the order that a comparison of such numbers follows; what is not a number is in
  no relation.
-/

namespace NodeFleet

/-- A binary floating-point number of 64 bits; `units` counts multiples of `2^-1074`. -/
inductive Amount where
  | nan
  | infinite (negative : Bool)
  | finite (negative : Bool) (units : Nat)
  deriving DecidableEq, Repr, Inhabited

namespace Amount

/-- The count of least units in one. -/
def one : Nat := Nat.pow 2 1074

/-- The first count of units that is too large for a finite number: that of `2^1024`. -/
def limit : Nat := Nat.pow 2 2098

/-- The distance to the next larger number of the format at a magnitude of `units`: 53 binary digits
are kept. -/
def spacing (units : Nat) : Nat := Nat.pow 2 (units.log2 - 52)

/-- The whole number nearest to `num / den`; a half goes to the even neighbour. -/
def nearest (num den : Nat) : Nat :=
  let quotient := num / den
  let rest := 2 * (num % den)
  if rest < den then quotient
  else if den < rest then quotient + 1
  else quotient + quotient % 2

/-- The count of units of the format's number nearest to `num / den` units. -/
def roundUnits (num den : Nat) : Nat :=
  let step := spacing (num / den)
  nearest num (den * step) * step

/-- The number of the given sign whose magnitude is `units` least units, an infinity when there are
too many. -/
def ofUnits (negative : Bool) (units : Nat) : Amount :=
  if units < limit then finite negative units else infinite negative

/-- The number nearest to `num / den`, with the given sign. -/
def ofRatio (negative : Bool) (num den : Nat) : Amount :=
  ofUnits negative (roundUnits (num * one) den)

/-- The number nearest to a whole number. -/
def ofNat (n : Nat) : Amount := ofRatio false n 1

/-- The number nearest to an integer. -/
def ofInt (n : Int) : Amount := ofRatio (n < 0) n.natAbs 1

/-- The product of two counts of units as a count of units of the format. -/
def mulUnits (a b : Nat) : Nat := roundUnits (a * b) one

/-- The quotient of two counts of units as a count of units of the format. -/
def divUnits (a b : Nat) : Nat := roundUnits (a * one) b

/-- The value of a finite number as a signed count of units. -/
def signedUnits (negative : Bool) (units : Nat) : Int := if negative then -(units : Int) else units

/-- Whether the first number is at least the second. -/
def atLeast : Amount → Amount → Bool
  | nan, _ => false
  | _, nan => false
  | infinite false, _ => true
  | _, infinite true => true
  | infinite true, _ => false
  | _, infinite false => false
  | finite n₁ u₁, finite n₂ u₂ => decide (signedUnits n₂ u₂ ≤ signedUnits n₁ u₁)

/-- Whether the number is neither infinite nor no number at all. -/
def isFinite : Amount → Bool
  | finite _ _ => true
  | _ => false

/-- Whether the number is finite and greater than zero, as every sum to be sent has to be. -/
def isPositive : Amount → Bool
  | finite false units => decide (0 < units)
  | _ => false

/-! ## Small laws -/

theorem isPositive_iff {a : Amount} :
    a.isPositive = true ↔ ∃ units, a = finite false units ∧ 0 < units := by
  cases a with
  | nan => simp [isPositive]
  | infinite n => simp [isPositive]
  | finite n u => cases n <;> simp [isPositive]

theorem atLeast_nan_left (a : Amount) : nan.atLeast a = false := rfl

end Amount

end NodeFleet
