/-!
# NodeFleet.Duration — lengths of time in milliseconds

Waits, bounds and timeouts are lengths of time; a message writes one in the largest of seconds,
milliseconds and nanoseconds in which it is not below one.
-/

namespace NodeFleet

/-- A length of time. -/
structure Duration where
  millis : Nat
  deriving DecidableEq, Repr, Inhabited

namespace Duration

/-- No time at all. -/
def zero : Duration := ⟨0⟩

/-- So many whole seconds. -/
def ofSeconds (n : Nat) : Duration := ⟨1000 * n⟩

/-- The whole seconds in a length of time. -/
def seconds (d : Duration) : Nat := d.millis / 1000

/-- The thousandths of a second as a decimal fraction, without zeros at its end. -/
def fractionText (millis : Nat) : String :=
  if millis = 0 then ""
  else
    let ds := Nat.toDigits 10 (1000 + millis)
    .ofList ('.' :: ((ds.drop 1).reverse.dropWhile (· == '0')).reverse)

/-- Seconds with a fraction (`1.5s`), else milliseconds (`60ms`), else `0ns`. -/
def toText (d : Duration) : String :=
  if 1000 ≤ d.millis then toString d.seconds ++ fractionText (d.millis % 1000) ++ "s"
  else if 0 < d.millis then toString d.millis ++ "ms"
  else "0ns"

end Duration

end NodeFleet
