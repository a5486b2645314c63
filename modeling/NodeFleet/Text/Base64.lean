/-!
# NodeFleet.Text.Base64 — bytes written in 64 letters

The standard alphabet, in groups of four letters with padding.  A text is read only in its canonical
form: padding is there where it is needed and nowhere else, and the bits that padding leaves over
are zero.
-/

namespace NodeFleet.Base64

/-- The six bits of a letter. -/
def sextet? (c : Char) : Option Nat :=
  let n := c.toNat
  if 65 ≤ n ∧ n ≤ 90 then some (n - 65)
  else if 97 ≤ n ∧ n ≤ 122 then some (n - 71)
  else if 48 ≤ n ∧ n ≤ 57 then some (n + 4)
  else if c = '+' then some 62
  else if c = '/' then some 63
  else none

/-- The byte with the given number. -/
def byte (n : Nat) : UInt8 := UInt8.ofNat (n % 256)

/-- The bytes of a group of four letters, the last one or two of which may be padding when the group
is the last. -/
def group? (a b c d : Char) (isLast : Bool) : Option (List UInt8) := do
  let w ← sextet? a
  let x ← sextet? b
  if isLast ∧ c = '=' ∧ d = '=' then
    if x % 16 = 0 then pure [byte (w * 4 + x / 16)] else none
  else
    let y ← sextet? c
    if isLast ∧ d = '=' then
      if y % 4 = 0 then pure [byte (w * 4 + x / 16), byte (x % 16 * 16 + y / 4)] else none
    else
      let z ← sextet? d
      pure [byte (w * 4 + x / 16), byte (x % 16 * 16 + y / 4), byte (y % 4 * 64 + z)]

/-- The bytes of a list of letters. -/
def decodeChars? : List Char → Option (List UInt8)
  | [] => some []
  | a :: b :: c :: d :: rest => do
    let bytes ← group? a b c d rest.isEmpty
    let more ← decodeChars? rest
    pure (bytes ++ more)
  | _ => none

/-- The bytes that a text stands for. -/
def decode? (s : String) : Option ByteArray :=
  (decodeChars? s.toList).map fun bytes => ⟨bytes.toArray⟩

end NodeFleet.Base64
