/-!
# NodeFleet.Text.Lossy — bytes as text, where they need not be UTF-8

A run of bytes that begins a character and breaks off, and a byte that begins none, read as the
replacement character U+FFFD; whatever follows is read anew.
-/

namespace NodeFleet.Text

/-- A character of which some bytes have been read: its number so far, how many bytes are still to
come, and the range in which the next one has to be. -/
structure Unfinished where
  number : Nat
  missing : Nat
  least : Nat
  most : Nat
  deriving DecidableEq, Repr

/-- What stands for bytes that are no character. -/
def replacement : Char := '\uFFFD'

/-- What the first byte of a character says: the characters that are complete with it, and the one
that is not. -/
def firstByte (b : Nat) : List Char × Option Unfinished :=
  if b < 0x80 then ([Char.ofNat b], none)
  else if 0xC2 ≤ b ∧ b ≤ 0xDF then ([], some ⟨b - 0xC0, 1, 0x80, 0xBF⟩)
  else if 0xE0 ≤ b ∧ b ≤ 0xEF then
    ([], some ⟨b - 0xE0, 2, if b = 0xE0 then 0xA0 else 0x80, if b = 0xED then 0x9F else 0xBF⟩)
  else if 0xF0 ≤ b ∧ b ≤ 0xF4 then
    ([], some ⟨b - 0xF0, 3, if b = 0xF0 then 0x90 else 0x80, if b = 0xF4 then 0x8F else 0xBF⟩)
  else ([replacement], none)

/-- What one more byte says. -/
def nextByte (state : Option Unfinished) (b : Nat) : List Char × Option Unfinished :=
  match state with
  | none => firstByte b
  | some u =>
    if u.least ≤ b ∧ b ≤ u.most then
      let number := u.number * 64 + (b - 0x80)
      if u.missing ≤ 1 then ([Char.ofNat number], none)
      else ([], some ⟨number, u.missing - 1, 0x80, 0xBF⟩)
    else
      let (cs, state) := firstByte b
      (replacement :: cs, state)

/-- The characters of a list of bytes, after those of `state`. -/
def lossyChars (state : Option Unfinished) : List UInt8 → List Char
  | [] => if state.isSome then [replacement] else []
  | b :: bs =>
    let (cs, state) := nextByte state b.toNat
    cs ++ lossyChars state bs

/-- The text of bytes that need not be UTF-8. -/
def ofBytesLossy (bytes : ByteArray) : String := .ofList (lossyChars none bytes.data.toList)

end NodeFleet.Text
