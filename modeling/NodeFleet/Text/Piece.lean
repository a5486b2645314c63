/-!
# NodeFleet.Text.Piece — pieces of a text between two places that are counted in bytes

A character takes as many bytes as its UTF-8 form has, so not every place lies between two
characters, and a piece that would begin or end inside one is none.

* `takeBytes?`, `dropBytes?`: the first bytes of a text, and what follows them.
* `piece?`: the bytes between two places.
-/

namespace NodeFleet.Text

/-- The first `n` bytes of a text, unless they end inside a character. -/
def takeBytes? : Nat → List Char → Option (List Char)
  | 0, _ => some []
  | _ + 1, [] => none
  | n + 1, c :: cs =>
    if c.utf8Size ≤ n + 1 then (takeBytes? (n + 1 - c.utf8Size) cs).map (c :: ·) else none

/-- What follows the first `n` bytes of a text, unless they end inside a character. -/
def dropBytes? : Nat → List Char → Option (List Char)
  | 0, cs => some cs
  | _ + 1, [] => none
  | n + 1, c :: cs => if c.utf8Size ≤ n + 1 then dropBytes? (n + 1 - c.utf8Size) cs else none

/-- The piece of a text between two places. -/
def piece? (first last : Nat) (cs : List Char) : Option (List Char) :=
  (dropBytes? first cs).bind (takeBytes? (last - first))

end NodeFleet.Text
