/-!
# NodeFleet.Text.Blank — white space, trimming, words and lines

Every reading of a daemon's answer starts by cutting text at white space or at line feeds.

* `isBlank c`: `c` has the Unicode property White_Space.
* `trim s`: `s` without the blanks at its two ends; `words s`: the maximal runs of characters that
  are not blank.
* `lines s`: the pieces of `s` between line feeds, a last empty piece dropped, so that a closing
  line feed ends a line and does not begin one.
-/

namespace NodeFleet.Text

/-- White_Space: U+0009–000D, U+0020, U+0085, U+00A0, U+1680, U+2000–200A, U+2028, U+2029, U+202F,
U+205F, U+3000. -/
def isBlank (c : Char) : Bool :=
  let n := c.toNat
  (9 ≤ n && n ≤ 13) || n == 0x20 || n == 0x85 || n == 0xA0 || n == 0x1680 ||
    (0x2000 ≤ n && n ≤ 0x200A) || n == 0x2028 || n == 0x2029 || n == 0x202F || n == 0x205F ||
    n == 0x3000

/-! ## On lists of characters -/

/-- Drops the leading characters that satisfy `p`, and the trailing ones. -/
def stripChars (p : Char → Bool) (cs : List Char) : List Char :=
  ((cs.dropWhile p).reverse.dropWhile p).reverse

/-- Drops the trailing characters that satisfy `p`. -/
def stripEndChars (p : Char → Bool) (cs : List Char) : List Char :=
  (cs.reverse.dropWhile p).reverse

/-- The pieces between the separators `sep`, empty ones included: one more than there are
separators. -/
def splitChars (sep : Char) : List Char → List (List Char)
  | [] => [[]]
  | c :: cs =>
    match splitChars sep cs with
    | [] => [[c]]
    | piece :: pieces => if c = sep then [] :: piece :: pieces else (c :: piece) :: pieces

/-- The lines of a text: its pieces between line feeds, without a last piece that is empty. -/
def linesOfChars (cs : List Char) : List (List Char) :=
  let pieces := splitChars '\n' cs
  if pieces.getLast? = some [] then pieces.dropLast else pieces

/-- The maximal runs of characters that are not blank. -/
def wordsOfChars : List Char → List (List Char)
  | [] => []
  | c :: cs =>
    if isBlank c then wordsOfChars cs
    else
      match cs with
      | [] => [[c]]
      | d :: _ =>
        if isBlank d then [c] :: wordsOfChars cs
        else
          match wordsOfChars cs with
          | [] => [[c]]
          | word :: words => (c :: word) :: words

/-! ## On strings -/

/-- The text without the blanks at its two ends. -/
def trim (s : String) : String := .ofList (stripChars isBlank s.toList)

/-- The text without its trailing characters `c`. -/
def trimEnd (c : Char) (s : String) : String := .ofList (stripEndChars (· == c) s.toList)

/-- The text without the characters `c` at its two ends. -/
def trimBoth (c : Char) (s : String) : String := .ofList (stripChars (· == c) s.toList)

/-- Whether the text holds nothing but blanks. -/
def isBlankText (s : String) : Bool := s.toList.all isBlank

/-- The words of the text, in order. -/
def words (s : String) : List String := (wordsOfChars s.toList).map .ofList

/-- The lines of the text, in order. -/
def lines (s : String) : List String := (linesOfChars s.toList).map .ofList

/-- The pieces of the text between the separators `sep`. -/
def split (sep : Char) (s : String) : List String := (splitChars sep s.toList).map .ofList

/-- The texts one after the other, `sep` between each two. -/
def join (sep : String) (parts : List String) : String :=
  .ofList (List.intercalate sep.toList (parts.map String.toList))

/-! ## Small laws -/

theorem splitChars_ne_nil (sep : Char) (cs : List Char) : splitChars sep cs ≠ [] := by
  cases cs with
  | nil => simp [splitChars]
  | cons c cs =>
    cases h : splitChars sep cs with
    | nil => simp [splitChars, h]
    | cons p ps => by_cases hc : c = sep <;> simp [splitChars, h, hc]

/-- No piece holds the separator. -/
theorem not_mem_of_mem_splitChars {sep : Char} {cs piece : List Char}
    (h : piece ∈ splitChars sep cs) :
    sep ∉ piece := by
  induction cs generalizing piece with
  | nil => simp_all [splitChars]
  | cons c cs ih =>
    cases hs : splitChars sep cs with
    | nil => exact absurd hs (splitChars_ne_nil sep cs)
    | cons p ps =>
      rw [hs] at ih
      by_cases hc : c = sep
      · simp only [splitChars, hs, hc, if_true, List.mem_cons] at h
        rcases h with rfl | rfl | h
        · simp
        · exact ih (by simp)
        · exact ih (by simp [h])
      · simp only [splitChars, hs, hc, if_false, List.mem_cons] at h
        rcases h with rfl | h
        · simp only [List.mem_cons, not_or]
          exact ⟨fun e => hc e.symm, ih (by simp)⟩
        · exact ih (by simp [h])

end NodeFleet.Text
