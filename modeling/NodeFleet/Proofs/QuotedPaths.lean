import NodeFleet.Proofs.ShellWords
import NodeFleet.Remote.ShellQuote

/-!
# NodeFleet.Proofs.QuotedPaths — a quoted path is one word of a shell, and stands for itself

What a shell makes of a character depends on whether it was quoted: a quoted one stands for itself,
while a bare one may end the word, begin an operator or call for an expansion.  A path is quoted
throughout, but for a `~/` at its beginning, for which the shell puts the home directory.

* `Shell.Mark`: a character of a word, with the note whether it was quoted.
* `Shell.readWord?`: the word at the beginning of a text, and what comes after it.
* `Shell.value`: what a word stands for, given the home directory.
* `Shell.readWord?_singleQuoted`: what stands between single quotes is read back as it is.
* `Shell.Quotes`, `shellQuote_quotes`: a quoted path, read by a shell.
-/

namespace NodeFleet

namespace Shell

/-! ## Words -/

/-- A character with which an operator begins. -/
def isOperator (c : Char) : Bool :=
  c == '|' || c == '&' || c == ';' || c == '<' || c == '>' || c == '(' || c == ')'

/-- A character that ends a word where it stands bare. -/
def endsWord (c : Char) : Bool := isSeparator c || isOperator c

/-- A character of a word.  A quoted one stands for itself; what a bare one stands for (itself, a
home directory, a pattern, an expansion) is decided after the cutting. -/
structure Mark where
  char : Char
  quoted : Bool
  deriving DecidableEq, Repr

/-- The marks of a character, and of a text, all of which is quoted. -/
def quotedMarks (cs : List Char) : List Mark := cs.map fun c => ⟨c, true⟩

/-- The same where nothing is quoted. -/
def bareMarks (cs : List Char) : List Mark := cs.map fun c => ⟨c, false⟩

/-- What the character adds to the word in which it stands. -/
def Quoting.marks (c : Char) : Quoting → List Mark
  | bare => if isQuoting c then [] else [⟨c, false⟩]
  | escaped => if c = '\n' then [] else [⟨c, true⟩]
  | single => if c = '\'' then [] else [⟨c, true⟩]
  | double =>
    if c = '"' || c = '\\' then []
    else if c = '$' || c = '`' then [⟨c, false⟩]
    else [⟨c, true⟩]
  | doubleEscaped =>
    if c = '\n' then []
    else if c = '$' || c = '`' || c = '"' || c = '\\' then [⟨c, true⟩]
    else [⟨'\\', true⟩, ⟨c, true⟩]

/-- The rest of a word, and what of the text comes after it; nothing when the text ends between
quotes or after a backslash. -/
def readWord? (q : Quoting) : List Char → Option (List Mark × List Char)
  | [] => if q = .bare then some ([], []) else none
  | c :: cs =>
    if q = .bare ∧ endsWord c = true then some ([], c :: cs)
    else (readWord? (q.after c) cs).map fun word => (q.marks c ++ word.1, word.2)

/-- What a word stands for: a bare tilde with nothing or a slash after it is the home directory, and
no quotes are left. -/
def value (home : List Char) : List Mark → List Char
  | [⟨'~', false⟩] => home
  | ⟨'~', false⟩ :: ⟨'/', false⟩ :: marks => home ++ '/' :: marks.map Mark.char
  | marks => marks.map Mark.char

/-! ## What stands between single quotes -/

section Single

variable {cs after : List Char}

/-- Between single quotes each character but the quote stands for itself. -/
theorem readWord?_single {c : Char} (hc : c ≠ '\'') (cs : List Char) :
    readWord? .single (c :: cs) =
      (readWord? .single cs).map fun word => (⟨c, true⟩ :: word.1, word.2) := by
  simp [readWord?, Quoting.after, Quoting.marks, hc]

/-- A single quote that closes the quotes, stands after a backslash and opens them again is one
quoted character. -/
theorem readWord?_singleQuote (cs : List Char) :
    readWord? .single ('\'' :: '\\' :: '\'' :: '\'' :: cs) =
      (readWord? .single cs).map fun word => (⟨'\'', true⟩ :: word.1, word.2) := by
  simp [readWord?, Quoting.after, Quoting.marks, endsWord, isSeparator, isOperator, isQuoting,
    Function.comp_def]

/-- What is written between single quotes is read back as it is, all of it quoted; the word goes on
after the closing quote. -/
theorem readWord?_quotedChars (cs after : List Char) :
    readWord? .single (Text.replaceChars '\'' ['\'', '\\', '\'', '\''] cs ++ '\'' :: after) =
      (readWord? .bare after).map fun word => (quotedMarks cs ++ word.1, word.2) := by
  induction cs with
  | nil => simp [Text.replaceChars, readWord?, Quoting.after, Quoting.marks, quotedMarks]
  | cons c cs ih =>
    have hcons (ds : List Char) (c' : Char) : (readWord? .bare after).map
        (fun word => (quotedMarks (c' :: ds) ++ word.1, word.2)) =
        ((readWord? .bare after).map fun word => (quotedMarks ds ++ word.1, word.2)).map
          fun word => (⟨c', true⟩ :: word.1, word.2) := by
      rw [Option.map_map]
      rfl
    rw [hcons, ← ih]
    -- a quote leaves the quotes for three characters; any other stands for itself in them
    by_cases hc : c = '\''
    · subst hc
      exact readWord?_singleQuote _
    · have hsame : Text.replaceChars '\'' ['\'', '\\', '\'', '\''] (c :: cs) =
          c :: Text.replaceChars '\'' ['\'', '\\', '\'', '\''] cs := by
        simp [Text.replaceChars, hc]
      rw [hsame]
      exact readWord?_single hc _

/-- The same with the quotes around it. -/
theorem readWord?_singleQuoted (cs after : List Char) :
    readWord? .bare (singleQuotedChars cs ++ after) =
      (readWord? .bare after).map fun word => (quotedMarks cs ++ word.1, word.2) := by
  have hopen (ds : List Char) : readWord? .bare ('\'' :: ds) = readWord? .single ds := by
    simp [readWord?, Quoting.after, Quoting.marks, endsWord, isSeparator, isOperator, isQuoting]
  have hchars : singleQuotedChars cs ++ after =
      '\'' :: (Text.replaceChars '\'' ['\'', '\\', '\'', '\''] cs ++ '\'' :: after) := by
    simp [singleQuotedChars]
  rw [hchars, hopen, readWord?_quotedChars]

/-- Where nothing is quoted a `~/` is read as it is. -/
theorem readWord?_home (cs : List Char) : readWord? .bare ('~' :: '/' :: cs) =
    (readWord? .bare cs).map fun word => (bareMarks ['~', '/'] ++ word.1, word.2) := by
  simp [readWord?, Quoting.after, Quoting.marks, endsWord, isSeparator, isOperator, isQuoting,
    bareMarks, Function.comp_def]

end Single

/-! ## Quoted paths -/

/-- Nothing that goes on with a word stands here: the text has ended, or what stands first ends the
word. -/
def Breaks (after : List Char) : Prop := ∀ c, after.head? = some c → endsWord c = true

theorem readWord?_breaks {after : List Char} (h : Breaks after) :
    readWord? .bare after = some ([], after) := by
  cases after with
  | nil => rfl
  | cons c cs =>
    rw [readWord?, if_pos ⟨rfl, h c rfl⟩]

/-- The line is one word with these marks, from its first character to its last, whatever it is
that ends the word. -/
def IsWord (line : String) (marks : List Mark) : Prop :=
  line ≠ "" ∧ ∀ after, Breaks after → readWord? .bare (line.toList ++ after) = some (marks, after)

/-- How a path stands in its word: quoted throughout, but for a `~/` at its beginning. -/
def pathMarks (path : String) : List Mark :=
  match path.toList with
  | '~' :: '/' :: rest => bareMarks ['~', '/'] ++ quotedMarks rest
  | cs => quotedMarks cs

/-- The line is one word that stands for the path.  Nothing is active in it, unless the path begins
with `~/`: then the tilde is, and nothing after it. -/
structure Quotes (path line : String) (marks : List Mark) : Prop where
  word : IsWord line marks
  chars : marks.map Mark.char = path.toList
  literal : (∀ rest, path.toList ≠ '~' :: '/' :: rest) →
    (∀ mark ∈ marks, mark.quoted = true) ∧ ∀ home, value home marks = path.toList
  home : ∀ rest, path.toList = '~' :: '/' :: rest →
    marks = bareMarks ['~', '/'] ++ quotedMarks rest ∧
      ∀ home, value home marks = home ++ '/' :: rest

variable {path : String} {cs rest : List Char}

theorem chars_quotedMarks (cs : List Char) : (quotedMarks cs).map Mark.char = cs := by
  simp [quotedMarks, Function.comp_def]

/-- What is quoted stands for itself, a tilde included. -/
theorem value_quotedMarks (home cs : List Char) : value home (quotedMarks cs) = cs := by
  have hquoted (c : Char) (before after : List Mark) :
      quotedMarks cs ≠ before ++ ⟨c, false⟩ :: after := fun h => by
    have hmem : (⟨c, false⟩ : Mark) ∈ quotedMarks cs := by simp [h]
    simp [quotedMarks] at hmem
  unfold value
  split
  · exact absurd ‹_› (hquoted '~' [] [])
  · exact absurd ‹_› (hquoted '~' [] _)
  · exact chars_quotedMarks cs

theorem value_home (home rest : List Char) :
    value home (bareMarks ['~', '/'] ++ quotedMarks rest) = home ++ '/' :: rest := by
  show home ++ '/' :: (quotedMarks rest).map Mark.char = _
  rw [chars_quotedMarks]

/-- A path is quoted as a whole, or below the home directory. -/
theorem shellQuote_cases (path : String) :
    (∃ rest, path.toList = '~' :: '/' :: rest ∧
      (shellQuote path).toList = '~' :: '/' :: singleQuotedChars rest ∧
      pathMarks path = bareMarks ['~', '/'] ++ quotedMarks rest) ∨
    ((∀ rest, path.toList ≠ '~' :: '/' :: rest) ∧
      (shellQuote path).toList = singleQuotedChars path.toList ∧
      pathMarks path = quotedMarks path.toList) := by
  by_cases hhome : ∃ rest, path.toList = '~' :: '/' :: rest
  · obtain ⟨rest, hrest⟩ := hhome
    refine .inl ⟨rest, hrest, ?_, ?_⟩
    · simp only [shellQuote, hrest, String.toList_ofList]
    · simp only [pathMarks, hrest]
  · have hplain : ∀ rest, path.toList ≠ '~' :: '/' :: rest := fun rest h => hhome ⟨rest, h⟩
    refine .inr ⟨hplain, ?_, ?_⟩
    · unfold shellQuote
      split
      · exact absurd ‹_› (hplain _)
      · exact String.toList_ofList
    · unfold pathMarks
      split
      · exact absurd ‹_› (hplain _)
      · rfl

theorem isWord_shellQuote (path : String) : IsWord (shellQuote path) (pathMarks path) := by
  have hne {line : String} {c : Char} {cs : List Char} (h : line.toList = c :: cs) : line ≠ "" := by
    rintro rfl
    cases h
  obtain ⟨rest, -, hline, hmarks⟩ | ⟨-, hline, hmarks⟩ := shellQuote_cases path
  · refine ⟨hne hline, fun after hafter => ?_⟩
    rw [hline, hmarks, List.cons_append, List.cons_append, readWord?_home,
      readWord?_singleQuoted, readWord?_breaks hafter]
    simp
  · refine ⟨hne (c := '\'') hline, fun after hafter => ?_⟩
    rw [hline, hmarks, readWord?_singleQuoted, readWord?_breaks hafter]
    simp

theorem chars_pathMarks (path : String) : (pathMarks path).map Mark.char = path.toList := by
  obtain ⟨rest, hrest, -, hmarks⟩ | ⟨-, -, hmarks⟩ := shellQuote_cases path
  · rw [hmarks, hrest, List.map_append, chars_quotedMarks]
    rfl
  · rw [hmarks, chars_quotedMarks]

end Shell

/-- A shell reads a quoted path as one word, to its end, whatever comes after the word.  The word
stands for the path, with nothing active in it but the tilde of a leading `~/`.  So no two paths are
quoted alike. -/
theorem shellQuote_quotes :
    (∀ path, Shell.Quotes path (shellQuote path) (Shell.pathMarks path)) ∧
      Function.Injective shellQuote := by
  constructor
  · intro path
    refine ⟨Shell.isWord_shellQuote path, Shell.chars_pathMarks path, fun hplain => ?_,
      fun rest hrest => ?_⟩
    · obtain ⟨rest, hrest, -⟩ | ⟨-, -, hmarks⟩ := Shell.shellQuote_cases path
      · exact absurd hrest (hplain rest)
      · rw [hmarks]
        exact ⟨by simp [Shell.quotedMarks], fun home => Shell.value_quotedMarks home path.toList⟩
    · obtain ⟨rest', hrest', -, hmarks⟩ | ⟨hplain, -⟩ := Shell.shellQuote_cases path
      · obtain rfl : rest = rest' := by simpa [hrest] using hrest'
        exact ⟨hmarks, fun home => by rw [hmarks, Shell.value_home]⟩
      · exact absurd hrest (hplain rest)
  · intro path other heq
    -- one line is read as one word only
    have hword := (Shell.isWord_shellQuote path).2 [] nofun
    rw [heq, (Shell.isWord_shellQuote other).2 [] nofun, Option.some.injEq, Prod.mk.injEq] at hword
    rw [← String.toList_inj, ← Shell.chars_pathMarks path, ← Shell.chars_pathMarks other, hword.1]

/-- A single quote in a path. -/
example : Shell.readWord? .bare (shellQuote "~/it's; rm").toList =
    some (Shell.bareMarks ['~', '/'] ++ Shell.quotedMarks "it's; rm".toList, []) := by
  decide +kernel

end NodeFleet
