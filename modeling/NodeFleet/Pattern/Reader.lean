import NodeFleet.Document.Json
import NodeFleet.Document.Toml.Text
import NodeFleet.Pattern.Basic
import NodeFleet.Text.Blank
import NodeFleet.Text.Letter

/-!
# NodeFleet.Pattern.Reader — reading patterns

The notation is that of regular expressions with groups, classes between brackets, flags and
repetitions.  Looking around and referring back to a group are no part of it.

* `readEscape?`: what a backslash begins.  `readClass?`: a class between brackets.
* `readBody?`: the pattern of a group.
* `Pattern.parse?`: the pattern of a whole text.  `Pattern.isValid`: whether it is one that can be
  used.
-/

namespace NodeFleet.Pattern

/-! ## Blanks and numbers -/

/-- What follows the blanks and comments; `inNote` tells whether a comment has begun. -/
def skipNotes (inNote : Bool) : List Char → List Char
  | [] => []
  | c :: cs =>
    if inNote then skipNotes (c ≠ '\n') cs
    else if Text.isBlank c then skipNotes false cs
    else if c = '#' then skipNotes true cs
    else c :: cs

/-- The rest of a pattern, without blanks and comments at its front if they do not count. -/
def next (spaced : Bool) (cs : List Char) : List Char := if spaced then skipNotes false cs else cs

/-- The character that comes next after blanks and the sign of a comment, if they do not count. -/
def peek? (spaced : Bool) (cs : List Char) : Option Char :=
  if spaced then
    match cs.dropWhile Text.isBlank with
    | '#' :: cs => (cs.dropWhile Text.isBlank).head?
    | cs => cs.head?
  else cs.head?

/-- The digits at the front, and what follows them; `fuel` is at least the number of characters. -/
def readDigits (spaced : Bool) : Nat → List Char → List Char × List Char
  | 0, cs => ([], cs)
  | fuel + 1, cs =>
    match cs with
    | [] => ([], [])
    | c :: rest =>
      if c.isDigit then
        let (ds, rest) := readDigits spaced fuel (next spaced rest)
        (c :: ds, rest)
      else ([], c :: rest)

/-- The number at the front, with blanks around it, and what follows; no digits are no number. -/
def readCount (spaced : Bool) (cs : List Char) : Option Nat × List Char :=
  let cs := cs.dropWhile Text.isBlank
  let (ds, rest) := readDigits spaced cs.length cs
  (if ds.isEmpty then none else some (Amount.digitsValue ds), rest.dropWhile Text.isBlank)

/-- The counts of repetitions are below this bound. -/
def countLimit : Nat := 4294967296

/-- What follows the counts of a repetition from its opening brace on: one number, one and a comma,
or two in order. -/
def afterCounts? (spaced : Bool) (cs : List Char) : Option (List Char) := do
  let (least?, rest) := readCount spaced (next spaced cs)
  let least ← least?
  if countLimit ≤ least then none
  match rest with
  | '\x7d' :: rest => some rest
  | ',' :: rest =>
    match next spaced rest with
    | '\x7d' :: rest => some rest
    | rest =>
      let (most?, rest) := readCount spaced rest
      let most ← most?
      match rest with
      | '\x7d' :: rest => if least ≤ most ∧ most < countLimit then some rest else none
      | _ => none
  | _ => none

/-- What follows a question mark, if there is one. -/
def skipLazy : List Char → List Char
  | '?' :: cs => cs
  | cs => cs

/-! ## Escapes -/

/-- What a backslash can begin. -/
inductive Atom where
  | char (c : PatternChar)
  | edge
  | wordEdge
  | shorthand (negated : Bool)

/-- A character by itself. -/
def Atom.plain (c : Char) : Atom := .char ⟨c, false⟩

/-- Exactly `n` digits in base sixteen, after those with the given value. -/
def readHexDigits? (spaced : Bool) (value : Nat) : Nat → List Char → Option (Nat × List Char)
  | 0, cs => some (value, cs)
  | n + 1, cs =>
    match next spaced cs with
    | c :: rest => do readHexDigits? spaced (16 * value + (← Text.hexDigit? c)) n rest
    | [] => none

/-- Digits in base sixteen up to a closing brace, after those with the given value; `fuel` is at
least the number of characters. -/
def readHexBrace? (spaced : Bool) (value : Nat) : Nat → List Char → Option (Nat × List Char)
  | 0, _ => none
  | fuel + 1, cs =>
    match next spaced cs with
    | '\x7d' :: rest => some (value, rest)
    | c :: rest => do readHexBrace? spaced (16 * value + (← Text.hexDigit? c)) fuel rest
    | [] => none

/-- A character given by number, in `n` digits or in braces. -/
def readCode? (spaced : Bool) (n : Nat) (cs : List Char) : Option (Atom × List Char) :=
  match next spaced cs with
  | '\x7b' :: rest =>
    if (next spaced rest).head? = some '\x7d' then none
    else do
      let (value, rest) ← readHexBrace? spaced 0 (rest.length + 1) rest
      pure (.plain (← Toml.charOf? value), rest)
  | cs => do
    let (value, rest) ← readHexDigits? spaced 0 n cs
    pure (.char ⟨← Toml.charOf? value, n == 2⟩, rest)

/-- The characters of the name of a word edge. -/
def isEdgeChar (c : Char) : Bool := c.isAlpha || c = '-'

/-- The names of the edges of words. -/
def edgeNames : List String := ["start", "end", "start-half", "end-half"]

/-- The letters of a name, and what follows them; `fuel` is at least the number of characters. -/
def readEdgeName (spaced : Bool) : Nat → List Char → List Char × List Char
  | 0, cs => ([], cs)
  | fuel + 1, cs =>
    match cs with
    | [] => ([], [])
    | c :: rest =>
      if isEdgeChar c then
        let (name, rest) := readEdgeName spaced fuel (next spaced rest)
        (c :: name, rest)
      else ([], c :: rest)

/-- What follows the edge of a word: a name in braces belongs to it, a count in braces does not. -/
def afterWordEdge? (spaced : Bool) (cs : List Char) : Option (List Char) :=
  match cs with
  | '\x7b' :: inner =>
    match next spaced inner with
    | [] => none
    | c :: rest =>
      if isEdgeChar c then
        let (name, rest) := readEdgeName spaced inner.length (c :: rest)
        match rest with
        | '\x7d' :: rest => if edgeNames.contains (.ofList name) then some rest else none
        | _ => none
      else some cs
  | cs => some cs

/-- The character that a one-letter escape stands for. -/
def letterEscape? : Char → Option Char
  | 'a' => some '\x07'
  | 'f' => some '\x0c'
  | 'n' => some '\n'
  | 'r' => some '\r'
  | 't' => some '\t'
  | 'v' => some '\x0b'
  | _ => none

/-- What stands after a backslash, and what follows it.  Signs of ASCII stand for themselves. -/
def readEscape? (spaced : Bool) : List Char → Option (Atom × List Char)
  | [] => none
  | c :: rest =>
    match c with
    | 'x' => readCode? spaced 2 rest
    | 'u' => readCode? spaced 4 rest
    | 'U' => readCode? spaced 8 rest
    | 'd' | 's' | 'w' => some (.shorthand false, rest)
    | 'D' | 'S' | 'W' => some (.shorthand true, rest)
    | 'A' | 'z' => some (.edge, rest)
    | 'b' => (afterWordEdge? spaced rest).map fun rest => (.wordEdge, rest)
    | 'B' | '<' | '>' => some (.wordEdge, rest)
    | c =>
      match letterEscape? c with
      | some e => some (.plain e, rest)
      | none => if c.toNat < 128 && !c.isAlphanum then some (.plain c, rest) else none

/-! ## Classes -/

/-- The names of classes. -/
def classNames : List String :=
  ["alnum", "alpha", "ascii", "blank", "cntrl", "digit", "graph", "lower", "print", "punct",
    "space", "upper", "word", "xdigit"]

/-- A class with a name between colons, after its opening bracket: whether it is negated, and what
follows it. -/
def readNamed? : List Char → Option (Bool × List Char)
  | ':' :: cs =>
    let (negated, cs) :=
      match cs with
      | '^' :: cs => (true, cs)
      | cs => (false, cs)
    let name := cs.takeWhile (· ≠ ':')
    match cs.drop name.length with
    | ':' :: ']' :: rest =>
      if classNames.contains (.ofList name) then some (negated, rest) else none
    | _ => none
  | _ => none

/-- A single member of a class. -/
def readMember? (spaced : Bool) : List Char → Option (Atom × List Char)
  | [] => none
  | '\\' :: rest => readEscape? spaced rest
  | c :: rest => some (.plain c, rest)

/-- What a single member says by itself. -/
def Atom.toClass? : Atom → Option CharClass
  | char c => some (.char c)
  | shorthand negated => some (.shorthand negated)
  | edge | wordEdge => none

/-- A member of a class or a range of them.  A dash before the closing bracket or another dash makes
no range. -/
def readRange? (spaced : Bool) (cs : List Char) : Option (CharClass × List Char) := do
  let (first, rest) ← readMember? spaced cs
  match next spaced rest with
  | [] => none
  | '-' :: later =>
    if peek? spaced later = some ']' ∨ peek? spaced later = some '-' then
      pure (← first.toClass?, '-' :: later)
    else
      let (last, rest) ← readMember? spaced (next spaced later)
      match first, last with
      | .char a, .char b => if a.char ≤ b.char then some (.range a b, rest) else none
      | _, _ => none
  | rest => pure (← first.toClass?, rest)

/-- The members at the front of a class, the last of them first: dashes, or a closing bracket. -/
def leadingMembers (spaced : Bool) : Nat → List CharClass → List Char → List CharClass × List Char
  | 0, members, cs => (members, cs)
  | fuel + 1, members, cs =>
    match next spaced cs with
    | '-' :: rest => leadingMembers spaced fuel (.char ⟨'-', false⟩ :: members) rest
    | ']' :: rest =>
      if members.isEmpty then ([.char ⟨']', false⟩], rest) else (members, ']' :: rest)
    | cs => (members, cs)

/-- The class so far: what stands before the last operator, and the members after it, the last of
them first. -/
def joined (before? : Option CharClass) (members : List CharClass) : CharClass :=
  let later := CharClass.ofParts members.reverse
  match before? with
  | some before => .pair before later
  | none => later

mutual

/-- A class after its opening bracket: whether it is negated, the class, and what follows. -/
def readClass? (spaced : Bool) (fuel : Nat) (cs : List Char) :
    Option (Bool × CharClass × List Char) :=
  match fuel with
  | 0 => none
  | fuel + 1 =>
    let (negated, cs) :=
      match next spaced cs with
      | '^' :: cs => (true, cs)
      | cs => (false, cs)
    let (members, cs) := leadingMembers spaced cs.length [] cs
    (readMembers? spaced fuel none members cs).map fun (inner, rest) => (negated, inner, rest)

/-- The members of a class up to its closing bracket, after those that have been read. -/
def readMembers? (spaced : Bool) (fuel : Nat) (before? : Option CharClass)
    (members : List CharClass) (cs : List Char) : Option (CharClass × List Char) :=
  match fuel with
  | 0 => none
  | fuel + 1 =>
    match next spaced cs with
    | [] => none
    | ']' :: rest => some (joined before? members, rest)
    | '[' :: rest =>
      match readNamed? rest with
      | some (negated, rest) => readMembers? spaced fuel before? (.named negated :: members) rest
      | none => do
        let (negated, inner, rest) ← readClass? spaced fuel rest
        readMembers? spaced fuel before? (.nested negated inner :: members) rest
    | '&' :: '&' :: rest => readMembers? spaced fuel (some (joined before? members)) [] rest
    | '-' :: '-' :: rest => readMembers? spaced fuel (some (joined before? members)) [] rest
    | '~' :: '~' :: rest => readMembers? spaced fuel (some (joined before? members)) [] rest
    | cs => do
      let (member, rest) ← readRange? spaced cs
      readMembers? spaced fuel before? (member :: members) rest

end

/-! ## Groups -/

/-- The letters of flags and the minus sign. -/
def isFlagChar (c : Char) : Bool := ['i', 's', 'm', 'u', 'U', 'R', 'x', '-'].contains c

/-- The flags of a group, each once, up to a colon or a closing parenthesis, which stays. -/
def readFlags? (seen : List Char) : List Char → Option (List Char × List Char)
  | [] => none
  | c :: rest =>
    if c = ':' ∨ c = ')' then
      if seen.head? = some '-' then none else some (seen.reverse, c :: rest)
    else if isFlagChar c && !seen.contains c then readFlags? (c :: seen) rest
    else none

/-- What the flags of a group say about one of them: those after a minus sign are cleared. -/
def changeOf (flag : Char) (flags : List Char) : Option Bool :=
  if (flags.takeWhile (· ≠ '-')).contains flag then some true
  else if flags.contains flag then some false
  else none

/-- The changes that the flags of a group make. -/
def changesOf (flags : List Char) : FlagChanges :=
  ⟨changeOf 'i' flags, changeOf 'u' flags, changeOf 'x' flags⟩

/-- Whether a text is the name of a group. -/
def isGroupName : List Char → Bool
  | [] => false
  | c :: cs =>
    (c = '_' || Text.isLetter c) &&
      cs.all fun d => ['_', '.', '[', ']'].contains d || Text.isLetterOrNumber d

/-- How a group begins. -/
inductive Opening where
  /-- A group that only changes flags. -/
  | flags (changes : FlagChanges)
  /-- A group that may have a name. -/
  | group (changes : FlagChanges) (name? : Option String)

/-- A group that changes nothing. -/
def Opening.plain (name? : Option String) : Opening := .group ⟨none, none, none⟩ name?

/-- The name of a group up to its angle bracket. -/
def readName? (cs : List Char) : Option (Opening × List Char) :=
  let name := cs.takeWhile (· ≠ '>')
  match cs.drop name.length with
  | '>' :: rest => if isGroupName name then some (.plain (some (.ofList name)), rest) else none
  | _ => none

/-- The beginning of a group after its parenthesis. -/
def readOpening? (spaced : Bool) (cs : List Char) : Option (Opening × List Char) :=
  match next spaced cs with
  | '?' :: '=' :: _ | '?' :: '!' :: _ | '?' :: '<' :: '=' :: _ | '?' :: '<' :: '!' :: _ => none
  | '?' :: 'P' :: '<' :: rest => readName? rest
  | '?' :: '<' :: rest => readName? rest
  | '?' :: rest =>
    match readFlags? [] rest with
    | some (flags, ':' :: rest) => some (.group (changesOf flags) none, rest)
    | some (flags, ')' :: rest) =>
      if flags.isEmpty then none else some (.flags (changesOf flags), rest)
    | _ => none
  | rest => some (.plain none, rest)

/-! ## Whole patterns -/

/-- What a backslash begins, as a pattern. -/
def Atom.toPattern : Atom → Pattern
  | char c => .char c
  | edge => .edge
  | wordEdge => .wordEdge
  | shorthand negated => .shorthand negated

/-- The pattern so far of a group: its finished branches and the parts of the current one, the last
of them first. -/
structure Draft where
  branches : List Pattern
  parts : List Pattern

namespace Draft

/-- Nothing so far. -/
def none : Draft := ⟨[], []⟩

/-- One more part. -/
def add (d : Draft) (p : Pattern) : Draft := { d with parts := p :: d.parts }

/-- A new branch. -/
def branch (d : Draft) : Draft := ⟨ofSequence d.parts.reverse :: d.branches, []⟩

/-- The last part repeated, if it can be. -/
def repeat? (d : Draft) : Option Draft :=
  match d.parts with
  | p :: parts => if p.isOperand then some { d with parts := .repeated p :: parts } else .none
  | [] => .none

/-- The pattern of the group. -/
def finish (d : Draft) : Pattern := ofChoice d.branch.branches.reverse

end Draft

/-- The pattern of a group after its beginning, the names that groups have had, and what follows
from the closing parenthesis or the end on. -/
def readBody? (fuel : Nat) (spaced : Bool) (names : List String) (d : Draft) (cs : List Char) :
    Option (Pattern × List String × List Char) :=
  match fuel with
  | 0 => none
  | fuel + 1 =>
    match next spaced cs with
    | [] => some (d.finish, names, [])
    | ')' :: rest => some (d.finish, names, ')' :: rest)
    | '|' :: rest => readBody? fuel spaced names d.branch rest
    | '(' :: rest => do
      match ← readOpening? spaced rest with
      | (.flags changes, rest) =>
        readBody? fuel (changes.spaced?.getD spaced) names (d.add (.setFlags changes)) rest
      | (.group changes name?, rest) =>
        if name?.any names.contains then none
        else
          let names := name?.toList ++ names
          let (body, names, rest) ←
            readBody? fuel (changes.spaced?.getD spaced) names .none rest
          match rest with
          | ')' :: rest => readBody? fuel spaced names (d.add (.group changes body)) rest
          | _ => none
    | '[' :: rest => do
      let (negated, inner, rest) ← readClass? spaced fuel rest
      readBody? fuel spaced names (d.add (.bracket negated inner)) rest
    | '?' :: rest => do readBody? fuel spaced names (← d.repeat?) (skipLazy rest)
    | '*' :: rest => do readBody? fuel spaced names (← d.repeat?) (skipLazy rest)
    | '+' :: rest => do readBody? fuel spaced names (← d.repeat?) (skipLazy rest)
    | '\x7b' :: rest => do
      let d ← d.repeat?
      readBody? fuel spaced names d (skipLazy (next spaced (← afterCounts? spaced rest)))
    | '\\' :: rest => do
      let (atom, rest) ← readEscape? spaced rest
      readBody? fuel spaced names (d.add atom.toPattern) rest
    | '.' :: rest => readBody? fuel spaced names (d.add .anyChar) rest
    | '^' :: rest => readBody? fuel spaced names (d.add .edge) rest
    | '$' :: rest => readBody? fuel spaced names (d.add .edge) rest
    | c :: rest => readBody? fuel spaced names (d.add (.char ⟨c, false⟩)) rest

/-- The pattern of a whole text. -/
def parse? (cs : List Char) : Option Pattern :=
  match readBody? (2 * cs.length + 2) false [] .none cs with
  | some (p, _, []) => some p
  | _ => none

/-- Whether a text is a pattern that can be used. -/
def isValid (cs : List Char) : Bool := (parse? cs).any isUsable

end NodeFleet.Pattern
