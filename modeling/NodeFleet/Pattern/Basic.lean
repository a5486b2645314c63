/-!
# NodeFleet.Pattern.Basic — patterns that texts are matched with

A `Pattern` is what a regular expression says, as far as it decides whether it can be used.  No
tables of the characters of all scripts are at hand, so letter case, shorthand classes and word
edges can be used with the letters of ASCII alone; and a pattern that is read byte by byte may not
match a part of a character.

* `CharClass`, `Pattern`: the parts of a pattern.  `CharClass.depth`, `Pattern.depth`: how deep they
  are nested.
* `Pattern.after?`: a pattern that can be used under some flags, and the flags that hold after it.
* `Pattern.isUsable`: a whole pattern.
-/

namespace NodeFleet

/-- A character of a pattern. -/
structure PatternChar where
  char : Char
  /-- Whether it is written as a backslash, an `x` and two digits. -/
  isByte : Bool
  deriving DecidableEq, Repr

/-- What stands between brackets. -/
inductive CharClass where
  | char (c : PatternChar)
  | range (first last : PatternChar)
  /-- One of the classes with a name between colons. -/
  | named (negated : Bool)
  /-- Digits, blanks or the characters of words, written as one letter. -/
  | shorthand (negated : Bool)
  | nested (negated : Bool) (inner : CharClass)
  | union (parts : List CharClass)
  /-- Two classes with an operator between them. -/
  | pair (left right : CharClass)

/-- The flags that decide whether a pattern can be used. -/
structure PatternFlags where
  ignoreCase : Bool
  /-- Whether the pattern is read character by character, and not byte by byte. -/
  unicode : Bool
  deriving DecidableEq, Repr

/-- What a group of flags changes. -/
structure FlagChanges where
  ignoreCase? : Option Bool
  unicode? : Option Bool
  /-- Whether blanks and comments do not count. -/
  spaced? : Option Bool
  deriving DecidableEq, Repr

/-- A pattern. -/
inductive Pattern where
  | empty
  /-- A group of flags for what follows. -/
  | setFlags (changes : FlagChanges)
  | char (c : PatternChar)
  | anyChar
  /-- The beginning or the end of a text or a line. -/
  | edge
  /-- An edge of a word, or a place that is none. -/
  | wordEdge
  | shorthand (negated : Bool)
  | bracket (negated : Bool) (inner : CharClass)
  | repeated (p : Pattern)
  | group (changes : FlagChanges) (p : Pattern)
  | sequence (parts : List Pattern)
  | choice (branches : List Pattern)

namespace PatternFlags

/-- The flags of a pattern before any changes. -/
def initial : PatternFlags := ⟨false, true⟩

/-- The flags after changes. -/
def apply (f : PatternFlags) (changes : FlagChanges) : PatternFlags :=
  ⟨changes.ignoreCase?.getD f.ignoreCase, changes.unicode?.getD f.unicode⟩

/-- Whether a class of characters can be negated: what is not in a class of bytes is no
character. -/
def admitsNegated (f : PatternFlags) (negated : Bool) : Bool := f.unicode || !negated

/-- Whether a class with a name can be used: letter case needs the tables that are not at hand. -/
def admitsNamed (f : PatternFlags) (negated : Bool) : Bool :=
  f.admitsNegated negated && !(f.unicode && f.ignoreCase)

/-- Whether a shorthand class can be used. -/
def admitsShorthand (f : PatternFlags) (negated : Bool) : Bool := !f.unicode && !negated

/-- Whether a character can stand in a class. -/
def admitsMember (f : PatternFlags) (c : PatternChar) : Bool :=
  if f.unicode then !f.ignoreCase else c.char.toNat < 128

/-- Whether a character can stand outside the classes. -/
def admitsChar (f : PatternFlags) (c : PatternChar) : Bool :=
  if f.unicode then !f.ignoreCase else !c.isByte || c.char.toNat < 128

end PatternFlags

/-! ## Nesting -/

namespace CharClass

mutual

/-- How deep classes are nested in a class. -/
def depth : CharClass → Nat
  | char _ | range _ _ | named _ | shorthand _ => 0
  | nested _ inner => inner.depth + 1
  | union [] => 0
  | union parts => depthOfAll parts + 1
  | pair left right => max left.depth right.depth + 1

/-- The greatest depth of several classes. -/
def depthOfAll : List CharClass → Nat
  | [] => 0
  | c :: cs => max c.depth (depthOfAll cs)

end

/-- Several classes taken together. -/
def ofParts : List CharClass → CharClass
  | [part] => part
  | parts => union parts

mutual

/-- Whether a class can be used under some flags. -/
def isUsable (f : PatternFlags) : CharClass → Bool
  | char c => f.admitsMember c
  | range first last => f.admitsMember first && f.admitsMember last
  | named negated => f.admitsNamed negated
  | shorthand negated => f.admitsShorthand negated
  | nested negated inner => inner.isUsable f && f.admitsNegated negated
  | union parts => areUsable f parts
  | pair left right => left.isUsable f && right.isUsable f

/-- Whether several classes can be used. -/
def areUsable (f : PatternFlags) : List CharClass → Bool
  | [] => true
  | c :: cs => c.isUsable f && areUsable f cs

end

end CharClass

namespace Pattern

mutual

/-- How deep the parts of a pattern are nested. -/
def depth : Pattern → Nat
  | bracket _ inner => inner.depth + 1
  | repeated p | group _ p => p.depth + 1
  | sequence ps | choice ps => depthOfAll ps + 1
  | _ => 0

/-- The greatest depth of several patterns. -/
def depthOfAll : List Pattern → Nat
  | [] => 0
  | p :: ps => max p.depth (depthOfAll ps)

end

/-- Patterns one after the other. -/
def ofSequence : List Pattern → Pattern
  | [] => empty
  | [p] => p
  | ps => sequence ps

/-- A choice of patterns. -/
def ofChoice : List Pattern → Pattern
  | [p] => p
  | ps => choice ps

/-- Whether a pattern can be repeated. -/
def isOperand : Pattern → Bool
  | empty | setFlags _ => false
  | _ => true

mutual

/-- The flags after a pattern that can be used under the flags `f`.  A group keeps its changes to
itself; elsewhere they hold for all that follows, the branches of a choice included. -/
def after? (f : PatternFlags) : Pattern → Option PatternFlags
  | empty | edge => some f
  | setFlags changes => some (f.apply changes)
  | char c => if f.admitsChar c then some f else none
  | anyChar => if f.unicode then some f else none
  | wordEdge => if f.unicode then none else some f
  | shorthand negated => if f.admitsShorthand negated then some f else none
  | bracket negated inner => if inner.isUsable f && f.admitsNegated negated then some f else none
  | repeated p => after? f p
  | group changes p => (after? (f.apply changes) p).map fun _ => f
  | sequence ps | choice ps => afterAll? f ps

/-- The flags after several patterns that can all be used. -/
def afterAll? (f : PatternFlags) : List Pattern → Option PatternFlags
  | [] => some f
  | p :: ps => (after? f p).bind fun f => afterAll? f ps

end

/-- The greatest depth of a pattern that can be used. -/
def depthLimit : Nat := 250

/-- Whether a pattern can be used. -/
def isUsable (p : Pattern) : Bool := p.depth ≤ depthLimit && (p.after? .initial).isSome

end Pattern

end NodeFleet
