import NodeFleet.Amount.Decimal
import NodeFleet.Pattern.Reader
import NodeFleet.Text.Blank
import NodeFleet.Text.Letter
import NodeFleet.Text.Piece
import NodeFleet.Text.Search

/-!
# NodeFleet.Launch.LogFilter — which log lines are wanted

A filter is a list of directives with commas between them, each a level, or a target with a level:
`warn,desk=debug`, with the name of a span in brackets after the target, and in braces after that
name a field, perhaps with the number or the pattern of its value.

* `LogFilter.isLevel`: the words and digits that are levels.
* `Directive.Fault`: why a text is no directive.
* `Directive.check`: reads a directive character by character.
* `LogFilter.check`: a whole filter.
-/

namespace NodeFleet

namespace LogFilter

/-- The words for levels. -/
def levelWords : List String := ["error", "warn", "info", "debug", "trace", "off"]

/-- Whether a text is a number from 0 to 5, perhaps after a plus sign and zeros. -/
def isLevelNumber (cs : List Char) : Bool :=
  let digits :=
    match cs with
    | '+' :: rest => rest
    | _ => cs
  match (digits.dropWhile (· == '0')), digits with
  | [], [] => false
  | [], _ => true
  | [d], _ => '1' ≤ d && d ≤ '5'
  | _, _ => false

/-- Whether a text is a level; so is the empty one. -/
def isLevel (cs : List Char) : Bool :=
  cs.isEmpty || isLevelNumber cs || levelWords.contains (.ofList (cs.map Text.foldCase))

end LogFilter

namespace Directive

/-- Why a text is no directive. -/
inductive Fault where
  | malformed
  /-- One of its pieces would begin or end inside a character. -/
  | torn
  deriving DecidableEq, Repr, Inhabited

/-- What is being read of a directive, and where it began. -/
inductive State where
  | start
  | levelOrTarget
  | span (first : Nat)
  | field (first : Nat)
  | fields
  | target
  | level (first : Nat)
  deriving DecidableEq, Repr

/-- Whether a directive may begin with the character. -/
def mayBegin (c : Char) : Bool := Text.isLetterOrNumber c || c == '-' || c == ':' || c == '_'

/-- Whether a text is the value of a field: a number or a pattern. -/
def isFieldValue (cs : List Char) : Bool :=
  (Amount.read? (.ofList cs)).isSome || Pattern.isValid cs

/-- Whether a text is a field: a name, and perhaps an equals sign with a value; what stands after
another equals sign does not count. -/
def isField (cs : List Char) : Bool :=
  !cs.isEmpty &&
    match Text.splitChars '=' cs with
    | _ :: value :: _ => isFieldValue value
    | _ => true

/-- The piece of a directive between two places. -/
def piece (whole : List Char) (first last : Nat) : Except Fault (List Char) :=
  match Text.piece? first last whole with
  | some cs => .ok cs
  | none => .error .torn

/-- Reads the character at a place.  What ends before it is cut from the whole directive. -/
def step (whole : List Char) (place : Nat) (state : State) (c : Char) : Except Fault State :=
  match state with
  | .start =>
    if c = '[' then .ok (.span (place + 1))
    else if mayBegin c then .ok .levelOrTarget
    else .error .malformed
  | .levelOrTarget =>
    if c = '=' then (piece whole 0 place).map fun _ => .level (place + 1)
    else if c = '[' then (piece whole 0 place).map fun _ => .span (place + 1)
    else .ok .levelOrTarget
  | .span first =>
    if c = ']' then (piece whole first place).map fun _ => .target
    else if c = '\x7b' then (piece whole first place).map fun _ => .field (place + 1)
    else .ok (.span first)
  | .field first =>
    if c = '\x7d' then do
      if isField (← piece whole first place) then pure .fields else throw .malformed
    else .ok (.field first)
  | .fields => if c = ']' then .ok .target else .error .malformed
  | .target => if c = '=' then .ok (.level (place + 1)) else .error .malformed
  | .level first => .ok (.level first)

/-- Reads characters from a place on. -/
def run (whole : List Char) (place : Nat) (state : State) : List Char → Except Fault State
  | [] => .ok state
  | c :: cs => (step whole place state c).bind fun state => run whole (place + c.utf8Size) state cs

/-- Checks that a directive may end in a state. -/
def finish (whole : List Char) : State → Except Fault Unit
  | .levelOrTarget | .target => .ok ()
  | .level first =>
    match Text.dropBytes? first whole with
    | some cs => if LogFilter.isLevel cs then .ok () else .error .malformed
    | none => .error .torn
  | _ => .error .malformed

/-- Checks that a text is a directive.  Its places are counted without the blanks before it, but its
pieces are cut from the text with these blanks; so a directive that begins with blanks has no level
that can be read. -/
def check (directive : String) : Except Fault Unit :=
  let whole := directive.toList
  (run whole 0 .start (Text.stripChars Text.isBlank whole)).bind (finish whole)

end Directive

namespace LogFilter

/-- Checks that a text is a filter: empty directives do not count. -/
def check (filter : String) : Except Directive.Fault Unit :=
  ((Text.split ',' filter).filter fun d => !d.isEmpty).forM Directive.check

/-- The variable that holds a filter. -/
def variableName : String := "RUST_LOG"

/-- The parts of the program that write log lines. -/
def writers : List String := ["fleetboot", "fleetboot_core", "fleetboot_exec"]

/-- The filter that a level of the description stands for. -/
def ofLevel (level : String) : String := Text.join "," ("warn" :: writers.map (· ++ "=" ++ level))

/-- The filter in force: that of the environment unless it is blank, else that of the
description. -/
def inForce (environment? : Option String) (level : String) : String :=
  match environment?.filter fun f => !Text.isBlankText f with
  | some filter => filter
  | none => ofLevel level

end LogFilter

end NodeFleet
