import NodeFleet.Text.Blank
import NodeFleet.Text.Search

/-!
# NodeFleet.Remote.Reply — the output of one command line

A remote shell echoes the command and prints carriage returns; a `Reply` keeps only the lines that
the program itself printed.

* `Reply.ofText`: carriage returns go, then the first line if it is the command itself up to
  surrounding blanks, then the blank lines at the end.
* `firstLine?`, `text`, `succeeded`, `isBlank`: the four ways in which a reply is looked at.
-/

namespace NodeFleet

/-- The output of a command line, with its exit status where one is known. -/
structure Reply where
  command : String
  lines : List String
  status : Option Int
  deriving DecidableEq, Repr, Inhabited

namespace Reply

/-- The lines without a first one that only echoes the command. -/
def dropEcho (command : String) : List String → List String
  | [] => []
  | line :: rest => if Text.trim line = Text.trim command then rest else line :: rest

/-- The lines without the blank ones at the end. -/
def dropBlankEnd (lines : List String) : List String :=
  (lines.reverse.dropWhile Text.isBlankText).reverse

/-- The reply in the text that came back from running `command`. -/
def ofText (command raw : String) (status : Option Int) : Reply :=
  { command
    lines := dropBlankEnd (dropEcho command (Text.lines (Text.replaceChar '\r' "" raw)))
    status }

/-- The first line that is not blank, trimmed. -/
def firstLine? (reply : Reply) : Option String :=
  (reply.lines.map Text.trim).find? fun line => !line.isEmpty

/-- The lines, with line feeds between them. -/
def text (reply : Reply) : String := Text.join "\n" reply.lines

/-- Whether the exit status is known and zero. -/
def succeeded (reply : Reply) : Bool := reply.status == some 0

/-- Whether every line is blank. -/
def isBlank (reply : Reply) : Bool := reply.lines.all Text.isBlankText

end Reply

end NodeFleet
