import NodeFleet.Text.Unshown

/-!
# NodeFleet.Text.Quoted — a text between quotation marks, every character of it visible

A text that turns up inside a message is quoted, so that line feeds and invisible characters of a
remote answer cannot garble the message.

* `escapeChar`: a quotation mark and a backslash are written after a backslash, tab, line feed,
  carriage return and NUL as `\\t`, `\\n`, `\\r`, `\\0`, an unshown character as its code point in
  braces; any other character is itself.
* `quoted s`: the escaped characters between quotation marks.
-/

namespace NodeFleet.Text

/-- The digits of a number in base sixteen, in small letters, none too many. -/
def hexDigits (n : Nat) : List Char := Nat.toDigits 16 n

/-- The visible form of one character. -/
def escapeChar (c : Char) : List Char :=
  if c = '"' then ['\\', '"']
  else if c = '\\' then ['\\', '\\']
  else if c = '\t' then ['\\', 't']
  else if c = '\n' then ['\\', 'n']
  else if c = '\r' then ['\\', 'r']
  else if c = '\x00' then ['\\', '0']
  else if isUnshown c then '\\' :: 'u' :: '\x7b' :: hexDigits c.toNat ++ ['\x7d']
  else [c]

/-- The text between quotation marks, with its characters in visible form. -/
def quoted (s : String) : String := .ofList ('"' :: s.toList.flatMap escapeChar ++ ['"'])

end NodeFleet.Text
