import NodeFleet.Text.Search

/-!
# NodeFleet.Remote.ShellQuote — a path as one word of a remote shell

`shellQuote path` stands between single quotes, in which a shell takes every character as it is; a
single quote of the path closes the quotes, stands after a backslash, and opens them again.  A
leading `~/` stays outside, since the shell has to put the home directory for it.
-/

namespace NodeFleet

/-- The characters between single quotes, each single quote among them as `'\''`. -/
def singleQuotedChars (cs : List Char) : List Char :=
  '\'' :: Text.replaceChars '\'' ['\'', '\\', '\'', '\''] cs ++ ['\'']

/-- The path as one word of the remote shell. -/
def shellQuote (path : String) : String :=
  match path.toList with
  | '~' :: '/' :: rest => .ofList ('~' :: '/' :: singleQuotedChars rest)
  | cs => .ofList (singleQuotedChars cs)

end NodeFleet
