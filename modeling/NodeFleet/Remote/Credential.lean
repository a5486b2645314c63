import NodeFleet.Text.Quoted

/-!
# NodeFleet.Remote.Credential — how a session proves who it is

`Credential` is a password, the path of a key file, or the name of an environment variable that
holds a key. `Credential.redacted` shows which one it is without giving a password away.
-/

namespace NodeFleet

/-- How a session authenticates. -/
inductive Credential where
  | password (word : String)
  | keyFile (path : String)
  | keyVariable (name : String)
  deriving DecidableEq, Repr, Inhabited

/-- The credential as it may be printed: a password is never shown. -/
def Credential.redacted : Credential → String
  | password _ => "Password(****)"
  | keyFile path => "KeyFile(" ++ Text.quoted path ++ ")"
  | keyVariable name => "EnvKey(" ++ Text.quoted name ++ ")"

end NodeFleet
