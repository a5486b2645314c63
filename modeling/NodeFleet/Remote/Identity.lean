import NodeFleet.Local.Surroundings
import NodeFleet.Remote.Credential
import NodeFleet.Text.Base64
import NodeFleet.Text.Blank

/-!
# NodeFleet.Remote.Identity — a credential made ready for use

`Credential.identity` finds the key that a credential names.  A key file has to be closed to
everybody but its owner; a key from the environment is kept in a private file for as long as it is
used.
-/

namespace NodeFleet

/-- A credential that can be used. -/
inductive Identity where
  | password (word : String)
  /-- The key in a file. -/
  | key (path : String)
  /-- A key that is kept in a private file while it is used. -/
  | privateCopy (contents : ByteArray)

/-- Why a key is of no use. -/
inductive KeyError where
  | variableNotSet (name : String)
  | invalidBase64
  | badPermissions (path : String)
  | notFound (path : String)
  | unreadable (cause : FileError)
  deriving DecidableEq, Repr, Inhabited

/-- The wording of a useless key. -/
def KeyError.message : KeyError → String
  | variableNotSet name => "environment variable " ++ name ++ " not set"
  | invalidBase64 => "invalid base64 encoding"
  | badPermissions path => "key file permissions too open: " ++ path ++ " (should be 600)"
  | notFound path => "key file not found: " ++ path
  | unreadable cause => "I/O error: " ++ cause.message

/-- The permission bits of a private copy. -/
def privateMode : Nat := 0o600

/-- Whether permission bits give anything to the group or to others. -/
def isTooOpen (mode : Nat) : Bool := mode % 0o100 != 0

/-- How a key file that cannot be looked at is filed. -/
def keyFileError (path : String) : FileError → KeyError
  | .missing => .notFound path
  | cause => .unreadable cause

/-- The identity that a credential names. -/
def Credential.identity (s : Surroundings) : Credential → Except KeyError Identity
  | password word => .ok (.password word)
  | keyFile path =>
    match s.look path with
    | .error cause => .error (keyFileError path cause)
    | .ok node => if isTooOpen node.mode then .error (.badPermissions path) else .ok (.key path)
  | keyVariable name =>
    match s.valueOf? name with
    | none => .error (.variableNotSet name)
    | some value =>
      match Base64.decode? (Text.trim value) with
      | none => .error .invalidBase64
      | some contents => .ok (.privateCopy contents)

end NodeFleet
