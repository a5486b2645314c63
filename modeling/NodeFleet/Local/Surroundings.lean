/-!
# NodeFleet.Local.Surroundings — files and variables of the operator's machine

`Surroundings` is what the program may look at before it turns to the fleet: what each path leads
to, and the environment variables.

* `Surroundings.read`, `Surroundings.readText`: the contents of a file, as bytes and as a text.
* `FileError.message`: the system's wording of a failure.
-/

namespace NodeFleet

/-- Why a file cannot be had. -/
inductive FileError where
  | missing
  | notADirectory
  | isADirectory
  | accessDenied
  | nameTooLong
  | nulInPath
  | notText
  deriving DecidableEq, Repr, Inhabited

/-- The system's wording. -/
def FileError.message : FileError → String
  | missing => "No such file or directory (os error 2)"
  | notADirectory => "Not a directory (os error 20)"
  | isADirectory => "Is a directory (os error 21)"
  | accessDenied => "Permission denied (os error 13)"
  | nameTooLong => "File name too long (os error 36)"
  | nulInPath => "file name contained an unexpected NUL byte"
  | notText => "stream did not contain valid UTF-8"

/-- A file with its permission bits. -/
structure LocalFile where
  contents : ByteArray
  mode : Nat

/-- What a path leads to. -/
inductive FileNode where
  | directory
  | file (f : LocalFile)

/-- The permission bits of a directory. -/
def directoryMode : Nat := 0o755

/-- The permission bits of what a path leads to. -/
def FileNode.mode : FileNode → Nat
  | directory => directoryMode
  | file f => f.mode

/-- The contents of what a path leads to. -/
def FileNode.contents : FileNode → Except FileError ByteArray
  | directory => .error .isADirectory
  | file f => .ok f.contents

/-- What of the operator's machine a program may look at. -/
structure Surroundings where
  /-- What a path leads to. -/
  look : String → Except FileError FileNode
  environment : List (String × String)

namespace Surroundings

/-- The value of an environment variable. -/
def valueOf? (s : Surroundings) (name : String) : Option String := s.environment.lookup name

/-- Whether a path leads to anything. -/
def leadsSomewhere (s : Surroundings) (path : String) : Bool := (s.look path).isOk

/-- The contents of a file. -/
def read (s : Surroundings) (path : String) : Except FileError ByteArray :=
  (s.look path).bind FileNode.contents

/-- The contents of a text file. -/
def readText (s : Surroundings) (path : String) : Except FileError String := do
  match String.fromUTF8? (← s.read path) with
  | some text => pure text
  | none => throw .notText

end Surroundings

end NodeFleet
