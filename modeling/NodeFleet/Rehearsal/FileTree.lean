import NodeFleet.Local.Surroundings
import NodeFleet.Text.Blank

/-!
# NodeFleet.Rehearsal.FileTree — the files of the operator's machine in a rehearsal

`FileTree` holds the files below the working directory, and those of absolute paths; a directory is
there when it holds something.  A path is followed part by part, so that `..` and a closing slash
mean what they mean to the system.  Only the rehearsal of `NodeFleet.Rehearsal.Basic` has such
files.
-/

namespace NodeFleet

/-- Files under the parts of their paths; an absolute path begins with the part `/`. -/
structure FileTree where
  entries : List (List String × LocalFile)

namespace FileTree

/-- No files. -/
def empty : FileTree := ⟨[]⟩

/-- The file at a place, if it is one. -/
def file? (tree : FileTree) (place : List String) : Option LocalFile := tree.entries.lookup place

/-- Whether a place is a directory: one of the two roots, or above some file. -/
def isDirectory (tree : FileTree) (place : List String) : Bool :=
  place == [] || place == ["/"] ||
    tree.entries.any fun entry => place.isPrefixOf entry.1 && place != entry.1

/-- The longest name of a file, in bytes. -/
def longestName : Nat := 255

/-- The longest path, in bytes. -/
def longestPath : Nat := 4095

/-- The place above. -/
def above : List String → List String
  | ["/"] => ["/"]
  | place => place.dropLast

/-- Follows the parts of a path from a place. -/
def follow (tree : FileTree) (place : List String) : List String → Except FileError (List String)
  | [] => .ok place
  | part :: rest =>
    if (tree.file? place).isSome then .error .notADirectory
    else if part = "" ∨ part = "." then tree.follow place rest
    else if part = ".." then tree.follow (above place) rest
    else if longestName < part.utf8ByteSize then .error .nameTooLong
    else
      let next := place ++ [part]
      if (tree.file? next).isSome || tree.isDirectory next then tree.follow next rest
      else .error .missing

/-- Where a path begins: at the root of all files, or in the working directory. -/
def origin (path : String) : List String := if path.toList.head? = some '/' then ["/"] else []

/-- The place that a path leads to. -/
def place (tree : FileTree) (path : String) : Except FileError (List String) :=
  if path.toList.contains '\x00' then .error .nulInPath
  else if path.isEmpty then .error .missing
  else if longestPath < path.utf8ByteSize then .error .nameTooLong
  else tree.follow (origin path) (Text.split '/' path)

/-- What a path leads to. -/
def look (tree : FileTree) (path : String) : Except FileError FileNode :=
  (tree.place path).map fun place =>
    match tree.file? place with
    | some f => .file f
    | none => .directory

end FileTree

end NodeFleet
