import NodeFleet.Text.Blank

/-!
# NodeFleet.Local.Path — paths on the operator's machine

A path is a text; slashes separate its parts, and empty parts do not count.
-/

namespace NodeFleet.Path

/-- The parts of a path that are neither empty nor the present directory. -/
def parts (path : String) : List String :=
  (Text.split '/' path).filter fun part => !part.isEmpty && part != "."

/-- The last part of a path, unless that is the directory above or there is none. -/
def fileName? (path : String) : Option String := (parts path).getLast?.filter (· != "..")

/-- What follows the last point of the file name, when something stands before it. -/
def extension? (path : String) : Option String := do
  let name ← fileName? path
  let pieces := Text.split '.' name
  let ending ← pieces.getLast?
  if Text.join "." pieces.dropLast = "" then none else some ending

/-- The path of something below a directory. -/
def below (dir path : String) : String :=
  if dir.toList.getLast? = some '/' then dir ++ path else dir ++ "/" ++ path

end NodeFleet.Path
