import NodeFleet.Config.Document
import NodeFleet.Config.Validation
import NodeFleet.Document.Toml.Reader
import NodeFleet.Local.Path
import NodeFleet.Local.Surroundings
import NodeFleet.Text.Search

/-!
# NodeFleet.Config.Source — where the description of a fleet comes from

* `Config.ofText`: a description in one of two notations, read and validated.
* `Config.load`: the description in a file, whose extension tells the notation.
* `Config.discover`: the description in the file that is named explicitly, else by the environment,
  else in the first of the usual places where there is something.
-/

namespace NodeFleet

/-- The notations of a description. -/
inductive Notation where
  | toml
  | json
  deriving DecidableEq, Repr, Inhabited

/-- The notation of a file: only the extension `json`, in letters of any case, tells of the JSON
notation. -/
def Notation.ofPath (path : String) : Notation :=
  match Path.extension? path with
  | some ending => if ending.toList.map Text.foldCase = ['j', 's', 'o', 'n'] then json else toml
  | none => toml

/-- Why there is no description in a text or a file. -/
inductive SourceFault where
  /-- The file cannot be read. -/
  | unreadable (cause : FileError)
  /-- The text is not in the notation, or not of a description. -/
  | malformed
  /-- The description is at fault. -/
  | faulty (cause : ConfigError)
  deriving DecidableEq, Repr, Inhabited

/-- Why there is no description. -/
inductive SourceError where
  | inFile (path : String) (fault : SourceFault)
  | nowhere (tried : List String)
  deriving DecidableEq, Repr, Inhabited

/-- The variable that names the file of the description. -/
def sourceVariable : String := "FLEETBOOT_CONFIG"

/-- The outermost wording of an error. -/
def SourceError.message : SourceError → String
  | inFile path (.unreadable _) => "reading " ++ path
  | inFile path _ => "loading " ++ path
  | nowhere tried =>
    "no configuration file found (tried " ++ Text.join ", " tried ++ "); pass --config or set " ++
      sourceVariable

namespace Config

/-- The description in a text. -/
def ofText (n : Notation) (text : String) : Except SourceFault Config := do
  let read? :=
    match n with
    | .toml => (Toml.parse? text).bind (Config.read? Toml.dialect)
    | .json => (Json.parse? text).bind (Config.read? Json.dialect)
  match read? with
  | none => throw .malformed
  | some config =>
    match config.validate with
    | .ok _ => pure config
    | .error e => throw (.faulty e)

/-- The description in a file. -/
def load (s : Surroundings) (path : String) : Except SourceError Config :=
  match s.readText path with
  | .error cause => .error (.inFile path (.unreadable cause))
  | .ok text => (ofText (.ofPath path) text).mapError (.inFile path)

/-- The directory of the user's settings: the one named by the environment if its path is absolute,
else the usual one below the home directory. -/
def settingsDirectory? (s : Surroundings) : Option String :=
  let isAbsolute (dir : String) : Bool := dir.toList.head? == some '/'
  (s.valueOf? "XDG_CONFIG_HOME").filter isAbsolute <|>
    ((s.valueOf? "HOME").filter fun home => !home.isEmpty).map fun home => Path.below home ".config"

/-- The usual places of a description, in the order in which they are tried. -/
def usualPlaces (s : Surroundings) : List String :=
  ["fleetboot.toml", "fleetboot.json", "/etc/fleetboot/fleetboot.toml"] ++
    ((settingsDirectory? s).map fun dir => Path.below dir "fleetboot/fleetboot.toml").toList

/-- The description of the fleet, with the path of its file. -/
def discover (s : Surroundings) (explicit? : Option String) :
    Except SourceError (Config × String) :=
  let loaded (path : String) := (load s path).map fun config => (config, path)
  match explicit? <|> s.valueOf? sourceVariable with
  | some path => loaded path
  | none =>
    let places := usualPlaces s
    match places.find? s.leadsSomewhere with
    | some path => loaded path
    | none => .error (.nowhere places)

end Config

end NodeFleet
