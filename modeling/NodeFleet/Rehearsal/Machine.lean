import NodeFleet.Rehearsal.FileTree
import NodeFleet.Rehearsal.LocalProgram
import NodeFleet.Remote.Error
import NodeFleet.Remote.Reply
import NodeFleet.Text.Lossy

/-!
# NodeFleet.Rehearsal.Machine — the operator's machine in a rehearsal

A `Machine` has files, environment variables, and addresses that answer a ping.  Its programs are
played.  It is a part of the world of `NodeFleet.Rehearsal.Basic`.

* `Machine.find`: whether a program can be started.  `Machine.launch`: starts one and leaves it
  alone.
* `Machine.run`: the output of a program, unless it takes too long.
* `Machine.ping`: whether an address answers.
-/

namespace NodeFleet

/-- The operator's machine. -/
structure Machine where
  files : FileTree
  environment : List (String × String)
  /-- The addresses that answer a ping. -/
  answering : List String

/-- Why a program cannot be started. -/
inductive StartError where
  | file (cause : FileError)
  | nulInArgument
  deriving DecidableEq, Repr, Inhabited

/-- The system's wording. -/
def StartError.message : StartError → String
  | file cause => cause.message
  | nulInArgument => "nul byte found in provided data"

/-- The programs that are found by their names. -/
def installedPrograms : List String :=
  ["true", "false", "echo", "printf", "sleep", "sh", "cat", "ls", "env", "pwd", "test", "bash",
    "date", "uname", "id", "head", "tail", "grep", "sed", "sort", "wc", "tr", "cut", "touch",
    "mkdir", "rm", "mv", "cp", "chmod", "ping", "ps", "kill", "seq", "yes", "tee", "whoami",
    "hostname"]

/-- How long a program may take unless another bound is set. -/
def standardTimeout : Duration := .ofSeconds 10

/-- The command line of a program and its arguments. -/
def commandLine (program : String) (arguments : List String) : String :=
  Text.join " " (program :: arguments)

namespace Machine

/-- What a program may look at. -/
def surroundings (m : Machine) : Surroundings := ⟨m.files.look, m.environment⟩

/-- Whether any of the permission bits lets a file be executed. -/
def isExecutable (mode : Nat) : Bool := mode / 0o100 % 2 = 1 || mode / 0o10 % 2 = 1 || mode % 2 = 1

/-- Looks for a program: by its path if that has a slash, else by its name. -/
def find (m : Machine) (program : String) (arguments : List String) : Except StartError Unit :=
  if (program :: arguments).any fun word => word.toList.contains '\x00' then .error .nulInArgument
  else if program.toList.contains '/' then
    match m.files.look program with
    | .error cause => .error (.file cause)
    | .ok .directory => .error (.file .accessDenied)
    | .ok (.file f) => if isExecutable f.mode then .ok () else .error (.file .accessDenied)
  else if installedPrograms.contains program then .ok ()
  else .error (.file .missing)

/-- Starts a program and leaves it alone. -/
def launch (m : Machine) (program : String) (arguments : List String) : Except StartError Unit :=
  m.find program arguments

/-- Whether an address answers a ping. -/
def ping (m : Machine) (address : String) : Bool := m.answering.contains address

/-- Plays a program that can be started. -/
def play (m : Machine) (program : String) (arguments : List String) : Finished :=
  match program, arguments with
  | "sh", "-c" :: script :: _ => ShellScript.play m.surroundings script
  | "ping", ["-c", "1", address] => .silent (if m.ping address then 0 else 1)
  | _, _ => (playSimple m.surroundings program arguments).getD (.silent 0)

/-- Runs a program to its end, standard output first in its reply; one that takes longer than
`timeout` is stopped. -/
def run (m : Machine) (timeout : Duration) (program : String) (arguments : List String) :
    Except RemoteError Reply :=
  match m.find program arguments with
  | .error cause => .error (.notStarted cause.message)
  | .ok () =>
    let finished := m.play program arguments
    if timeout.millis ≤ finished.time.millis then .error (.timedOut timeout)
    else
      let text (bytes : List UInt8) : String := Text.ofBytesLossy ⟨bytes.toArray⟩
      let raw := text finished.output ++ text finished.errors
      .ok (.ofText (commandLine program arguments) raw (finished.status.map Int.ofNat))

end Machine

end NodeFleet
