import NodeFleet.Launch.Basic

/-!
# NodeFleet.Main — the program

Reads the command line, the environment and the files that may hold the description of the fleet,
carries out the order, and prints the report.  This build has no remote shell, so no host can be
connected to.
-/

namespace NodeFleet

/-- How the system's errors are filed. -/
def fileErrorOf : IO.Error → FileError
  | .permissionDenied .. => .accessDenied
  | .inappropriateType .. => .isADirectory
  | _ => .missing

/-- Looks at what a path leads to. -/
def lookAt (path : String) : IO (Except FileError FileNode) := do
  try
    pure (.ok (.file ⟨← IO.FS.readBinFile path, privateFileMode⟩))
  catch e =>
    match fileErrorOf e with
    | .isADirectory => pure (.ok .directory)
    | cause => pure (.error cause)
where
  /-- Permission bits are not looked at here, since no key is used. -/
  privateFileMode : Nat := 0o600

/-- The variables that the program looks at. -/
def usedVariables : List String :=
  [sourceVariable, LogFilter.variableName, "XDG_CONFIG_HOME", "HOME"]

/-- The surroundings in which the program was started: the variables it uses, and the files that may
hold the description that `explicit?` or the environment names. -/
def findSurroundings (explicit? : Option String) : IO Surroundings := do
  let environment ← usedVariables.filterMapM fun name => do
    let value? ← IO.getEnv name
    pure (value?.map fun value => (name, value))
  let named? := explicit? <|> environment.lookup sourceVariable
  let paths := named?.toList ++ Config.usualPlaces ⟨fun _ => .error .missing, environment⟩
  let found ← paths.mapM fun path => do pure (path, ← lookAt path)
  pure ⟨fun path => (found.lookup path).getD (.error .missing), environment⟩

/-- Answers a request of a procedure. -/
def answerRequest : (request : Request) → IO request.Answer
  | .connect _ => pure (.error (.misconfigured "no remote shell"))
  | .run _ _ => pure (.error .notConnected)
  | .write _ _ _ => pure (.error .notConnected)
  | .close _ => pure ()
  | .cancelled => pure false
  | .sleep length => do
    IO.sleep (UInt32.ofNat length.millis)
    pure true
  | .clock => do pure ⟨← IO.monoMsNow⟩
  | .ping _ => pure false
  | .launch _ _ => pure (.error "no programs can be started")
  | .load path => do
    match ← lookAt path with
    | .ok node => pure (node.contents.mapError FileError.message)
    | .error cause => pure (.error cause.message)

/-- Runs a program in the world. -/
def Program.perform : Program α → IO α
  | done a => pure a
  | ask request next => do (next (← answerRequest request)).perform

/-- Ends without an order being carried out. -/
def endWith (ending : Ending) : IO UInt32 := do
  IO.print ending.text
  unless ending.message.isEmpty do IO.eprintln ending.message
  pure (UInt32.ofNat ending.status)

/-- Carries out an order at a desk and prints the report. -/
def carryOut (prepared : Prepared) (desk : Desk) : IO UInt32 := do
  let began ← IO.monoMsNow
  let (report, _) ← (desk.carryOut prepared.invocation.order).perform
  let ended ← IO.monoMsNow
  IO.print (prepared.printed report ⟨ended - began⟩)
  pure (UInt32.ofNat (Launch.exitStatus report))

/-- Runs the command line. -/
def runWords (words : List String) : IO UInt32 := do
  let explicit? := (Invocation.ofWords words).toOption.bind Invocation.configPath?
  let surroundings ← findSurroundings explicit?
  match Launch.prepare surroundings words with
  | .error ending => endWith ending
  | .ok prepared =>
    match prepared.desk with
    | .error ending => endWith ending
    | .ok desk => carryOut prepared desk

end NodeFleet

/-- The program. -/
def main (words : List String) : IO UInt32 := NodeFleet.runWords words
