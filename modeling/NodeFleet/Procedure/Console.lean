import NodeFleet.Procedure.Conduct

/-!
# NodeFleet.Procedure.Console — opening a console for each host

A console is a terminal on the operator's machine that runs the cloud provider's remote shell.  It
is left for the operator to close; the hosts are sent nothing.
-/

namespace NodeFleet.Fleet

/-- The words of the command that opens a remote shell on a host. -/
def consoleWords (project zone name : String) : List String :=
  ["gcloud", "compute", "--project", project, "ssh", "--zone", zone, name]

/-- Starts a local program; the result is its command line. -/
def launch (program : String) (arguments : List String) : Step String := do
  match ← (ExceptT.lift (Program.launch program arguments) : Step (Except String Unit)) with
  | .ok _ => pure (Text.join " " (program :: arguments))
  | .error reason => throw (.invalid (RemoteError.notStarted (program ++ ": " ++ reason)).message)

/-- The report on opening consoles. -/
def openConsoles (fleet : Fleet) (hosts : List Host) : Program Report :=
  Conduct.conclude .openConsoles do
    match fleet.config.project?, fleet.config.zone? with
    | some project, some zone =>
      match fleet.config.terminal with
      | [] => Conduct.abort "select" (.invalid "terminal command is empty")
      | terminal :: wrapper =>
        let console (host : Host) : Step String :=
          launch terminal (wrapper ++ consoleWords project zone host.name)
        Conduct.eachHost "launch" hosts console some
    | _, _ => Conduct.abort "select" (.invalid "consoles need both project and zone")

end NodeFleet.Fleet
