import NodeFleet.Local.Path
import NodeFleet.Procedure.Conduct

/-!
# NodeFleet.Procedure.Rollout — installing binaries

All binaries are read before any host is touched.  On each host every binary is first written beside
its place; only when all of them have arrived are they put into their places, one after the other.
-/

namespace NodeFleet

/-- A file of the operator's machine, ready to be installed. -/
structure Binary where
  name : String
  contents : ByteArray

namespace Fleet

/-- Reads a binary. -/
def readBinary (path : String) : Step Binary := do
  match Path.fileName? path with
  | none => throw (.invalid ("binary path " ++ path ++ " has no file name"))
  | some name =>
    match ← (ExceptT.lift (Program.load path) : Step (Except String ByteArray)) with
    | .ok contents => pure ⟨name, contents⟩
    | .error reason => throw (.invalid ("cannot read " ++ path ++ ": " ++ reason))

/-- The place of an installed binary. -/
def installPath (fleet : Fleet) (binary : Binary) : String :=
  Text.trimEnd '/' fleet.config.installDir ++ "/" ++ binary.name

/-- Writes a binary beside its place. -/
def stageBinary (fleet : Fleet) (host : Host) (binary : Binary) : Step Unit :=
  writeFile host (stagedPath (fleet.installPath binary)) binary.contents

/-- A binary that the host does not put into its place is a failed transfer. -/
def swapFailure (host : Host) : FleetError → FleetError
  | .commandRejected _ _ reason => .transferFailure host.name reason
  | e => e

/-- Puts a binary into its place. -/
def swapBinary (fleet : Fleet) (host : Host) (binary : Binary) : Step Unit := do
  match ← (expect host (fleet.command (.swapIn (fleet.installPath binary))) .fileChange).caught with
  | .ok _ => pure ()
  | .error e => throw (swapFailure host e)

/-- Installs the binaries on a host. -/
def install (fleet : Fleet) (binaries : List Binary) (host : Host) : Step Unit :=
  inSession host do
    binaries.forM (fleet.stageBinary host)
    binaries.forM (fleet.swapBinary host)

/-- The report on installing the configured binaries on hosts. -/
def installBinaries (fleet : Fleet) (hosts : List Host) : Program Report :=
  Conduct.conclude .installBinaries do
    let binaries ← Conduct.need "read-binaries" (fleet.config.binaries.mapM readBinary)
    Conduct.eachHost "install" hosts (fleet.install binaries) fun _ =>
      some (toString binaries.length ++ " binaries")

end Fleet

end NodeFleet
