import NodeFleet.Amount.Basic
import NodeFleet.Fleet.Error

/-!
# NodeFleet.Report.Basic — the record of one run of a procedure

A report is written while its procedure runs: stages as they end, results of hosts, snapshots, and
transfers.  It ends with `abort`, which names the stage and the failure, or with `finish`; a report
that was aborted stays so.  Times are not kept, neither of the procedure nor of its stages.

* `Report.succeeded`: the procedure came to its end and every result is good.
* `Report.abortedAt?`: the stage and the kind of failure of an aborted report.
-/

namespace NodeFleet

/-- The procedures that the fleet knows. -/
inductive Procedure where
  | statusSweep
  | stopWallets
  | startWallets
  | restartWallets
  | generateStakingConfig
  | promoteMasternodes
  | coldRestart
  | installBinaries
  | transferFunds
  | awaitBalance
  | reboot
  | openConsoles
  deriving DecidableEq, Repr, Inhabited

/-- The name of a procedure. -/
def Procedure.toText : Procedure → String
  | statusSweep => "status-sweep"
  | stopWallets => "stop-wallets"
  | startWallets => "start-wallets"
  | restartWallets => "restart-wallets"
  | generateStakingConfig => "generate-staking-config"
  | promoteMasternodes => "promote-masternodes"
  | coldRestart => "cold-restart"
  | installBinaries => "install-binaries"
  | transferFunds => "transfer-funds"
  | awaitBalance => "await-balance"
  | reboot => "reboot"
  | openConsoles => "open-consoles"

/-- Every procedure. -/
def Procedure.all : List Procedure :=
  [statusSweep, stopWallets, startWallets, restartWallets, generateStakingConfig,
    promoteMasternodes, coldRestart, installBinaries, transferFunds, awaitBalance, reboot,
    openConsoles]

/-- A procedure is found by its name: no two have the same. -/
theorem Procedure.find?_all (p : Procedure) :
    all.find? (fun q => q.toText == p.toText) = some p := by
  cases p <;> decide

/-- One stage that has ended, without the time of its end. -/
structure StageRecord where
  stage : String
  host? : Option String
  ok : Bool
  detail? : Option String
  deriving DecidableEq, Repr, Inhabited

/-- The result for one host, or for an address that is no host. -/
structure HostOutcome where
  host : String
  address : String
  ok : Bool
  hostDown : Bool
  error? : Option String
  deriving DecidableEq, Repr, Inhabited

/-- Whether a process was found. -/
structure ServiceCheck where
  name : String
  present : Bool
  deriving DecidableEq, Repr, Inhabited

/-- What a sweep saw of a host. -/
structure Snapshot where
  host : String
  address : String
  role : Role
  reachable : Bool
  uptime? : Option String
  services : List ServiceCheck
  daemonRunning? : Option Bool
  daemonStatus? : Option String
  masternodeStatus? : Option String
  balance? : Option Amount
  ping? : Option Bool
  /-- What is wrong with the host. -/
  defects : List String
  /-- What is worth knowing and not wrong. -/
  notes : List String
  deriving DecidableEq, Repr, Inhabited

namespace Snapshot

/-- A host of which nothing was seen. -/
def unseen (host : Host) : Snapshot :=
  ⟨host.name, host.address, host.role, false, none, [], none, none, none, none, none, [], []⟩

/-- Adds something that is wrong. -/
def addDefect (s : Snapshot) (defect : String) : Snapshot :=
  { s with defects := s.defects ++ [defect] }

/-- Adds something that is worth knowing. -/
def addNote (s : Snapshot) (note : String) : Snapshot := { s with notes := s.notes ++ [note] }

/-- Adds a process that was looked for. -/
def addService (s : Snapshot) (name : String) (present : Bool) : Snapshot :=
  { s with services := s.services ++ [⟨name, present⟩] }

end Snapshot

/-- A sum that was sent from the main wallet. -/
structure Transfer where
  destination : String
  address : String
  amount : Amount
  hash : String
  deriving DecidableEq, Repr, Inhabited

/-- How a procedure stands. -/
inductive Outcome where
  | running
  | completed
  | aborted (stage : String) (kind : ErrorKind) (error : String)
  deriving DecidableEq, Repr, Inhabited

/-- The record of one run of a procedure, without the times of its beginning and its end. -/
structure Report where
  procedure : Procedure
  outcome : Outcome
  /-- Whether the procedure has ended, well or not. -/
  finished : Bool
  stages : List StageRecord
  hosts : List HostOutcome
  snapshots : List Snapshot
  transfers : List Transfer
  deriving DecidableEq, Repr, Inhabited

namespace Report

/-- The empty report of a procedure that has begun. -/
def new (procedure : Procedure) : Report := ⟨procedure, .running, false, [], [], [], []⟩

/-- Enters the end of a stage. -/
def addStage (r : Report) (record : StageRecord) : Report :=
  { r with stages := r.stages ++ [record] }

/-- Enters a stage that went well. -/
def stageOk (r : Report) (stage : String) (host? : Option Host) (detail? : Option String) :
    Report :=
  r.addStage ⟨stage, host?.map Host.name, true, detail?⟩

/-- Enters a stage that failed without ending the procedure. -/
def stageFailed (r : Report) (stage : String) (host? : Option Host) (error : FleetError) : Report :=
  r.addStage ⟨stage, host?.map Host.name, false, some error.message⟩

/-- Enters a stage with its result; `detail` describes a good one. -/
def stageResult (r : Report) (stage : String) (host? : Option Host) (detail : α → Option String) :
    Except FleetError α → Report
  | .ok a => r.stageOk stage host? (detail a)
  | .error e => r.stageFailed stage host? e

/-- The result for a target. -/
def outcomeOf (name address : String) : Except FleetError α → HostOutcome
  | .ok _ => ⟨name, address, true, false, none⟩
  | .error e => ⟨name, address, false, e.isHostDown, some e.message⟩

/-- Enters the result for something that need not be a host. -/
def targetResult (r : Report) (name address : String) (result : Except FleetError α) : Report :=
  { r with hosts := r.hosts ++ [outcomeOf name address result] }

/-- Enters the result for a host. -/
def hostResult (r : Report) (host : Host) (result : Except FleetError α) : Report :=
  r.targetResult host.name host.address result

/-- Enters what a sweep saw of a host. -/
def addSnapshot (r : Report) (s : Snapshot) : Report := { r with snapshots := r.snapshots ++ [s] }

/-- Enters a sum that was sent. -/
def addTransfer (r : Report) (t : Transfer) : Report := { r with transfers := r.transfers ++ [t] }

/-- Ends the procedure at a stage that failed. -/
def abort (r : Report) (stage : String) (error : FleetError) : Report :=
  { r.addStage ⟨stage, none, false, some error.message⟩ with
    outcome := .aborted stage error.kind error.message
    finished := true }

/-- Ends the procedure; one that was aborted stays aborted. -/
def finish (r : Report) : Report :=
  { r with
    outcome := if r.outcome = .running then .completed else r.outcome
    finished := true }

/-- Whether the procedure came to its end with a good result for every target. -/
def succeeded (r : Report) : Bool := r.outcome == .completed && r.hosts.all HostOutcome.ok

/-- Where and how the procedure was aborted. -/
def abortedAt? (r : Report) : Option (String × ErrorKind) :=
  match r.outcome with
  | .aborted stage kind _ => some (stage, kind)
  | _ => none

/-- The first result for the target of that name. -/
def host? (r : Report) (name : String) : Option HostOutcome := r.hosts.find? fun h => h.host == name

end Report

end NodeFleet
