import NodeFleet.Procedure.Conduct

/-!
# NodeFleet.Procedure.Sweep — what every host looks like

A sweep looks at one host after the other.  What it sees of a host is noted down at once, so a
session that breaks leaves what was seen before; a host that cannot be reached leaves an empty
snapshot, and the sweep goes on.
-/

namespace NodeFleet

/-- A look at a host: a step that notes down what it sees. -/
abbrev Inspection (α : Type) : Type := ExceptT FleetError (StateT Snapshot Program) α

namespace Inspection

/-- The answer to a command in the open session. -/
def ask (host : Host) (command : Command) : Inspection Reply :=
  ExceptT.mk (liftM (exchange host command).attempt)

/-- Notes something down. -/
def note (change : Snapshot → Snapshot) : Inspection Unit := modify change

end Inspection

namespace Snapshot

/-- Notes what an answer says of the daemon. -/
def noteDaemon (s : Snapshot) : Reading → Snapshot
  | .running true => { s with daemonRunning? := some true }
  | .running false => { s with daemonRunning? := some false }.addDefect "daemon not running"
  | _ => s.addDefect "daemon status unreadable"

/-- Notes what the answer on the masternode status says: an error that is not the daemon's absence
is a defect of a masternode, and only worth knowing of any other host. -/
def noteMasternode (s : Snapshot) : Reading → Snapshot
  | .rejected _ =>
    let s := { s with daemonRunning? := some true }
    if s.role = .masternode then s.addDefect "not an active masternode"
    else s.addNote "not an active masternode"
  | reading => s.noteDaemon reading

/-- Notes whether a process was found. -/
def noteService (s : Snapshot) (name : String) (found : Bool) : Snapshot :=
  (if found then s else s.addDefect (name ++ " not running")).addService name found

/-- Notes the balance, if the answer has one. -/
def noteBalance (s : Snapshot) : Reading → Snapshot
  | .balance amount => { s with balance? := some amount }
  | _ => s

/-- Notes whether the host answers a ping. -/
def notePing (s : Snapshot) (alive : Bool) : Snapshot :=
  { if alive then s else s.addDefect "no ping reply" with ping? := some alive }

/-- What is wrong with the host, in one text. -/
def verdict (s : Snapshot) : String :=
  if s.defects.isEmpty then "healthy" else Text.join "; " s.defects

end Snapshot

namespace Fleet

/-- Looks at the main host: its services and its daemon. -/
def inspectMain (fleet : Fleet) (host : Host) : Inspection Unit := do
  fleet.config.mainServices.forM fun name => do
    let reply ← Inspection.ask host (fleet.command (.findProcess name))
    Inspection.note (·.noteService name (processFound reply))
  let reply ← Inspection.ask host (fleet.command .status)
  Inspection.note fun s =>
    { s with daemonStatus? := some reply.text }.noteDaemon (ReplyKind.status.read reply)

/-- Looks at a host other than the main one: its masternode status and its balance. -/
def inspectOther (fleet : Fleet) (host : Host) : Inspection Unit := do
  let reply ← Inspection.ask host (fleet.command .masternodeStatus)
  Inspection.note fun s =>
    let s := { s with masternodeStatus? := some reply.text }
    s.noteMasternode (ReplyKind.masternodeStatus.read reply)
  let reply ← Inspection.ask host (fleet.command .balance)
  Inspection.note (·.noteBalance (ReplyKind.balance.read reply))

/-- Looks at a host in its open session. -/
def inspect (fleet : Fleet) (host : Host) : Inspection Unit := do
  let reply ← Inspection.ask host (fleet.command .uptime)
  Inspection.note ({ · with uptime? := reply.firstLine? })
  if host.role = .main then fleet.inspectMain host else fleet.inspectOther host

/-- Looks at a host in a session of its own; the result comes with what was seen. -/
def visit (fleet : Fleet) (host : Host) : Program (Except FleetError Unit × Snapshot) := do
  let seen := { Snapshot.unseen host with reachable := true }
  match ← (withSession host ((fleet.inspect host).run.run seen)).attempt with
  | .ok visited => pure visited
  | .error e => pure (.error e, .unseen host)

/-- Pings the main host, where the fleet is to be pinged. -/
def pinged (fleet : Fleet) (host : Host) (s : Snapshot) : Program Snapshot :=
  if host.role = .main ∧ fleet.pings then s.notePing <$> Program.ping host.address else pure s

/-- Looks at a host and enters what was seen. -/
def sweepHost (fleet : Fleet) (host : Host) : Conduct Unit := do
  let (result, seen) ← (liftM (fleet.visit host) : Conduct _)
  let snapshot ← (liftM (fleet.pinged host seen) : Conduct _)
  Conduct.settled "inspect" host (fun _ => some snapshot.verdict) result
  Conduct.enter (·.addSnapshot snapshot)

/-- The wait between two hosts of a sweep. -/
def sweepPause (fleet : Fleet) : Duration := .ofSeconds fleet.config.timing.sweepPause

/-- Looks at one host after the other, with a wait between each two. -/
def sweepAll (fleet : Fleet) : List Host → Conduct Unit
  | [] => pure ()
  | host :: rest => do
    fleet.sweepHost host
    rest.forM fun next => do
      Conduct.need "sweep-pause" (settle fleet.sweepPause)
      fleet.sweepHost next

/-- The report on what every host looks like. -/
def sweep (fleet : Fleet) (hosts : List Host) : Program Report :=
  Conduct.conclude .statusSweep (fleet.sweepAll hosts)

end Fleet

end NodeFleet
