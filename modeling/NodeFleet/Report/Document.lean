import NodeFleet.Document.Value
import NodeFleet.Report.Basic

/-!
# NodeFleet.Report.Document — a report as a document

`Report.toValue` has every field of a report; what is missing is null.
-/

namespace NodeFleet

/-- A stage as a table. -/
def StageRecord.toValue (s : StageRecord) : Value :=
  .table [("stage", .text s.stage), ("host", .orNull .text s.host?), ("ok", .bool s.ok),
    ("detail", .orNull .text s.detail?)]

/-- A result as a table. -/
def HostOutcome.toValue (h : HostOutcome) : Value :=
  .table [("host", .text h.host), ("address", .text h.address), ("ok", .bool h.ok),
    ("host_down", .bool h.hostDown), ("error", .orNull .text h.error?)]

/-- A process that was looked for, as a table. -/
def ServiceCheck.toValue (c : ServiceCheck) : Value :=
  .table [("name", .text c.name), ("present", .bool c.present)]

/-- A snapshot as a table. -/
def Snapshot.toValue (s : Snapshot) : Value :=
  .table [("host", .text s.host), ("address", .text s.address), ("role", .text s.role.toText),
    ("reachable", .bool s.reachable), ("uptime", .orNull .text s.uptime?),
    ("services", .list (s.services.map ServiceCheck.toValue)),
    ("daemon_running", .orNull .bool s.daemonRunning?),
    ("daemon_status", .orNull .text s.daemonStatus?),
    ("masternode_status", .orNull .text s.masternodeStatus?), ("balance", .orNull .real s.balance?),
    ("ping", .orNull .bool s.ping?), ("defects", .texts s.defects), ("notes", .texts s.notes)]

/-- A transfer as a table. -/
def Transfer.toValue (t : Transfer) : Value :=
  .table [("destination", .text t.destination), ("address", .text t.address),
    ("amount", .real t.amount), ("tx_hash", .text t.hash)]

/-- How a procedure stands, as a table. -/
def Outcome.toValue : Outcome → Value
  | running => .table [("status", .text "running")]
  | completed => .table [("status", .text "completed")]
  | aborted stage kind error =>
    .table [("status", .text "aborted"), ("stage", .text stage), ("kind", .text kind.toText),
      ("error", .text error)]

/-- A report as a table. -/
def Report.toValue (r : Report) : Value :=
  .table [("procedure", .text r.procedure.toText), ("outcome", r.outcome.toValue),
    ("stages", .list (r.stages.map StageRecord.toValue)),
    ("hosts", .list (r.hosts.map HostOutcome.toValue)),
    ("snapshots", .list (r.snapshots.map Snapshot.toValue)),
    ("transfers", .list (r.transfers.map Transfer.toValue))]

end NodeFleet
