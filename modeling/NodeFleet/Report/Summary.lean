import NodeFleet.Amount.Shortest
import NodeFleet.Duration
import NodeFleet.Report.Basic
import NodeFleet.Text.Search

/-!
# NodeFleet.Report.Summary — a report as an operator reads it

* `Report.summaryWith`, `Report.summary`: the summary, with a text for how long it took, or with the
  time in seconds.

The first line has the procedure, how it ended and how long it took; then, if there are any, a line
for each result, each snapshot and each transfer.  Names are in columns of 12 and addresses in
columns of 16 characters.
-/

namespace NodeFleet

/-- How a procedure ended, in words. -/
def Report.outcomeText (r : Report) : String :=
  match r.outcome with
  | .running => "running"
  | .completed => if r.succeeded then "completed" else "completed with failures"
  | .aborted stage _ error => "aborted at " ++ stage ++ ": " ++ error

/-- A result in one word. -/
def HostOutcome.stateText (h : HostOutcome) : String :=
  if h.ok then "ok" else if h.hostDown then "DOWN" else "FAILED"

/-- The line of a result. -/
def HostOutcome.summaryLine (h : HostOutcome) : String :=
  "  " ++ Text.padTo 12 h.host ++ " " ++ Text.padTo 16 h.address ++ " " ++ h.stateText ++
    (match h.error? with
     | some error => "  " ++ error
     | none => "")

/-- What a snapshot saw, part by part. -/
def Snapshot.summaryParts (s : Snapshot) : List String :=
  (s.uptime?.map Text.trim).toList ++
    (s.services.map fun c => c.name ++ (if c.present then " up" else " missing")) ++
    (s.daemonRunning?.map fun up => if up then "daemon running" else "daemon stopped").toList ++
    (s.balance?.map fun b => "balance " ++ b.toText).toList ++
    (s.ping?.map fun alive => if alive then "ping ok" else "no ping").toList ++ s.notes

/-- The line of a snapshot. -/
def Snapshot.summaryLine (s : Snapshot) : String :=
  if s.reachable then "  " ++ Text.padTo 12 s.host ++ " " ++ Text.join ", " s.summaryParts
  else "  " ++ Text.padTo 12 s.host ++ " unreachable"

/-- The line of a transfer. -/
def Transfer.summaryLine (t : Transfer) : String :=
  "  sent " ++ t.amount.toText ++ " to " ++ t.destination ++ " (" ++ t.address ++ "): " ++ t.hash

/-- The count of good results, unless there are no results. -/
def Report.hostLines (r : Report) : List String :=
  if r.hosts.isEmpty then []
  else
    let good := (r.hosts.filter HostOutcome.ok).length
    ("hosts: " ++ toString good ++ "/" ++ toString r.hosts.length ++ " ok") ::
      r.hosts.map HostOutcome.summaryLine

/-- The first line, with how long it took. -/
def Report.headLine (r : Report) (took : String) : String :=
  r.procedure.toText ++ ": " ++ r.outcomeText ++ " (" ++ took ++ ")"

/-- The whole summary, each line with a line feed after it. -/
def Report.summaryWith (r : Report) (took : String) : String :=
  String.join
    ((r.headLine took :: r.hostLines ++ r.snapshots.map Snapshot.summaryLine ++
      r.transfers.map Transfer.summaryLine).map (· ++ "\n"))

/-- Seconds with one decimal. -/
def elapsedText (elapsed : Duration) : String :=
  (Amount.ofRatio false elapsed.millis 1000).toFixed 1 ++ "s"

/-- The whole summary; a report that has not ended has taken no time. -/
def Report.summary (r : Report) (elapsed : Duration) : String :=
  r.summaryWith (elapsedText (if r.finished then elapsed else .zero))

end NodeFleet
