import NodeFleet.Fleet.Basic
import NodeFleet.Program.Session
import NodeFleet.Report.Basic

/-!
# NodeFleet.Procedure.Conduct — a procedure writes its report while it runs

A `Conduct` is a program that carries the report of its procedure along.  It ends early only by an
abort, whose report is then the final one.

* `need`: a step without which the procedure cannot go on.  `attempt`: a step whose failure is
  looked at.
* `eachHost`: one step on each of several hosts, with a result for each; only a cancellation ends it
  early.
* `Conduct.conclude`: the final report.
-/

namespace NodeFleet

/-- A program that writes a report; an abort ends it with the aborted report. -/
abbrev Conduct (α : Type) : Type := StateT Report (ExceptT Report Program) α

/-- Whether a step was cut short by the operator. -/
def wasCancelled : Except FleetError α → Bool
  | .error .cancelled => true
  | _ => false

namespace Conduct

/-- Enters something in the report. -/
def enter (change : Report → Report) : Conduct Unit := modify change

/-- Ends the procedure at a stage. -/
def abort (stage : String) (error : FleetError) : Conduct α := do
  throw ((← get).abort stage error)

/-- The result of a step, good or bad. -/
def attempt (step : Step α) : Conduct (Except FleetError α) := liftM step.attempt

/-- A step without which the procedure cannot go on: its failure ends the procedure at the given
stage. -/
def need (stage : String) (step : Step α) : Conduct α := do
  match ← attempt step with
  | .ok a => pure a
  | .error e => abort stage e

/-- Enters the end of a stage on a host that went well. -/
def passed (stage : String) (host : Host) (detail? : Option String) : Conduct Unit :=
  enter fun r => r.stageOk stage (some host) detail?

/-- Enters the end of a stage on a host, and the result that it is for the host. -/
def settled (stage : String) (host : Host) (detail : α → Option String)
    (result : Except FleetError α) :
    Conduct Unit :=
  enter fun r => (r.stageResult stage (some host) detail result).hostResult host result

/-- Takes a step on each host in turn, and enters what comes of it; a cancellation ends the
procedure. -/
def eachHost (stage : String) (hosts : List Host) (step : Host → Step α)
    (detail : α → Option String) :
    Conduct Unit :=
  hosts.forM fun host => do
    let result ← attempt (step host)
    if wasCancelled result then abort stage .cancelled
    settled stage host detail result

/-- Conducts a part of the procedure in a session that it needs; an abort closes the session too. -/
def inSession (stage : String) (host : Host) (body : Conduct α) : Conduct α := do
  let begun ← get
  match ← need stage (withSession host (body.run begun).run) with
  | .ok (a, report) => do
    set report
    pure a
  | .error report => throw report

/-- The final report of a procedure. -/
def conclude (procedure : Procedure) (conduct : Conduct Unit) : Program Report := do
  match ← (conduct.run (Report.new procedure)).run with
  | .ok (_, report) => pure report.finish
  | .error report => pure report

end Conduct

end NodeFleet
