import NodeFleet.Config.Source
import NodeFleet.Launch.Arguments
import NodeFleet.Launch.LogFilter
import NodeFleet.Report.Document
import NodeFleet.Report.Summary
import NodeFleet.Document.Printer

/-!
# NodeFleet.Launch.Basic — from the command line to an order, and from a report to what is printed

* `Launch.prepare`: reads the command line, finds the description of the fleet and checks the log
  filter, in this order.
* `Prepared.desk`: the desk that carries out the order.
* `Ending`: what ends the program without an order being carried out.
* `Prepared.printed`, `exitStatus`: what is printed of a report, and how the program ends.
-/

namespace NodeFleet

/-- What is said about the program itself. -/
def versionLine : String := "fleetboot 0.1.0\n"

/-- What ends the program before an order is carried out. -/
inductive Ending where
  | detour (d : Detour)
  | noSource (cause : SourceError)
  | badLogFilter (fault : Directive.Fault)
  | badConfig (cause : ConfigError)
  deriving DecidableEq, Repr, Inhabited

namespace Ending

/-- How the program ends: a log filter with a torn piece has a status of its own. -/
def status : Ending → Nat
  | detour .misuse => 2
  | detour _ => 0
  | badLogFilter .torn => 101
  | _ => 1

/-- What is printed. -/
def text : Ending → String
  | detour .version => versionLine
  | _ => ""

/-- What is said of the failure. -/
def message : Ending → String
  | detour _ => ""
  | noSource cause => cause.message
  | badLogFilter _ => "invalid log filter"
  | badConfig cause => cause.message

end Ending

/-- An order with the description of its fleet. -/
structure Prepared where
  invocation : Invocation
  config : Config
  /-- The path of the description. -/
  source : String

namespace Launch

/-- What a command line asks for, with the description of its fleet. -/
def prepare (s : Surroundings) (words : List String) : Except Ending Prepared := do
  let invocation ← (Invocation.ofWords words).mapError .detour
  let (config, source) ← (Config.discover s invocation.configPath?).mapError .noSource
  (LogFilter.check
    (LogFilter.inForce (s.valueOf? LogFilter.variableName) config.logLevel)).mapError .badLogFilter
  pure ⟨invocation, config, source⟩

/-- How the program ends after a report. -/
def exitStatus (report : Report) : Nat := if report.succeeded then 0 else 1

end Launch

namespace Prepared

/-- The desk of the fleet, which pings its main host. -/
def desk (p : Prepared) : Except Ending Desk :=
  ((Fleet.ofConfig p.config true).map Desk.new).mapError .badConfig

/-- How long a command may take, in seconds. -/
def commandTimeout (p : Prepared) : Nat := p.config.timing.commandTimeout

/-- What is printed of a report: the whole of it as a document, or its summary. -/
def printed (p : Prepared) (report : Report) (elapsed : Duration) : String :=
  if p.invocation.json then Json.pretty report.toValue ++ "\n" else report.summary elapsed

end Prepared

end NodeFleet
