import NodeFleet.Daemon.NodeConfig
import NodeFleet.Daemon.Reading
import NodeFleet.Program.Basic

/-!
# NodeFleet.Program.Session — steps on one host

A step is a program that may fail.  `withSession` is the only place that opens a session: it closes
the session after its body, however the body ended, so that sessions never overlap.

* `exchange`, `expect`, `expectToken`: a command in the open session, its answer as it is, read, or
  as a generated word.
* `query`, `queryToken`: the same in a session of their own.
* `settle`: a fixed wait that fails once the operator has cancelled.
-/

namespace NodeFleet

/-- A program that may fail. -/
abbrev Step (α : Type) : Type := ExceptT FleetError Program α

namespace Step

/-- A step without a request. -/
def ofExcept (result : Except FleetError α) : Step α := ExceptT.mk (pure result)

/-- A step whose request has failed is a failed step, with the cause worded by `wrap`. -/
def ofRequest (wrap : RemoteError → FleetError) (p : Program (Except RemoteError α)) : Step α :=
  ExceptT.mk ((Except.mapError wrap) <$> p)

/-- The result of a step, good or bad. -/
def attempt (step : Step α) : Program (Except FleetError α) := step.run

/-- A step that hands on its result, good or bad, and so never fails. -/
def caught (step : Step α) : Step (Except FleetError α) := ExceptT.lift step.attempt

end Step

/-- Runs `body` between the opening and the closing of a session to `host`; without a session it
does not run. -/
def withSession (host : Host) (body : Program α) : Step α := do
  Step.ofRequest (.connectFailure host.name) (Program.connect host)
  let result ← body
  Program.close host
  pure result

/-- A step in a session of its own. -/
def inSession (host : Host) (step : Step α) : Step α := do
  let result ← withSession host step.attempt
  Step.ofExcept result

/-- The answer to a command in the open session. -/
def exchange (host : Host) (command : Command) : Step Reply :=
  Step.ofRequest (.session host.name) (Program.send host command)

/-- Why a command counts as rejected, if its answer was not as expected. -/
def Reading.refusal? : Reading → Option String
  | rejected reason => some reason
  | unrecognized text => some ("unrecognized response: " ++ Text.quoted text)
  | _ => none

/-- What the answer to a command says; an answer that refuses or cannot be read is a failure. -/
def expect (host : Host) (command : Command) (kind : ReplyKind) : Step Reading := do
  let reply ← exchange host command
  let reading := kind.read reply
  match reading.refusal? with
  | some reason => throw (.commandRejected host.name command.line reason)
  | none => pure reading

/-- The word that a command generates. -/
def expectToken (host : Host) (command : Command) : Step String := do
  let reply ← exchange host command
  match token reply with
  | .ok word => pure word
  | .error reason => throw (.commandRejected host.name command.line reason)

/-- What the answer to a command says, asked in a session of its own. -/
def query (host : Host) (command : Command) (kind : ReplyKind) : Step Reading :=
  inSession host (expect host command kind)

/-- The word that a command generates, asked in a session of its own. -/
def queryToken (host : Host) (command : Command) : Step String :=
  inSession host (expectToken host command)

/-- How a failed write is filed: a refusal by the host is one of its own kind. -/
def writeFailure (host : Host) : RemoteError → FleetError
  | .transferRefused _ reason => .transferFailure host.name reason
  | cause => .session host.name cause

/-- Writes a file in the open session. -/
def writeFile (host : Host) (path : String) (contents : ByteArray) : Step Unit :=
  Step.ofRequest (writeFailure host) (Program.write host path contents)

/-- Writes a text file into the directory of the node configuration, which is made first. -/
def writeConfigFile (host : Host) (daemon : Daemon) (path contents : String) : Step Unit := do
  let _ ← exchange host ⟨daemon, .makeConfigDir⟩
  writeFile host path contents.toUTF8

/-- Writes the node configuration of a host. -/
def writeNodeConfig (host : Host) (daemon : Daemon) (conf : NodeConfig) : Step Unit :=
  writeConfigFile host daemon daemon.confPath conf.render

/-- Waits; fails once the operator has cancelled. -/
def settle (delay : Duration) : Step Unit := do
  if ← Program.isCancelled then throw .cancelled
  if delay ≠ .zero then
    unless ← Program.sleep delay do throw .cancelled

end NodeFleet
