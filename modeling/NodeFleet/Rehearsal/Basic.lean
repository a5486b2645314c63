import NodeFleet.Program.Basic
import NodeFleet.Rehearsal.Machine
import NodeFleet.Rehearsal.Script
import NodeFleet.Text.Search

/-!
# NodeFleet.Rehearsal.Basic — a world that follows a script

A rehearsal answers every request of a program without a network: hosts behave as their script says,
waits take no time but are counted, and the operator cancels when an alarm goes off.  What reaches
the fleet is logged.

Programs are run in a rehearsal to compare what they do with recorded runs.  It is one world among
those that the theorems of this library quantify over, and no theorem is about it.

* `Rehearsal`: the state of such a world.  `Rehearsal.world`: how it answers requests.
* `LogEntry`: what reached the fleet, and after how many seconds.
-/

namespace NodeFleet

/-- What reached a host. -/
inductive FleetEvent where
  | connect (endpoint : String) (credential : Credential)
  | connectFailed (endpoint : String)
  | run (line : String)
  | write (path : String) (contents : ByteArray)
  | writeFailed (path : String)
  | close

/-- What reached a host, and when. -/
structure LogEntry where
  time : Duration
  host : String
  event : FleetEvent

/-- The sessions of a rehearsal. -/
structure SessionCount where
  opened : Nat
  closed : Nat
  /-- The hosts of the sessions that are open. -/
  current : List String
  /-- The most sessions that were open to one host at a time. -/
  most : Nat
  deriving DecidableEq, Repr, Inhabited

/-- A world that follows a script. -/
structure Rehearsal where
  script : Script
  machine : Machine
  /-- The time that was waited. -/
  waited : Duration
  /-- The times at which the operator cancels. -/
  alarms : List Duration
  isCancelled : Bool
  /-- The clock, which waits do not move. -/
  clock : Duration
  /-- What reached the fleet, the latest first. -/
  log : List LogEntry
  /-- The command lines that were sent, the latest first. -/
  sent : List String
  sessions : SessionCount

namespace SessionCount

/-- No session yet. -/
def none : SessionCount := ⟨0, 0, [], 0⟩

/-- A session to a host is opened. -/
def connect (c : SessionCount) (host : String) : SessionCount :=
  let current := host :: c.current
  ⟨c.opened + 1, c.closed, current, max c.most (current.count host)⟩

/-- A session to a host is closed. -/
def close (c : SessionCount) (host : String) : SessionCount :=
  { c with closed := c.closed + 1, current := c.current.erase host }

end SessionCount

namespace Rehearsal

/-- A rehearsal that has not begun. -/
def new (script : Script) (machine : Machine) : Rehearsal :=
  ⟨script, machine, .zero, [], false, .zero, [], [], .none⟩

/-- Logs what reached a host. -/
def record (r : Rehearsal) (host : String) (event : FleetEvent) : Rehearsal :=
  { r with log := ⟨r.waited, host, event⟩ :: r.log }

/-! ## Connections -/

/-- The next outcome of the last rule for a host, and the rules after that turn; without a rule
there is none. -/
def takeConnect (host : String) : List ConnectRule → Option (Option RemoteError × List ConnectRule)
  | [] => none
  | rule :: rest =>
    match takeConnect host rest with
    | some (outcome, rest) => some (outcome, rule :: rest)
    | none =>
      if rule.host = host then
        let (turn, left) := takeTurn rule.outcomes
        some (turn.join, { rule with outcomes := left } :: rest)
      else none

/-- How the next attempt to connect to a host ends. -/
def connectOutcome (r : Rehearsal) (host : Host) : Option RemoteError × Rehearsal :=
  if r.script.unreachable.contains host.name then
    (some (.connectionFailed (host.address ++ ": no route to host")), r)
  else
    match takeConnect host.name r.script.connects with
    | some (outcome, connects) => (outcome, { r with script := { r.script with connects } })
    | none => (none, r)

/-- Opens a session to a host. -/
def connect (r : Rehearsal) (host : Host) : Except RemoteError Unit × Rehearsal :=
  match r.connectOutcome host with
  | (some cause, r) => (.error cause, r.record host.name (.connectFailed host.endpoint))
  | (none, r) =>
    let r := r.record host.name (.connect host.endpoint host.credential)
    (.ok (), { r with sessions := r.sessions.connect host.name })

/-- Closes the session to a host. -/
def close (r : Rehearsal) (host : String) : Rehearsal :=
  let r := r.record host .close
  { r with sessions := r.sessions.close host }

/-! ## Commands -/

/-- The next answer of the last rule that fits, and the rules after that turn. -/
def takeReply (fits : ReplyRule → Bool) : List ReplyRule → Option (ScriptedReply × List ReplyRule)
  | [] => none
  | rule :: rest =>
    match takeReply fits rest with
    | some (reply, rest) => some (reply, rule :: rest)
    | none =>
      if fits rule then
        let (turn, left) := takeTurn rule.replies
        some (turn.getD (.text "" (some 0)), { rule with replies := left } :: rest)
      else none

/-- The next answer to a command: by a rule of the host, else by a rule for all hosts, else
nothing. -/
def nextReply (host line : String) (rules : List ReplyRule) : ScriptedReply × List ReplyRule :=
  let fits (whom : Option String) (rule : ReplyRule) : Bool :=
    rule.host? == whom && Text.occursIn rule.pattern line
  (takeReply (fits (some host)) rules <|> takeReply (fits .none) rules).getD
    (.text "" (some 0), rules)

/-- What a command that is sent sets off, before it is answered. -/
def setOff (r : Rehearsal) (line : String) : Rehearsal :=
  let sent := line :: r.sent
  { r with
    sent
    script := r.script.setOff line
    isCancelled := r.isCancelled || r.script.cancels.any fun rule => rule.goesOff sent }

/-- Runs a command line on a host. -/
def run (r : Rehearsal) (host line : String) : Except RemoteError Reply × Rehearsal :=
  let r := (r.record host (.run line)).setOff line
  let (reply, replies) := nextReply host line r.script.replies
  let r := { r with script := { r.script with replies } }
  match reply with
  | .text raw status => (.ok (.ofText line raw status), r)
  | .failure cause => (.error cause, r)

/-- Writes a file on a host. -/
def write (r : Rehearsal) (host path : String) (contents : ByteArray) :
    Except RemoteError Unit × Rehearsal :=
  let fits (rule : WriteRule) : Bool :=
    (rule.host?.all fun name => name == host) && Text.occursIn rule.pattern path
  match r.script.writes.find? fits with
  | some rule => (.error rule.cause, r.record host (.writeFailed path))
  | none => (.ok (), r.record host (.write path contents))

/-! ## Time and the operator -/

/-- The operator cancels. -/
def cancel (r : Rehearsal) : Rehearsal := { r with isCancelled := true }

/-- The longest that anything waits at a time: thirty years of 365 days. -/
def longestWait : Duration := .ofSeconds 946080000

/-- When a wait that begins now is over. -/
def endOfWait (r : Rehearsal) (length : Duration) : Nat :=
  r.waited.millis + min length.millis longestWait.millis

/-- The operator will cancel after a while. -/
def cancelAfter (r : Rehearsal) (length : Duration) : Rehearsal :=
  { r with alarms := ⟨r.endOfWait length⟩ :: r.alarms }

/-- Lets the alarms go off whose time has come. -/
def ringDue (r : Rehearsal) : Rehearsal :=
  { r with
    isCancelled := r.isCancelled || r.alarms.any fun alarm => alarm.millis ≤ r.waited.millis
    alarms := r.alarms.filter fun alarm => r.waited.millis < alarm.millis }

/-- The earliest alarm before a time. -/
def alarmBefore? (r : Rehearsal) (time : Nat) : Option Nat :=
  ((r.alarms.map Duration.millis).filter (· < time)).min?

/-- Waits, until the end or until an alarm goes off.  An alarm whose time has come goes off only
when there is something to wait for. -/
def sleep (r : Rehearsal) (length : Duration) : Bool × Rehearsal :=
  let stop := r.endOfWait length
  if r.isCancelled then (false, r)
  else
    match r.alarmBefore? stop with
    | some alarm => (false, { r with waited := ⟨max r.waited.millis alarm⟩ }.ringDue)
    | none => (true, { r with waited := ⟨stop⟩ })

/-- Time passes on the clock. -/
def passTime (r : Rehearsal) (length : Duration) : Rehearsal :=
  { r with clock := ⟨r.clock.millis + length.millis⟩ }

/-! ## All requests -/

/-- How a rehearsal answers requests. -/
def world : World Rehearsal := fun request r =>
  match request with
  | .connect host => r.connect host
  | .run host command => r.run host.name command.line
  | .write host path contents => r.write host.name path contents
  | .close host => ((), r.close host.name)
  | .cancelled => (r.isCancelled, r)
  | .sleep length => r.sleep length
  | .clock => (r.clock, r)
  | .ping address => (r.machine.ping address, r)
  | .launch program arguments =>
    ((r.machine.launch program arguments).mapError StartError.message, r)
  | .load path => ((r.machine.surroundings.read path).mapError FileError.message, r)

/-- Runs a program in the rehearsal. -/
def perform (r : Rehearsal) (program : Program α) : α × Rehearsal := program.run world r

/-- What has reached the fleet since the log was last taken, the earliest first. -/
def takeLog (r : Rehearsal) : List LogEntry × Rehearsal := (r.log.reverse, { r with log := [] })

end Rehearsal

end NodeFleet
