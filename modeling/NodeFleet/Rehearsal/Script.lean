import NodeFleet.Remote.Error
import NodeFleet.Text.Search

/-!
# NodeFleet.Rehearsal.Script — how a rehearsed fleet behaves

A script says how commands are answered, which hosts cannot be reached, which writes fail, and what
happens when a certain command is sent.  Answers are used in turn, and the last one for ever.  The
world of `NodeFleet.Rehearsal.Basic` follows one.

* `ReplyRule`: the answers to the commands of one host, or of all hosts, that contain a pattern.
* `Script.healthy`: a fleet on which everything goes well.
* `Script.setOff`: what a command changes in the script.
* `takeTurn`: the answer whose turn it is, and the answers that are left.
-/

namespace NodeFleet

/-- An answer of a host: a text with an exit status, or a failure. -/
inductive ScriptedReply where
  | text (raw : String) (status : Option Int)
  | failure (cause : RemoteError)
  deriving DecidableEq, Repr, Inhabited

/-- The answers to commands that contain a pattern. -/
structure ReplyRule where
  /-- The host that the rule is for; nothing for all hosts. -/
  host? : Option String
  pattern : String
  replies : List ScriptedReply
  deriving DecidableEq, Repr, Inhabited

/-- A write to a path that contains the pattern fails. -/
structure WriteRule where
  host? : Option String
  pattern : String
  cause : RemoteError
  deriving DecidableEq, Repr, Inhabited

/-- Once a command that contains the pattern is sent anywhere, the host cannot be reached. -/
structure Outage where
  pattern : String
  host : String
  deriving DecidableEq, Repr, Inhabited

/-- When the `count`-th command that contains the pattern is sent, to whatever hosts, the operator
cancels. -/
structure CancelRule where
  pattern : String
  count : Nat
  deriving DecidableEq, Repr, Inhabited

/-- Whether the operator cancels at the latest of the commands that were sent, which comes first. -/
def CancelRule.goesOff (rule : CancelRule) (sent : List String) : Bool :=
  (sent.head?.any fun line => Text.occursIn rule.pattern line) &&
    (sent.filter fun line => Text.occursIn rule.pattern line).length == rule.count

/-- How the attempts to connect to a host end, in turn; nothing for those that succeed. -/
structure ConnectRule where
  host : String
  outcomes : List (Option RemoteError)
  deriving DecidableEq, Repr, Inhabited

/-- How a fleet behaves.  Of two rules for the same, the later one in the list of replies and
connections counts. -/
structure Script where
  replies : List ReplyRule
  unreachable : List String
  connects : List ConnectRule
  writes : List WriteRule
  outages : List Outage
  cancels : List CancelRule
  deriving DecidableEq, Repr, Inhabited

/-- The item whose turn it is, and the items for the turns to come: the last item stays. -/
def takeTurn : List α → Option α × List α
  | [] => (none, [])
  | [x] => (some x, [x])
  | x :: rest => (some x, rest)

namespace Script

/-- A fleet without a script: every command is answered with nothing. -/
def silent : Script := ⟨[], [], [], [], [], []⟩

/-- A rule for all hosts with one answer. -/
def always (pattern raw : String) : ReplyRule := ⟨none, pattern, [.text raw (some 0)]⟩

/-- The answers of a fleet on which everything goes well. -/
def healthyReplies : List ReplyRule :=
  [always "uptime" " 10:01:02 up 12 days,  3:04,  1 user,  load average: 0.00",
    always "ps -e|grep" "  812 ?        00:03:10 some-long-service-name",
    always "status" "\x7b\"version\": 1000000, \"blocks\": 1200\x7d",
    always "masternode status" "\x7b\"status\": \"Masternode successfully started\"\x7d",
    always "getbalance" "1000000.00000000",
    always " stop" "DAPS server stopping",
    always "-daemon" "DAPS server starting",
    always "setgenerate" "",
    always "masternode genkey" "5KmnPrivKey42",
    always "getaccountaddress" "DfundAddr77",
    always "sendtoaddress" "9f2c4e7a1b",
    always "masternode outputs" "\x7b\n  \"9f2c4e7a1b\": \"1\"\n\x7d",
    always "startmasternode" "Masternode successfully started"]

/-- A fleet on which everything goes well. -/
def healthy : Script := { silent with replies := healthyReplies }

/-- The script with more rules after its own. -/
def add (s more : Script) : Script where
  replies := s.replies ++ more.replies
  unreachable := s.unreachable ++ more.unreachable
  connects := s.connects ++ more.connects
  writes := s.writes ++ more.writes
  outages := s.outages ++ more.outages
  cancels := s.cancels ++ more.cancels

/-- The script in which nothing keeps the named hosts from being reached. -/
def reach (s : Script) (hosts : List String) : Script :=
  { s with
    unreachable := s.unreachable.filter fun host => !hosts.contains host
    connects := s.connects.filter fun rule => !hosts.contains rule.host }

/-- The script in which a host cannot be reached. -/
def cutOff (s : Script) (host : String) : Script :=
  { s with unreachable := s.unreachable ++ [host] }

/-- The script after a command, which may cut off hosts. -/
def setOff (s : Script) (line : String) : Script :=
  let hit := s.outages.filter fun outage => Text.occursIn outage.pattern line
  hit.foldl (fun s outage => s.cutOff outage.host) s

end Script

end NodeFleet
