import NodeFleet.Amount.Decimal
import NodeFleet.Remote.Reply

/-!
# NodeFleet.Daemon.Reading — what a daemon's answer means

The daemon answers in free text, so every decision is a rule about the text of a `Reply`.  The rules
stand together here.

* `ReplyKind`: what was asked.  `Reading`: what the answer says.  `ReplyKind.read` takes the one to
  the other.
* `processFound`: a process list shows the process when it has more than 21 characters, blanks at
  its ends not counted.
* `token`: a key, an address or a hash is the first line that is not blank, unless that line holds
  `not` or `error`.
* `confirms`: a transaction is confirmed when its hash occurs in a line of the listing.
-/

namespace NodeFleet

/-- What a command asked of the host, which decides how its answer is read. -/
inductive ReplyKind where
  | stop
  | start
  | status
  | masternodeStatus
  | balance
  | privateKey
  | address
  | payment
  | outputs (hash : String)
  | processList
  | generation
  | startMasternode
  | fileChange
  deriving DecidableEq, Repr, Inhabited

/-- What an answer says. -/
inductive Reading where
  | running (up : Bool)
  | present (found : Bool)
  | balance (amount : Amount)
  | token (word : String)
  | confirmed (seen : Bool)
  | accepted
  | rejected (reason : String)
  | unrecognized (text : String)
  deriving DecidableEq, Repr, Inhabited

/-- The three classes of readings. -/
inductive ReadingClass where
  | success
  | recognizedFailure
  | unrecognized
  deriving DecidableEq, Repr, Inhabited

/-- The class of a reading. -/
def Reading.classification : Reading → ReadingClass
  | rejected _ => .recognizedFailure
  | unrecognized _ => .unrecognized
  | _ => .success

/-! ## The single rules -/

/-- A process list of at most this many characters shows no process. -/
def shortListing : Nat := 21

/-- Whether the process list shows the process. -/
def processFound (reply : Reply) : Bool := shortListing < (Text.trim reply.text).length

/-- The generated word in an answer, or why there is none: the refusing line, or that nothing
came. -/
def token (reply : Reply) : Except String String :=
  match reply.firstLine? with
  | none => .error "empty response"
  | some line =>
    if Text.mentions "not" line || Text.mentions "error" line then .error line
    else .ok (Text.trimBoth '"' line)

/-- Whether the transaction occurs in a line of the listing; no listing confirms the empty hash. -/
def confirms (reply : Reply) (hash : String) : Bool :=
  !hash.isEmpty && reply.lines.any fun line => Text.occursIn hash line

/-- Whether an answer only says that the daemon is not up. -/
def saysNotRunning (text : String) : Bool := Text.mentions "couldn't connect to server" text

/-- Whether an answer holds the word for an error. -/
def mentionsError (text : String) : Bool := Text.mentions "error" text

/-! ## The reading of an answer -/

/-- The balance in an answer: its first line that is not blank, when that is a number. -/
def readBalance (reply : Reply) : Reading :=
  match reply.firstLine? with
  | none => .unrecognized ""
  | some line =>
    match Amount.read? line with
    | some amount => .balance amount
    | none => if mentionsError line then .rejected line else .unrecognized line

/-- The wording of a refused file change that printed nothing. -/
def exitStatusText (status : Option Int) : String :=
  match status with
  | some n => "exit status Some(" ++ toString n ++ ")"
  | none => "exit status None"

/-- A change of files is refused by a word of refusal or an exit status other than zero. -/
def readFileChange (reply : Reply) : Reading :=
  let text := reply.text
  let refused :=
    Text.mentions "denied" text || Text.mentions "cannot" text || Text.mentions "refused" text ||
      (reply.status.any fun s => s != 0)
  if refused then .rejected (if text.isEmpty then exitStatusText reply.status else text)
  else .accepted

/-- What an answer to the given question says. -/
def ReplyKind.read (reply : Reply) : ReplyKind → Reading
  | processList => .present (processFound reply)
  | privateKey | address | payment =>
    match token reply with
    | .ok word => .token word
    | .error reason => .rejected reason
  | outputs hash => .confirmed (confirms reply hash)
  | balance => readBalance reply
  | status =>
    if reply.isBlank then .unrecognized ""
    else .running (!(mentionsError reply.text || Text.mentions "couldn't connect" reply.text))
  | masternodeStatus =>
    -- a daemon that is up but no active masternode answers with an error
    if reply.isBlank || saysNotRunning reply.text then .running false
    else if mentionsError reply.text then .rejected reply.text
    else .running true
  | stop =>
    if Text.mentions "stopping" reply.text then .accepted
    else if mentionsError reply.text then .rejected reply.text
    else .unrecognized reply.text
  | start | generation => if mentionsError reply.text then .rejected reply.text else .accepted
  | startMasternode =>
    if Text.mentions "success" reply.text then .accepted
    else if Text.isBlankText reply.text then .unrecognized reply.text
    else .rejected reply.text
  | fileChange => readFileChange reply

end NodeFleet
