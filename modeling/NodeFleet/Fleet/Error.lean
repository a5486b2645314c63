import NodeFleet.Config.Error
import NodeFleet.Fleet.Host
import NodeFleet.Remote.Error

/-!
# NodeFleet.Fleet.Error — why a procedure, or one host's part of it, failed

* `FleetError`: the cause, with the host and the command it concerns; `FleetError.message` is its
  wording.
* `ErrorKind`: the class under which a report files it.
* `FleetError.isHostDown`: only a failed connection says that a host is down.
-/

namespace NodeFleet

/-- Why a step on the fleet failed. -/
inductive FleetError where
  /-- The host could not be reached or did not accept the credentials. -/
  | connectFailure (host : String) (cause : RemoteError)
  /-- The daemon answered with an error, or with nothing that can be read. -/
  | commandRejected (host command reason : String)
  /-- An effect on the chain was not seen within the bounds. -/
  | unconfirmed (awaited : String) (attempts : Nat)
  /-- The operator cancelled a wait. -/
  | cancelled
  /-- The host refused a file or its renaming. -/
  | transferFailure (host reason : String)
  /-- The session broke after it was opened. -/
  | session (host : String) (cause : RemoteError)
  /-- A token selects no host. -/
  | hostNotFound (token : String)
  /-- The fleet has no host of a role that is needed. -/
  | noHostForRole (role : Role)
  /-- The description of the fleet is at fault. -/
  | config (cause : ConfigError)
  deriving DecidableEq, Repr, Inhabited

/-- The classes of failures in a report. -/
inductive ErrorKind where
  | connectFailure
  | commandRejected
  | unconfirmed
  | cancelled
  | transferFailure
  | session
  | hostNotFound
  | config
  deriving DecidableEq, Repr, Inhabited

/-- The name of a class of failures. -/
def ErrorKind.toText : ErrorKind → String
  | connectFailure => "connect_failure"
  | commandRejected => "command_rejected"
  | unconfirmed => "unconfirmed"
  | cancelled => "cancelled"
  | transferFailure => "transfer_failure"
  | session => "session"
  | hostNotFound => "host_not_found"
  | config => "config"

namespace FleetError

/-- The wording of a failure. -/
def message : FleetError → String
  | connectFailure host cause => "cannot connect to " ++ host ++ ": " ++ cause.message
  | commandRejected host command reason => host ++ " rejected `" ++ command ++ "`: " ++ reason
  | unconfirmed awaited attempts =>
    awaited ++ " not observed after " ++ toString attempts ++ " polls"
  | cancelled => "cancelled"
  | transferFailure host reason => "file transfer to " ++ host ++ " failed: " ++ reason
  | session host cause => "session error on " ++ host ++ ": " ++ cause.message
  | hostNotFound token => "no host matches " ++ token
  | noHostForRole role => "no " ++ role.toText ++ " host configured"
  | config cause => cause.message

/-- The class of a failure. -/
def kind : FleetError → ErrorKind
  | connectFailure .. => .connectFailure
  | commandRejected .. => .commandRejected
  | unconfirmed .. => .unconfirmed
  | cancelled => .cancelled
  | transferFailure .. => .transferFailure
  | session .. => .session
  | hostNotFound _ => .hostNotFound
  | noHostForRole _ => .config
  | config _ => .config

/-- Whether the host of the failure is to be marked as down. -/
def isHostDown : FleetError → Bool
  | connectFailure .. => true
  | _ => false

/-- A fault of the description that shows only while a procedure runs. -/
def invalid (reason : String) : FleetError := config (.invalid reason)

end FleetError

end NodeFleet
