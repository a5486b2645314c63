import NodeFleet.Duration

/-!
# NodeFleet.Remote.Error — what can go wrong between the operator's machine and a remote one

`RemoteError` names the cause of a failed connection, command, file transfer or local program;
`RemoteError.message` is its wording.
-/

namespace NodeFleet

/-- Why an exchange with a remote host, or a local program, failed. -/
inductive RemoteError where
  /-- The host could not be reached. -/
  | connectionFailed (reason : String)
  /-- The host did not accept the credentials. -/
  | authenticationFailed (reason : String)
  /-- A command did not finish in time. -/
  | timedOut (after : Duration)
  /-- The private key is of no use. -/
  | badKey (reason : String)
  /-- A local program could not be started. -/
  | notStarted (reason : String)
  /-- The channel broke. -/
  | channelBroken (reason : String)
  /-- The session was closed before. -/
  | notConnected
  /-- The remote side did not take a file. -/
  | transferRefused (path : String) (reason : String)
  /-- The connection was set up wrongly. -/
  | misconfigured (reason : String)
  deriving DecidableEq, Repr, Inhabited

namespace RemoteError

/-- The wording of a failure. -/
def message : RemoteError → String
  | connectionFailed reason => "connection failed: " ++ reason
  | authenticationFailed reason => "authentication failed: " ++ reason
  | timedOut after => "command timed out after " ++ after.toText
  | badKey reason => "SSH key error: " ++ reason
  | notStarted reason => "failed to spawn process: " ++ reason
  | channelBroken reason => "I/O error: " ++ reason
  | notConnected => "not connected"
  | transferRefused path reason => "file transfer to " ++ path ++ " failed: " ++ reason
  | misconfigured reason => "invalid configuration: " ++ reason

/-- Whether trying again may help. -/
def isRetryable : RemoteError → Bool
  | connectionFailed _ | timedOut _ => true
  | _ => false

/-- Whether the failure came before there was a session: the host is down or turned the operator
away. -/
def isConnectFailure : RemoteError → Bool
  | connectionFailed _ | authenticationFailed _ | badKey _ => true
  | _ => false

end RemoteError

end NodeFleet
