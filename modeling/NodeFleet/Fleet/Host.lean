import NodeFleet.Config.Basic
import NodeFleet.Remote.Credential

/-!
# NodeFleet.Fleet.Host — a host with its role, its credential and its address

`HostEntry.credential?` is the order in which credentials are looked for: the host's own key file,
its own password, then the shared key file, the shared environment variable and the shared password.
A blank path or name counts as none.
-/

namespace NodeFleet

/-- What a host is there for. -/
inductive Role where
  | main
  | masternode
  | staking
  | wallet
  deriving DecidableEq, Repr, Inhabited

/-- The name of a role. -/
def Role.toText : Role → String
  | main => "main"
  | masternode => "masternode"
  | staking => "staking"
  | wallet => "wallet"

/-- A host that can be connected to. -/
structure Host where
  name : String
  address : String
  role : Role
  username : String
  credential : Credential
  port : Nat
  deriving DecidableEq, Repr, Inhabited

namespace Host

/-- Whether two entries stand for the same host: they share name and address. -/
def sameEntry (a b : Host) : Bool := a.name == b.name && a.address == b.address

/-- Whether a token is the host's name or its address. -/
def answersTo (host : Host) (token : String) : Bool := host.name == token || host.address == token

/-- The endpoint of a connection: user, address and port. -/
def endpoint (host : Host) : String :=
  host.username ++ "@" ++ host.address ++ ":" ++ toString host.port

end Host

/-- A text that is more than blanks. -/
def notBlank? (s? : Option String) : Option String := s?.filter fun s => !Text.isBlankText s

/-- The credential of a listed host. -/
def HostEntry.credential? (config : Config) (entry : HostEntry) : Option Credential :=
  (notBlank? entry.keyFile?).map .keyFile
  <|> entry.password?.map .password
  <|> (notBlank? config.keyFile?).map .keyFile
  <|> (notBlank? config.keyVariable?).map .keyVariable
  <|> config.password?.map .password

/-- The port for remote shells unless another is named. -/
def standardPort : Nat := 22

/-- A listed host under a role, with what it lacks taken from the shared settings. -/
def HostEntry.toHost? (config : Config) (role : Role) (entry : HostEntry) : Option Host :=
  (entry.credential? config).map fun credential =>
    { name := entry.name
      address := entry.address
      role
      username := entry.username?.getD config.username
      credential
      port := (entry.port? <|> config.port?).getD standardPort }

end NodeFleet
