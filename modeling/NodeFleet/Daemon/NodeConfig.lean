import NodeFleet.Fleet.Roster

/-!
# NodeFleet.Daemon.NodeConfig — the files that a daemon is configured with

* `NodeConfig`: the base lines, a line for each peer, and for a masternode its own address, its key
  and its role.
* `Provisioning`: what is gathered while the first masternode is set up; its line of the masternode
  list exists only once the collateral is confirmed.
-/

namespace NodeFleet

/-- A node configuration about to be written. -/
structure NodeConfig where
  base : List String
  peers : List String
  externalAddress? : Option String
  privateKey? : Option String
  isMasternode : Bool
  deriving DecidableEq, Repr, Inhabited

namespace NodeConfig

/-- The configuration of a staking node: each peer once, in the order of first mention. -/
def staking (base peers : List String) : NodeConfig where
  base
  peers := peers.foldl addNew []
  externalAddress? := none
  privateKey? := none
  isMasternode := false

/-- Adds the address and the key of a masternode. -/
def withKey (conf : NodeConfig) (address key : String) : NodeConfig :=
  { conf with externalAddress? := some address, privateKey? := some key }

/-- Turns the masternode role on. -/
def promoted (conf : NodeConfig) : NodeConfig := { conf with isMasternode := true }

/-- The lines of the file. -/
def fileLines (conf : NodeConfig) : List String :=
  conf.base ++ conf.peers.map ("addnode=" ++ ·) ++
    (conf.externalAddress?.map ("externalip=" ++ ·)).toList ++
    (conf.privateKey?.map ("masternodeprivkey=" ++ ·)).toList ++
    (if conf.isMasternode then ["masternode=1"] else [])

/-- The file: its lines, each with a line feed after it. -/
def render (conf : NodeConfig) : String := String.join (conf.fileLines.map (· ++ "\n"))

end NodeConfig

/-- What is known of a masternode while it is set up. -/
structure Provisioning where
  /-- The name of the masternode in the list, and of its funding account. -/
  listName : String
  privateKey : String
  port : Nat
  collateral? : Option String
  confirmed : Bool
  deriving DecidableEq, Repr, Inhabited

namespace Provisioning

/-- The beginning: neither collateral nor confirmation. -/
def new (listName privateKey : String) (port : Nat) : Provisioning :=
  ⟨listName, privateKey, port, none, false⟩

/-- The line of the masternode list for the masternode at `address`. -/
def line? (p : Provisioning) (address : String) : Option String :=
  if p.confirmed then
    p.collateral?.map fun tx =>
      p.listName ++ " " ++ address ++ ":" ++ toString p.port ++ " " ++ p.privateKey ++ " " ++ tx ++
        " 1"
  else none

end Provisioning

end NodeFleet
