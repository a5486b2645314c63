import NodeFleet.Amount.Basic
import NodeFleet.Duration
import NodeFleet.Text.Blank

/-!
# NodeFleet.Config.Basic — the description of a fleet

One value describes every host, the shared credentials, the layout of the daemon on the hosts, and
the waits.

* `HostEntry`, `Network`, `PollSettings`, `Timing`, `Config`: the parts of the description.
* `Config.ofMain`: a fleet of a single host, all else at its default.
* `Network.configDir`: where the node configuration lives: the data directory, or its `testnet4` on
  the test network.
-/

namespace NodeFleet

/-- A host as it is listed; what is missing is taken from the shared settings. -/
structure HostEntry where
  name : String
  address : String
  username? : Option String
  password? : Option String
  keyFile? : Option String
  port? : Option Nat
  deriving DecidableEq, Repr, Inhabited

/-- A host with nothing but a name and an address. -/
def HostEntry.plain (name address : String) : HostEntry := ⟨name, address, none, none, none, none⟩

/-- The chain that the fleet runs on. -/
inductive Network where
  | mainnet
  | testnet
  deriving DecidableEq, Repr, Inhabited

namespace Network

/-- The port on which masternodes listen. -/
def port : Network → Nat
  | mainnet => 53572
  | testnet => 53575

/-- The directory of the node configuration, the masternode list and the chain data. -/
def configDir (network : Network) (dataDir : String) : String :=
  let dir := Text.trimEnd '/' dataDir
  match network with
  | mainnet => dir
  | testnet => dir ++ "/testnet4"

/-- The flag by which the daemon and its client are told of the test network. -/
def flag? : Network → Option String
  | mainnet => none
  | testnet => some "-testnet"

end Network

/-- How a repeated question is paced and bounded; without a bound it ends with success or
cancellation only. -/
structure PollSettings where
  intervalSeconds : Nat
  maxAttempts? : Option Nat
  deadlineSeconds? : Option Nat
  deriving DecidableEq, Repr, Inhabited

/-- Half a minute between two attempts, and six hours in all. -/
def PollSettings.standard : PollSettings := ⟨30, none, some 21600⟩

/-- The fixed waits, in seconds, and the pace of repeated questions. -/
structure Timing where
  daemonSettle : Nat
  stopSettle : Nat
  bootstrapSettle : Nat
  rebootSettle : Nat
  sweepPause : Nat
  commandTimeout : Nat
  poll : PollSettings
  deriving DecidableEq, Repr, Inhabited

/-- The waits that a fleet gets unless it says otherwise. -/
def Timing.standard : Timing := ⟨10, 5, 60, 60, 2, 120, .standard⟩

/-- No waits at all, and no bounds. -/
def Timing.immediate : Timing := ⟨0, 0, 0, 0, 0, 120, ⟨0, none, none⟩⟩

/-- The description of a fleet. -/
structure Config where
  username : String
  password? : Option String
  keyFile? : Option String
  /-- The environment variable that holds a private key in Base64. -/
  keyVariable? : Option String
  port? : Option Nat
  /-- The host that funds all others. -/
  main : HostEntry
  masternodes : List HostEntry
  stakingNodes : List HostEntry
  wallets : List HostEntry
  network : Network
  /-- The sum that is sent unless another is given. -/
  collateral : Amount
  /-- The name of the first masternode in the masternode list, and of its funding account. -/
  masternodeAlias : String
  /-- The host that holds the collateral and the masternode list; the main host unless named. -/
  controlWallet? : Option String
  cliBinary : String
  daemonBinary : String
  /-- Flags for every call of the daemon and of its client. -/
  serverOption : String
  dataDir : String
  confFile : String
  /-- The lines with which every node configuration begins. -/
  baseLines : List String
  /-- The processes that have to run on the main host. -/
  mainServices : List String
  rebootCommand : String
  /-- The local files that a rollout installs. -/
  binaries : List String
  installDir : String
  project? : Option String
  zone? : Option String
  /-- The program, and its flags, in which a console is opened. -/
  terminal : List String
  timing : Timing
  logLevel : String
  deriving DecidableEq, Repr, Inhabited

namespace Config

/-- A fleet of one host, with everything else at its default. -/
def ofMain (main : HostEntry) : Config where
  username := "root"
  password? := none
  keyFile? := none
  keyVariable? := none
  port? := none
  main
  masternodes := []
  stakingNodes := []
  wallets := []
  network := .mainnet
  collateral := .ofNat 1000000
  masternodeAlias := "mn1"
  controlWallet? := none
  cliBinary := "dapscoin-cli"
  daemonBinary := "dapscoind"
  serverOption := ""
  dataDir := "~/.dapscoin"
  confFile := "dapscoin.conf"
  baseLines := ["daemon=1", "server=1", "listen=1"]
  mainServices := ["mongo", "node"]
  rebootCommand := "sudo reboot"
  binaries := ["dapscoind", "dapscoin-cli"]
  installDir := "/usr/local/bin"
  project? := none
  zone? := none
  terminal := ["xterm", "-e"]
  timing := .standard
  logLevel := "info"

/-- Every listed host: the main one, then masternodes, staking nodes and wallets. -/
def hostEntries (config : Config) : List HostEntry :=
  config.main :: (config.masternodes ++ config.stakingNodes ++ config.wallets)

/-- The directory of the node configuration on the fleet's network. -/
def configDir (config : Config) : String := config.network.configDir config.dataDir

end Config

end NodeFleet
