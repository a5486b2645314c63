import NodeFleet.Config.Basic
import NodeFleet.Document.Json
import NodeFleet.Document.Record

/-!
# NodeFleet.Config.Document — the description of a fleet as a document

* `Config.read?`: the description that a value of a document gives.  A field that is missing has a
  value of its own, and the main host alone has none; some fields still go by an older name.
* `Config.toValue`: a description with every field written out, under its present name.
-/

namespace NodeFleet

/-- The ports of a host. -/
def asPort : Reader Nat := Value.asBelow 65536

/-- A number of seconds. -/
def asSeconds : Reader Nat := Value.asBelow 18446744073709551616

/-- A number of attempts. -/
def asAttempts : Reader Nat := Value.asBelow 4294967296

/-- A field that goes by one name only. -/
def FieldName.plain (name : String) : FieldName := ⟨name, []⟩

namespace HostEntry

/-- The fields of a host, in order. -/
def fieldNames : List FieldName :=
  [.plain "name", .plain "address", .plain "username", .plain "password",
    ⟨"public_key_file", ["publickeyfile"]⟩, .plain "port"]

/-- A list that stands for a host has to give all of its fields. -/
def isShortList : Value → Bool
  | .list items => items.length < fieldNames.length
  | _ => false

/-- The host that a value gives. -/
def read? (d : Dialect) : Reader HostEntry := fun v => do
  if isShortList v then none
  let fields ← Record.fields? d fieldNames v
  let name ← fields.required "name" Value.asText
  let address ← fields.required "address" Value.asText
  let username? ← fields.optional "username" Value.asText
  let password? ← fields.optional "password" Value.asText
  let keyFile? ← fields.optional "public_key_file" Value.asText
  let port? ← fields.optional "port" asPort
  pure { name, address, username?, password?, keyFile?, port? }

/-- The host with all of its fields. -/
def toValue (host : HostEntry) : Value :=
  .table [("name", .text host.name), ("address", .text host.address),
    ("username", .orNull .text host.username?), ("password", .orNull .text host.password?),
    ("public_key_file", .orNull .text host.keyFile?), ("port", .orNull .count host.port?)]

end HostEntry

namespace Network

/-- The two networks by name. -/
def choices : List (String × Network) := [("mainnet", .mainnet), ("testnet", .testnet)]

/-- The network's name. -/
def toText : Network → String
  | mainnet => "mainnet"
  | testnet => "testnet"

end Network

namespace PollSettings

/-- The fields of the pace of repeated questions, in order. -/
def fieldNames : List FieldName :=
  [.plain "interval_secs", .plain "max_attempts", .plain "deadline_secs"]

/-- The pace that a value gives, the standard one where it says nothing. -/
def read? (d : Dialect) : Reader PollSettings := fun v => do
  let fields ← Record.fields? d fieldNames v
  let intervalSeconds ← fields.orElse "interval_secs" asSeconds standard.intervalSeconds
  let maxAttempts? ← fields.orElse "max_attempts" (Fields.nullable asAttempts) standard.maxAttempts?
  let deadlineSeconds? ←
    fields.orElse "deadline_secs" (Fields.nullable asSeconds) standard.deadlineSeconds?
  pure { intervalSeconds, maxAttempts?, deadlineSeconds? }

/-- The pace with all of its fields. -/
def toValue (poll : PollSettings) : Value :=
  .table [("interval_secs", .count poll.intervalSeconds),
    ("max_attempts", .orNull .count poll.maxAttempts?),
    ("deadline_secs", .orNull .count poll.deadlineSeconds?)]

end PollSettings

namespace Timing

/-- The fields of the waits, in order. -/
def fieldNames : List FieldName :=
  [.plain "daemon_settle_secs", .plain "stop_settle_secs", .plain "bootstrap_settle_secs",
    .plain "reboot_settle_secs", .plain "sweep_pause_secs", .plain "command_timeout_secs",
    .plain "poll"]

/-- The waits that a value gives, the standard ones where it says nothing. -/
def read? (d : Dialect) : Reader Timing := fun v => do
  let fields ← Record.fields? d fieldNames v
  let daemonSettle ← fields.orElse "daemon_settle_secs" asSeconds standard.daemonSettle
  let stopSettle ← fields.orElse "stop_settle_secs" asSeconds standard.stopSettle
  let bootstrapSettle ← fields.orElse "bootstrap_settle_secs" asSeconds standard.bootstrapSettle
  let rebootSettle ← fields.orElse "reboot_settle_secs" asSeconds standard.rebootSettle
  let sweepPause ← fields.orElse "sweep_pause_secs" asSeconds standard.sweepPause
  let commandTimeout ← fields.orElse "command_timeout_secs" asSeconds standard.commandTimeout
  let poll ← fields.orElse "poll" (PollSettings.read? d) standard.poll
  pure { daemonSettle, stopSettle, bootstrapSettle, rebootSettle, sweepPause, commandTimeout, poll }

/-- The waits with all of their fields. -/
def toValue (t : Timing) : Value :=
  .table [("daemon_settle_secs", .count t.daemonSettle), ("stop_settle_secs", .count t.stopSettle),
    ("bootstrap_settle_secs", .count t.bootstrapSettle),
    ("reboot_settle_secs", .count t.rebootSettle), ("sweep_pause_secs", .count t.sweepPause),
    ("command_timeout_secs", .count t.commandTimeout), ("poll", t.poll.toValue)]

end Timing

namespace Config

/-- The fields of a description, in order. -/
def fieldNames : List FieldName :=
  [.plain "username", .plain "password", ⟨"public_key_file", ["publickeyfile"]⟩, .plain "key_env",
    .plain "port", .plain "main", .plain "masternodes", ⟨"staking_nodes", ["stakingnodes"]⟩,
    .plain "wallets", .plain "network", ⟨"collateral_amount", ["coinamount"]⟩,
    ⟨"masternode_alias", ["alias"]⟩, .plain "control_wallet", .plain "cli_binary",
    .plain "daemon_binary", ⟨"server_option", ["serveroption"]⟩, .plain "data_dir",
    .plain "conf_file", .plain "base_config", .plain "main_services", .plain "reboot_command",
    .plain "binaries", .plain "install_dir", .plain "project", .plain "zone", .plain "terminal",
    .plain "timing", .plain "log_level"]

/-- The description that a value gives. -/
def read? (d : Dialect) : Reader Config := fun v => do
  let fields ← Record.fields? d fieldNames v
  let hosts := Value.asList (HostEntry.read? d)
  let texts := Value.asList Value.asText
  let main ← fields.required "main" (HostEntry.read? d)
  let username ← fields.orElse "username" Value.asText "root"
  let password? ← fields.optional "password" Value.asText
  let keyFile? ← fields.optional "public_key_file" Value.asText
  let keyVariable? ← fields.optional "key_env" Value.asText
  let port? ← fields.optional "port" asPort
  let masternodes ← fields.orElse "masternodes" hosts []
  let stakingNodes ← fields.orElse "staking_nodes" hosts []
  let wallets ← fields.orElse "wallets" hosts []
  let network ← fields.orElse "network" (Value.asChoice d Network.choices) .mainnet
  let collateral ← fields.orElse "collateral_amount" Value.asAmount (.ofNat 1000000)
  let masternodeAlias ← fields.orElse "masternode_alias" Value.asText "mn1"
  let controlWallet? ← fields.optional "control_wallet" Value.asText
  let cliBinary ← fields.orElse "cli_binary" Value.asText "dapscoin-cli"
  let daemonBinary ← fields.orElse "daemon_binary" Value.asText "dapscoind"
  let serverOption ← fields.orElse "server_option" Value.asText ""
  let dataDir ← fields.orElse "data_dir" Value.asText "~/.dapscoin"
  let confFile ← fields.orElse "conf_file" Value.asText "dapscoin.conf"
  let baseLines ← fields.orElse "base_config" texts ["daemon=1", "server=1", "listen=1"]
  let mainServices ← fields.orElse "main_services" texts ["mongo", "node"]
  let rebootCommand ← fields.orElse "reboot_command" Value.asText "sudo reboot"
  let binaries ← fields.orElse "binaries" texts ["dapscoind", "dapscoin-cli"]
  let installDir ← fields.orElse "install_dir" Value.asText "/usr/local/bin"
  let project? ← fields.optional "project" Value.asText
  let zone? ← fields.optional "zone" Value.asText
  let terminal ← fields.orElse "terminal" texts ["xterm", "-e"]
  let timing ← fields.orElse "timing" (Timing.read? d) .standard
  let logLevel ← fields.orElse "log_level" Value.asText "info"
  pure
    { username, password?, keyFile?, keyVariable?, port?, main, masternodes, stakingNodes, wallets,
      network, collateral, masternodeAlias, controlWallet?, cliBinary, daemonBinary, serverOption,
      dataDir, confFile, baseLines, mainServices, rebootCommand, binaries, installDir, project?,
      zone?, terminal, timing, logLevel }

/-- The description with all of its fields. -/
def toValue (c : Config) : Value :=
  let hosts (hs : List HostEntry) : Value := .list (hs.map HostEntry.toValue)
  .table [("username", .text c.username), ("password", .orNull .text c.password?),
    ("public_key_file", .orNull .text c.keyFile?), ("key_env", .orNull .text c.keyVariable?),
    ("port", .orNull .count c.port?), ("main", c.main.toValue),
    ("masternodes", hosts c.masternodes), ("staking_nodes", hosts c.stakingNodes),
    ("wallets", hosts c.wallets), ("network", .text c.network.toText),
    ("collateral_amount", .real c.collateral), ("masternode_alias", .text c.masternodeAlias),
    ("control_wallet", .orNull .text c.controlWallet?), ("cli_binary", .text c.cliBinary),
    ("daemon_binary", .text c.daemonBinary), ("server_option", .text c.serverOption),
    ("data_dir", .text c.dataDir), ("conf_file", .text c.confFile),
    ("base_config", .texts c.baseLines), ("main_services", .texts c.mainServices),
    ("reboot_command", .text c.rebootCommand), ("binaries", .texts c.binaries),
    ("install_dir", .text c.installDir), ("project", .orNull .text c.project?),
    ("zone", .orNull .text c.zone?), ("terminal", .texts c.terminal), ("timing", c.timing.toValue),
    ("log_level", .text c.logLevel)]

end Config

/-- In the JSON notation a choice without contents carries null, and a list stands for a record only
field by field. -/
def Json.dialect : Dialect := ⟨fun v => match v with | .null => true | _ => false, true⟩

end NodeFleet
