import NodeFleet.Amount.Shortest
import NodeFleet.Config.Basic

/-!
# NodeFleet.Daemon.Command — the commands that a host is sent

A command is a `Task` together with the `Daemon` it is meant for; `Command.line` is the line that
the host's shell runs. The network's flag and directory enter a daemon's settings once, in
`Daemon.ofConfig`, so that every line and path has them.
-/

namespace NodeFleet

/-- How the coin daemon is called on the hosts, and where its files are. -/
structure Daemon where
  /-- The program that asks the running daemon. -/
  cli : String
  /-- The daemon itself. -/
  program : String
  /-- Flags for both, with single spaces between them. -/
  options : String
  configDir : String
  confFile : String
  deriving DecidableEq, Repr, Inhabited

/-- The chain data that a wipe removes; wallet and configuration files are not among them. -/
def chainData : List String :=
  ["blocks", "chainstate", "database", "sporks", "zerocoin", "peers.dat", "banlist.dat",
    "mncache.dat", "mnpayments.dat", "budget.dat", "fee_estimates.dat", "debug.log"]

namespace Daemon

/-- The daemon of a fleet. -/
def ofConfig (config : Config) : Daemon where
  cli := config.cliBinary
  program := config.daemonBinary
  options := Text.join " " (Text.words config.serverOption ++ config.network.flag?.toList)
  configDir := config.configDir
  confFile := config.confFile

/-- A program with the options, if there are any, and then the arguments. -/
def call (d : Daemon) (program args : String) : String :=
  if d.options.isEmpty then program ++ " " ++ args else program ++ " " ++ d.options ++ " " ++ args

/-- The line that asks the running daemon. -/
def ask (d : Daemon) (args : String) : String := d.call d.cli args

/-- The path of the node configuration. -/
def confPath (d : Daemon) : String := d.configDir ++ "/" ++ d.confFile

/-- The path of the masternode list. -/
def masternodeListPath (d : Daemon) : String := d.configDir ++ "/masternode.conf"

/-- The paths that a wipe removes. -/
def wipedPaths (d : Daemon) : List String := chainData.map fun entry => d.configDir ++ "/" ++ entry

end Daemon

/-- What a command is for. -/
inductive Task where
  | start
  | stop
  | status
  | masternodeStatus
  | balance
  | privateKey
  | accountAddress (account : String)
  | pay (address : String) (amount : Amount)
  | outputs
  | enableGeneration
  | startAlias (name : String)
  | startLocal
  | wipe
  | makeConfigDir
  | uptime
  | findProcess (name : String)
  | reboot (line : String)
  /-- Puts a staged copy of a file in the place of the file. -/
  | swapIn (path : String)
  deriving DecidableEq, Repr, Inhabited

/-- A task for a daemon. -/
structure Command where
  daemon : Daemon
  task : Task
  deriving DecidableEq, Repr, Inhabited

/-- The path of the staged copy of a file. -/
def stagedPath (path : String) : String := path ++ ".new"

/-- The line that the host's shell runs. -/
def Command.line (c : Command) : String :=
  let d := c.daemon
  match c.task with
  | .start => d.call d.program "-daemon"
  | .stop => d.ask "stop"
  | .status => d.ask "status"
  | .masternodeStatus => d.ask "masternode status"
  | .balance => d.ask "getbalance"
  | .privateKey => d.ask "masternode genkey"
  | .accountAddress account => d.ask ("getaccountaddress \"" ++ account ++ "\"")
  | .pay address amount => d.ask ("sendtoaddress " ++ address ++ " " ++ amount.toText)
  | .outputs => d.ask "masternode outputs"
  | .enableGeneration => d.ask "setgenerate true 1"
  | .startAlias name => d.ask ("startmasternode alias false " ++ name)
  | .startLocal => d.ask "startmasternode local false"
  | .wipe => "rm -rf " ++ Text.join " " d.wipedPaths
  | .makeConfigDir => "mkdir -p " ++ d.configDir
  | .uptime => "uptime"
  | .findProcess name => "ps -e|grep " ++ name
  | .reboot line => line
  | .swapIn path =>
    "rm -f " ++ path ++ " && mv " ++ stagedPath path ++ " " ++ path ++ " && chmod 755 " ++ path

end NodeFleet
