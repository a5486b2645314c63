import NodeFleet.Procedure.Daemons

/-!
# NodeFleet.Procedure.Promotion — making masternodes of hosts

The staking host gets every masternode as a peer, is started, and generates one key.  Without the
key nothing else is touched; with it each masternode is configured and restarted on its own.
-/

namespace NodeFleet.Fleet

/-- The hosts under the masternode role. -/
def masternodes (fleet : Fleet) : List Host := fleet.roster.byRole .masternode

/-- The configuration of the host that makes the key: the masternodes come first among its peers. -/
def keyMakerConfig (fleet : Fleet) (staking : Host) : NodeConfig :=
  .staking fleet.config.baseLines
    (fleet.masternodes.map Host.address ++ fleet.roster.peers (some staking))

/-- The configuration of a masternode that has one peer. -/
def promotedConfig (fleet : Fleet) (masternode staking : Host) (key : String) : NodeConfig :=
  let conf := NodeConfig.staking fleet.config.baseLines [staking.address]
  (conf.withKey masternode.address key).promoted

/-- Configures and starts the staking host in its open session, and gives the key that it makes.  A
daemon that is up already refuses to start, which is no reason to end. -/
def makeKey (fleet : Fleet) (staking : Host) : Conduct String := do
  let conf := fleet.keyMakerConfig staking
  Conduct.need "staking-config" (writeNodeConfig staking fleet.daemon conf)
  Conduct.passed "staking-config" staking (some (toString conf.peers.length ++ " peers"))
  let started ← Conduct.attempt (expect staking (fleet.command .start) .start)
  Conduct.enter fun r => r.stageResult "start-staking" (some staking) (fun _ => none) started
  Conduct.need "start-staking" (settle (.ofSeconds fleet.config.timing.daemonSettle))
  let key ← Conduct.need "genkey" (expectToken staking (fleet.command .privateKey))
  Conduct.passed "genkey" staking none
  pure key

/-- Stops the daemon of a masternode; one that refuses is started over all the same. -/
def stopOrGoOn (fleet : Fleet) (masternode : Host) : Step Unit := do
  match ← (expect masternode (fleet.command .stop) .stop).caught with
  | .ok _ => fleet.stopWait
  | .error (.commandRejected _ _ _) => pure ()
  | .error e => throw e

/-- Configures and restarts a masternode. -/
def installMasternode (fleet : Fleet) (staking : Host) (key : String) (masternode : Host) :
    Step Unit :=
  inSession masternode do
    writeNodeConfig masternode fleet.daemon (fleet.promotedConfig masternode staking key)
    fleet.stopOrGoOn masternode
    fleet.startDaemon masternode

/-- The report on making masternodes of all hosts under that role. -/
def promote (fleet : Fleet) (staking? : Option Host) : Program Report :=
  Conduct.conclude .promoteMasternodes do
    let staking := staking?.getD fleet.roster.stakingHost
    if fleet.masternodes.isEmpty then Conduct.abort "select" (.noHostForRole .masternode)
    let key ← Conduct.inSession "connect-staking" staking (fleet.makeKey staking)
    Conduct.eachHost "restart-masternode" fleet.masternodes (fleet.installMasternode staking key)
      fun _ => none

end NodeFleet.Fleet
