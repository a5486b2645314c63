import NodeFleet.Procedure.Conduct

/-!
# NodeFleet.Procedure.Daemons — stopping and starting the daemons

* `stopHost`: a daemon that is not up counts as stopped.
* `startHost`: wipe if asked, write the node configuration, start, wait, and on the main host turn
  generation on; each part only after all parts before it.  The configuration of a masternode
  carries its key and is left alone.
* `stopWallets`, `startWallets`, `restartWallets`: the same on many hosts, whose failures do not
  concern each other.
-/

namespace NodeFleet

/-- What a request to stop found. -/
inductive Stopped where
  | now
  | before
  deriving DecidableEq, Repr, Inhabited

/-- What a request to stop found, in words. -/
def Stopped.toText : Stopped → String
  | now => "stopped"
  | before => "already stopped"

namespace Fleet

/-! ## Steps in an open session -/

/-- Asks the daemon to stop; an answer that it is not up is as good. -/
def stopDaemon (fleet : Fleet) (host : Host) : Step Stopped := do
  match ← (expect host (fleet.command .stop) .stop).caught with
  | .ok _ => pure .now
  | .error e =>
    match e with
    | .commandRejected _ _ reason => if saysNotRunning reason then pure .before else throw e
    | _ => throw e

/-- The wait after a daemon has been told to stop. -/
def stopWait (fleet : Fleet) : Step Unit := settle (.ofSeconds fleet.config.timing.stopSettle)

/-- Starts the daemon and waits for it. -/
def startDaemon (fleet : Fleet) (host : Host) : Step Unit := do
  let _ ← expect host (fleet.command .start) .start
  settle (.ofSeconds fleet.config.timing.daemonSettle)

/-- Removes the chain data. -/
def wipe (fleet : Fleet) (host : Host) : Step Unit := do
  let _ ← expect host (fleet.command .wipe) .fileChange

/-- Turns generation on. -/
def enableGeneration (fleet : Fleet) (host : Host) : Step Unit := do
  let _ ← expect host (fleet.command .enableGeneration) .generation

/-- Writes the configuration of a host that has the others as peers. -/
def writeStakingConfig (fleet : Fleet) (host : Host) : Step Unit :=
  writeNodeConfig host fleet.daemon (fleet.stakingConfig host)

/-- Stops the daemon, and waits if it was up. -/
def stopSteps (fleet : Fleet) (host : Host) : Step Stopped := do
  let stopped ← fleet.stopDaemon host
  if stopped = .now then fleet.stopWait
  pure stopped

/-- Everything that starting a host takes. -/
def startSteps (fleet : Fleet) (wiped : Bool) (host : Host) : Step Unit := do
  if wiped then fleet.wipe host
  if host.role ≠ .masternode then fleet.writeStakingConfig host
  fleet.startDaemon host
  if host.role = .main then fleet.enableGeneration host

/-! ## One host -/

/-- Stops a host's daemon. -/
def stopHost (fleet : Fleet) (host : Host) : Step Stopped := inSession host (fleet.stopSteps host)

/-- Starts a host's daemon, after removing its chain data if asked. -/
def startHost (fleet : Fleet) (wiped : Bool) (host : Host) : Step Unit :=
  inSession host (fleet.startSteps wiped host)

/-- Writes a host's configuration, and counts its peers. -/
def configureHost (fleet : Fleet) (host : Host) : Step Nat :=
  inSession host do
    fleet.writeStakingConfig host
    pure (fleet.stakingConfig host).peers.length

/-! ## Many hosts -/

/-- Stops the daemon of each host. -/
def stopStage (fleet : Fleet) (hosts : List Host) : Conduct Unit :=
  Conduct.eachHost "stop" hosts fleet.stopHost fun stopped => some stopped.toText

/-- Starts the daemon of each host. -/
def startStage (fleet : Fleet) (wiped : Bool) (hosts : List Host) : Conduct Unit :=
  Conduct.eachHost "start" hosts (fleet.startHost wiped) fun _ =>
    if wiped then some "wiped" else none

/-- The report on stopping hosts. -/
def stopWallets (fleet : Fleet) (hosts : List Host) : Program Report :=
  Conduct.conclude .stopWallets (fleet.stopStage hosts)

/-- The report on starting hosts. -/
def startWallets (fleet : Fleet) (wiped : Bool) (hosts : List Host) : Program Report :=
  Conduct.conclude .startWallets (fleet.startStage wiped hosts)

/-- The report on stopping every host of the fleet and then starting every host. -/
def restartWallets (fleet : Fleet) (wiped : Bool) : Program Report :=
  Conduct.conclude .restartWallets do
    fleet.stopStage fleet.roster.all
    fleet.startStage wiped fleet.roster.all

/-- The report on writing the configuration of hosts without touching their daemons. -/
def writeStakingConfigs (fleet : Fleet) (hosts : List Host) : Program Report :=
  Conduct.conclude .generateStakingConfig
    (Conduct.eachHost "write-config" hosts fleet.configureHost fun peers =>
      some (toString peers ++ " peers"))

end Fleet

end NodeFleet
