import NodeFleet.Procedure.Daemons
import NodeFleet.Program.Poll

/-!
# NodeFleet.Procedure.ColdRestart — bringing the whole network up from nothing

The stages stand in a straight line, and the first that fails ends the procedure: all daemons are
stopped (and wiped), the main host and the control wallet are started, the control wallet makes a
key and a funding address, the collateral is sent and awaited, and the first masternode is listed,
configured and started.
-/

namespace NodeFleet

/-- The first failure among results. -/
def firstFailure? : List (Except ε α) → Option ε
  | [] => none
  | .ok _ :: rest => firstFailure? rest
  | .error e :: _ => some e

namespace Fleet

/-- Stops every host; each is tried before the stage is judged. -/
def stopAll (fleet : Fleet) : Conduct Unit := do
  let results ← fleet.roster.all.mapM fun host => do
    let result ← Conduct.attempt (fleet.stopHost host)
    Conduct.enter fun r => r.stageResult "stop-all" (some host) (fun _ => none) result
    pure result
  match firstFailure? results with
  | some e => Conduct.abort "stop-all" e
  | none => pure ()

/-- Removes the chain data of every host; the first that refuses ends the procedure. -/
def wipeAll (fleet : Fleet) : Conduct Unit :=
  fleet.roster.all.forM fun host => do
    Conduct.need "wipe" (inSession host (fleet.wipe host))
    Conduct.passed "wipe" host none

/-- Stops and starts a control wallet that is not on the main host. -/
def restartControl (fleet : Fleet) : Conduct Unit := do
  if fleet.control.name ≠ fleet.roster.main.name then
    let _ ← Conduct.need "restart-control" (fleet.stopHost fleet.control)
    Conduct.need "restart-control" (fleet.startHost false fleet.control)
    Conduct.passed "restart-control" fleet.control none

/-- What a transaction is called while it is awaited. -/
def awaitedTransaction (hash : String) : String := "transaction " ++ hash

/-- Whether the control wallet lists the transaction; a poll that fails has not seen it. -/
def lists (fleet : Fleet) (host : Host) (hash : String) : Program (Option Unit) := do
  match ← (query host (fleet.command .outputs) (.outputs hash)).attempt with
  | .ok (.confirmed true) => pure (some ())
  | _ => pure none

/-- Waits until a host lists the transaction, and counts the polls. -/
def awaitConfirmation (fleet : Fleet) (host : Host) (hash : String) : Step Nat := do
  let (_, attempts) ←
    poll fleet.config.timing.poll (awaitedTransaction hash) (fleet.lists host hash)
  pure attempts

/-- Sends the collateral from the main host to the control wallet; gives the hash of the
transaction. -/
def sendCollateral (fleet : Fleet) (address : String) (amount : Amount) : Conduct String := do
  let main := fleet.roster.main
  let hash ← Conduct.need "send-collateral" (queryToken main (fleet.command (.pay address amount)))
  Conduct.passed "send-collateral" main (some hash)
  Conduct.enter (·.addTransfer ⟨fleet.control.name, address, amount, hash⟩)
  pure hash

/-- Makes the key, funds the control wallet and waits for the transaction. -/
def provision (fleet : Fleet) (amount : Amount) : Conduct (Provisioning × String × Nat) := do
  let control := fleet.control
  let key ← Conduct.need "genkey" (queryToken control (fleet.command .privateKey))
  Conduct.passed "genkey" control none
  let begun := Provisioning.new fleet.config.masternodeAlias key fleet.config.network.port
  let address ← Conduct.need "funding-address"
    (queryToken control (fleet.command (.accountAddress begun.listName)))
  Conduct.passed "funding-address" control (some address)
  let hash ← fleet.sendCollateral address amount
  let attempts ← Conduct.need "confirm-collateral" (fleet.awaitConfirmation control hash)
  Conduct.passed "confirm-collateral" control
    (some ("confirmed after " ++ toString attempts ++ " polls"))
  pure ({ begun with collateral? := some hash, confirmed := true }, hash, attempts)

/-- Writes the masternode list of the control wallet: one line. -/
def writeMasternodeList (fleet : Fleet) (line : String) : Step Unit :=
  inSession fleet.control
    (writeConfigFile fleet.control fleet.daemon fleet.daemon.masternodeListPath (line ++ "\n"))

/-- The configuration of a masternode that has every other host of the fleet as a peer. -/
def masternodeConfig (fleet : Fleet) (masternode : Host) (key : String) : NodeConfig :=
  ((fleet.stakingConfig masternode).withKey masternode.address key).promoted

/-- Lists the masternode with its key and its collateral. -/
def listMasternode (fleet : Fleet) (masternode : Host) (amount : Amount) :
    Conduct Provisioning := do
  let (provisioning, hash, attempts) ← fleet.provision amount
  match provisioning.line? masternode.address with
  | none => Conduct.abort "masternode-conf" (.unconfirmed (awaitedTransaction hash) attempts)
  | some line => do
    Conduct.need "masternode-conf" (fleet.writeMasternodeList line)
    Conduct.passed "masternode-conf" fleet.control (some line)
    pure provisioning

/-- Configures and starts the listed masternode, on its own host and from the control wallet. -/
def startListed (fleet : Fleet) (masternode : Host) (provisioning : Provisioning) :
    Conduct Unit := do
  let control := fleet.control
  Conduct.need "start-masternode-daemon"
    (inSession masternode do
      writeNodeConfig masternode fleet.daemon
        (fleet.masternodeConfig masternode provisioning.privateKey)
      fleet.startDaemon masternode)
  Conduct.passed "start-masternode-daemon" masternode none
  let _ ← Conduct.need "start-masternode-alias"
    (query control (fleet.command (.startAlias provisioning.listName)) .startMasternode)
  Conduct.passed "start-masternode-alias" control none
  let _ ← Conduct.need "start-masternode-local"
    (query masternode (fleet.command .startLocal) .startMasternode)
  Conduct.passed "start-masternode-local" masternode none

/-- Every stage of a cold restart once the sum and the masternode are known. -/
def coldStages (fleet : Fleet) (wiped : Bool) (amount : Amount) (masternode : Host) :
    Conduct Unit := do
  fleet.stopAll
  if wiped then fleet.wipeAll
  Conduct.need "start-main" (fleet.startHost false fleet.roster.main)
  Conduct.passed "start-main" fleet.roster.main none
  Conduct.need "bootstrap-settle" (settle (.ofSeconds fleet.config.timing.bootstrapSettle))
  fleet.restartControl
  let provisioning ← fleet.listMasternode masternode amount
  fleet.startListed masternode provisioning

/-- The report on a cold restart. -/
def coldRestart (fleet : Fleet) (wiped : Bool) (requested? : Option Amount) : Program Report :=
  Conduct.conclude .coldRestart do
    let amount ← Conduct.need "select" (.ofExcept (fleet.amount requested?))
    match fleet.roster.firstMasternode? with
    | none => Conduct.abort "select-masternode" (.noHostForRole .masternode)
    | some masternode => fleet.coldStages wiped amount masternode

end Fleet

end NodeFleet
