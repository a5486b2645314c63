import NodeFleet.Procedure.Conduct

/-!
# NodeFleet.Procedure.Transfer — sending funds from the main wallet

Each host among the destinations is asked for an address first; then all sums are sent in one
session to the main host, one command a destination, and none is sent twice.
-/

namespace NodeFleet

/-- Where a sum goes: a host's address, or an address that was given. -/
structure Destination where
  label : String
  address : String
  host? : Option Host
  deriving DecidableEq, Repr, Inhabited

/-- An address that was given. -/
def Destination.given (address : String) : Destination := ⟨address, address, none⟩

namespace Fleet

/-- Asks each host for its address, and gives the destinations of those that answered. -/
def deriveAddresses (fleet : Fleet) : List Host → Conduct (List Destination)
  | [] => pure []
  | host :: rest => do
    match ← Conduct.attempt (queryToken host (fleet.command (.accountAddress ""))) with
    | .ok address => do
      Conduct.passed "derive-address" host (some address)
      let others ← fleet.deriveAddresses rest
      pure (⟨host.name, address, some host⟩ :: others)
    | .error e => do
      Conduct.settled "derive-address" host (fun _ => none) (.error e : Except FleetError Unit)
      fleet.deriveAddresses rest

/-- Enters what came of a send; one that was accepted is a transfer. -/
def enterSend (destination : Destination) (amount : Amount) (result : Except FleetError String) :
    Report → Report :=
  fun r =>
    let r := r.stageResult "send" destination.host? some result
    let r :=
      match result with
      | .ok hash => r.addTransfer ⟨destination.label, destination.address, amount, hash⟩
      | .error _ => r
    r.targetResult destination.label destination.address result

/-- Sends the sum to each destination in the open session to the main host. -/
def sendAll (fleet : Fleet) (amount : Amount) (destinations : List Destination) : Conduct Unit :=
  destinations.forM fun destination => do
    let result ← Conduct.attempt
      (expectToken fleet.roster.main (fleet.command (.pay destination.address amount)))
    Conduct.enter (enterSend destination amount result)

/-- The report on sending a sum to hosts and addresses. -/
def transfer (fleet : Fleet) (hosts : List Host) (addresses : List String)
    (requested? : Option Amount) :
    Program Report :=
  Conduct.conclude .transferFunds do
    if hosts.isEmpty && addresses.isEmpty then
      Conduct.abort "select" (.hostNotFound "no transfer destination")
    let amount ← Conduct.need "select" (.ofExcept (fleet.amount requested?))
    let derived ← fleet.deriveAddresses hosts
    let destinations := derived ++ addresses.map .given
    unless destinations.isEmpty do
      Conduct.inSession "connect-main" fleet.roster.main (fleet.sendAll amount destinations)

end Fleet

end NodeFleet
