import NodeFleet.Procedure.Daemons

/-!
# NodeFleet.Procedure.Reboot — rebooting hosts and bringing their daemons back

All hosts are told to reboot; after one wait the daemons of those that were told are started.  A
session that breaks is what a rebooting host is expected to do.
-/

namespace NodeFleet.Fleet

/-- Tells a host to reboot. -/
def rebootHost (fleet : Fleet) (host : Host) : Step Unit :=
  inSession host do
    match ← (exchange host (fleet.command (.reboot fleet.config.rebootCommand))).caught with
    | .ok _ | .error (.session _ _) => pure ()
    | .error e => throw e

/-- Tells each host to reboot, and gives those that were told. -/
def rebootAll (fleet : Fleet) : List Host → Conduct (List Host)
  | [] => pure []
  | host :: rest => do
    match ← Conduct.attempt (fleet.rebootHost host) with
    | .ok _ => do
      Conduct.passed "reboot" host none
      let told ← fleet.rebootAll rest
      pure (host :: told)
    | .error e => do
      Conduct.settled "reboot" host (fun _ => none) (.error e : Except FleetError Unit)
      fleet.rebootAll rest

/-- Starts the daemon of a host as it is. -/
def startAgain (fleet : Fleet) (host : Host) : Step Unit := inSession host (fleet.startDaemon host)

/-- The report on rebooting hosts. -/
def reboot (fleet : Fleet) (hosts : List Host) : Program Report :=
  Conduct.conclude .reboot do
    let told ← fleet.rebootAll hosts
    unless told.isEmpty do
      Conduct.need "reboot-settle" (settle (.ofSeconds fleet.config.timing.rebootSettle))
      Conduct.eachHost "start" told fleet.startAgain fun _ => none

end NodeFleet.Fleet
