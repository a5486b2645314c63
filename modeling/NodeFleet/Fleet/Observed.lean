import NodeFleet.Document.Value
import NodeFleet.Report.Basic

/-!
# NodeFleet.Fleet.Observed — what the last sweep saw of each host

The table is advisory: sweeps write it, and no procedure reads it.  It is kept in the order of the
host names, each name once; `Observed.record` puts a snapshot in the place of an older one of the
same host.  That an entry is of the last sweep follows from the order of the sweeps: no entry holds
the time at which it was made.
-/

namespace NodeFleet

/-- What is kept of a snapshot; the time at which it was taken is not. -/
structure Observation where
  reachable : Bool
  /-- Whether all the services that were looked for run; nothing when none was looked for. -/
  servicesDetected? : Option Bool
  lastBalance? : Option Amount
  deriving DecidableEq, Repr, Inhabited

/-- What is kept of a snapshot. -/
def Observation.ofSnapshot (s : Snapshot) : Observation where
  reachable := s.reachable
  servicesDetected? :=
    if s.services.isEmpty then none else some (s.services.all ServiceCheck.present)
  lastBalance? := s.balance?

/-- The last observation of each host, in the order of the names. -/
abbrev Observed := List (String × Observation)

namespace Observed

/-- Nothing has been observed. -/
def empty : Observed := []

/-- Enters an observation at its place in the order of the names. -/
def put (name : String) (o : Observation) : Observed → Observed
  | [] => [(name, o)]
  | (other, p) :: rest =>
    if name = other then (name, o) :: rest
    else if name < other then (name, o) :: (other, p) :: rest
    else (other, p) :: put name o rest

/-- Enters what a sweep saw of a host. -/
def record (table : Observed) (s : Snapshot) : Observed := table.put s.host (.ofSnapshot s)

/-- The observation of a host. -/
def get? (table : Observed) (name : String) : Option Observation := table.lookup name

end Observed

/-- An observation as a table of a document. -/
def Observation.toValue (o : Observation) : Value :=
  .table [("reachable", .bool o.reachable),
    ("services_detected", .orNull .bool o.servicesDetected?),
    ("last_balance", .orNull .real o.lastBalance?)]

end NodeFleet
