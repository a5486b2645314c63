import NodeFleet.Procedure.Conduct
import NodeFleet.Program.Poll

/-!
# NodeFleet.Procedure.AwaitBalance — waiting until every host holds a sum

Each round asks every host; only a round in which all of them hold the sum ends the wait, and its
balances are reported.
-/

namespace NodeFleet.Fleet

/-- The balance of a host, if it can be had. -/
def balanceOf (fleet : Fleet) (host : Host) : Program (Option Amount) := do
  match ← (query host (fleet.command .balance) .balance).attempt with
  | .ok (.balance amount) => pure (some amount)
  | _ => pure none

/-- The balances of the hosts, if each holds at least the sum. -/
def funded? (amount : Amount) (balances : List (Option Amount)) : Option (List Amount) :=
  balances.mapM fun balance? => balance?.filter fun balance => balance.atLeast amount

/-- One round: asks every host. -/
def balanceRound (fleet : Fleet) (hosts : List Host) (amount : Amount) :
    Program (Option (List Amount)) := do
  let balances ← hosts.mapM fleet.balanceOf
  pure (funded? amount balances)

/-- Enters the balance of a host that holds the sum. -/
def enterBalance (host : Host) (balance : Amount) : Conduct Unit :=
  Conduct.settled "await-balance" host (fun b : Amount => some b.toText) (.ok balance)

/-- The report on waiting until every host holds a sum. -/
def awaitBalance (fleet : Fleet) (hosts : List Host) (requested? : Option Amount) :
    Program Report :=
  Conduct.conclude .awaitBalance do
    let amount ← Conduct.need "select" (.ofExcept (fleet.amount requested?))
    let (balances, _) ← Conduct.need "await-balance"
      (poll fleet.config.timing.poll ("balance of " ++ amount.toText)
        (fleet.balanceRound hosts amount))
    (hosts.zip balances).forM fun (host, balance) => enterBalance host balance

end NodeFleet.Fleet
