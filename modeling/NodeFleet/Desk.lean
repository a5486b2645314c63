import NodeFleet.Amount.Decimal
import NodeFleet.Fleet.Observed
import NodeFleet.Procedure.AwaitBalance
import NodeFleet.Procedure.ColdRestart
import NodeFleet.Procedure.Console
import NodeFleet.Procedure.Promotion
import NodeFleet.Procedure.Reboot
import NodeFleet.Procedure.Rollout
import NodeFleet.Procedure.Sweep
import NodeFleet.Procedure.Transfer

/-!
# NodeFleet.Desk — one order after the other

The desk takes an order, runs its procedure to the end, and only then takes the next, so that two
procedures never meet.

* `Order`: what can be asked for; hosts are given by tokens, and no tokens stand for the procedure's
  own choice of hosts.
* `Fleet.program`: the procedure that an order calls for.
* `Desk.carryOut`: runs it, and keeps what a sweep observed.
* `Desk.answer`: answers an order, or a question about what was observed or what tokens select.
-/

namespace NodeFleet

/-- What can be asked of a fleet. -/
inductive Order where
  | sweep (targets : List String)
  | stop (targets : List String)
  | start (targets : List String) (wiped : Bool)
  | restart (wiped : Bool)
  | coldRestart (wiped : Bool) (amount? : Option Amount)
  | writeStakingConfigs (targets : List String)
  | promote (staking? : Option String)
  | installBinaries (targets : List String)
  | transfer (tokens : List String) (amount? : Option Amount)
  | awaitBalance (targets : List String) (amount? : Option Amount)
  | reboot (targets : List String)
  | openConsoles (targets : List String)
  deriving DecidableEq, Repr, Inhabited

/-- What the tokens of a transfer that select no host stand for: a sum, and addresses. -/
structure Payment where
  amount? : Option Amount
  addresses : List String
  deriving DecidableEq, Repr, Inhabited

namespace Payment

/-- Adds a token: the first finite number is the sum, unless there is one; further numbers do not
count; what is no number is an address. -/
def addToken (p : Payment) (token : String) : Payment :=
  match Amount.read? token with
  | some amount => if amount.isFinite then { p with amount? := p.amount? <|> some amount } else p
  | none => { p with addresses := p.addresses ++ [token] }

/-- What tokens stand for, beside a sum that was given. -/
def ofTokens (amount? : Option Amount) (tokens : List String) : Payment :=
  tokens.foldl addToken ⟨amount?, []⟩

end Payment

namespace Fleet

/-- Runs a procedure on the hosts that the tokens select, or on the default ones without tokens. -/
def onTargets (fleet : Fleet) (procedure : Procedure) (tokens : List String) (default : List Host)
    (run : List Host → Program Report) : Program Report :=
  match fleet.roster.select tokens default with
  | .ok hosts => run hosts
  | .error e => pure ((Report.new procedure).abort "select" e)

/-- Promotes with the staking host that the token selects first, or with the fleet's own. -/
def promoteWith (fleet : Fleet) : Option String → Program Report
  | none => fleet.promote none
  | some token =>
    fleet.onTargets .promoteMasternodes [token] [] fun hosts => fleet.promote hosts.head?

/-- Sends a sum to what the tokens stand for. -/
def transferTo (fleet : Fleet) (tokens : List String) (amount? : Option Amount) : Program Report :=
  let resolution := fleet.roster.resolve tokens
  let payment := Payment.ofTokens amount? resolution.free
  fleet.transfer resolution.hosts payment.addresses payment.amount?

/-- The procedure that an order calls for. -/
def program (fleet : Fleet) : Order → Program Report
  | .sweep targets => fleet.onTargets .statusSweep targets fleet.roster.all fleet.sweep
  | .stop targets => fleet.onTargets .stopWallets targets fleet.roster.all fleet.stopWallets
  | .start targets wiped =>
    fleet.onTargets .startWallets targets fleet.roster.all (fleet.startWallets wiped)
  | .restart wiped => fleet.restartWallets wiped
  | .coldRestart wiped amount? => fleet.coldRestart wiped amount?
  | .writeStakingConfigs targets =>
    fleet.onTargets .generateStakingConfig targets fleet.roster.stakers fleet.writeStakingConfigs
  | .promote staking? => fleet.promoteWith staking?
  | .installBinaries targets =>
    fleet.onTargets .installBinaries targets fleet.roster.all fleet.installBinaries
  | .transfer tokens amount? => fleet.transferTo tokens amount?
  | .awaitBalance targets amount? =>
    fleet.onTargets .awaitBalance targets fleet.masternodes fun hosts =>
      fleet.awaitBalance hosts amount?
  | .reboot targets => fleet.onTargets .reboot targets fleet.roster.all fleet.reboot
  | .openConsoles targets =>
    fleet.onTargets .openConsoles targets fleet.roster.all fleet.openConsoles

end Fleet

/-- A fleet with what was last observed of it. -/
structure Desk where
  fleet : Fleet
  observed : Observed

namespace Desk

/-- A desk at which nothing has been observed. -/
def new (fleet : Fleet) : Desk := ⟨fleet, .empty⟩

/-- Keeps what a report observed. -/
def keep (desk : Desk) (report : Report) : Desk :=
  { desk with observed := report.snapshots.foldl Observed.record desk.observed }

/-- Carries out an order; a sweep leaves what it observed, also when it was aborted. -/
def carryOut (desk : Desk) (order : Order) : Program (Report × Desk) := do
  let report ← desk.fleet.program order
  match order with
  | .sweep _ => pure (report, desk.keep report)
  | _ => pure (report, desk)

end Desk

/-- What the desk is told or asked. -/
inductive Message where
  | order (order : Order)
  /-- What was last observed? -/
  | observed
  /-- Which hosts do the tokens select? -/
  | resolve (tokens : List String)
  deriving DecidableEq, Repr, Inhabited

/-- What the desk answers. -/
inductive Answer where
  | report (report : Report)
  | observed (table : Observed)
  | resolution (resolution : Resolution)
  deriving DecidableEq, Repr, Inhabited

/-- Answers a message; the fleet is asked only where there is an order. -/
def Desk.answer (desk : Desk) : Message → Program (Answer × Desk)
  | .order order => do
    let (report, later) ← desk.carryOut order
    pure (.report report, later)
  | .observed => pure (.observed desk.observed, desk)
  | .resolve tokens => pure (.resolution (desk.fleet.roster.resolve tokens), desk)

end NodeFleet
