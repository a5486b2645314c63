import NodeFleet.Daemon.Command
import NodeFleet.Daemon.NodeConfig
import NodeFleet.Fleet.Roster

/-!
# NodeFleet.Fleet.Basic — a fleet that procedures can be run on

A `Fleet` is a description together with the roster that was made from it, so that whoever holds a
fleet holds a valid description.

* `Fleet.amount`: the sum to be moved: the one asked for, else the configured one; it has to be
  positive.
* `Fleet.stakingConfig`: the node configuration in which a host has every other host of the fleet as
  a peer.
-/

namespace NodeFleet

/-- A valid description with its roster. -/
structure Fleet where
  config : Config
  roster : Roster
  /-- Whether sweeps ping the main host. -/
  pings : Bool
  ofConfig_config : Roster.ofConfig config = .ok roster

namespace Fleet

/-- The fleet of a description, unless that is at fault. -/
def ofConfig (config : Config) (pings : Bool) : Except ConfigError Fleet :=
  match h : Roster.ofConfig config with
  | .ok roster => .ok ⟨config, roster, pings, h⟩
  | .error e => .error e

/-- How the daemon is called on the fleet. -/
def daemon (fleet : Fleet) : Daemon := .ofConfig fleet.config

/-- A command for a host of the fleet. -/
def command (fleet : Fleet) (task : Task) : Command := ⟨fleet.daemon, task⟩

/-- The host that holds the collateral and the masternode list. -/
def control (fleet : Fleet) : Host := fleet.roster.control fleet.config

/-- The node configuration of a host that has every other host of the fleet as a peer. -/
def stakingConfig (fleet : Fleet) (host : Host) : NodeConfig :=
  .staking fleet.config.baseLines (fleet.roster.peers (some host))

/-- The sum to be moved: the one asked for, else the configured one. -/
def amount (fleet : Fleet) (requested? : Option Amount) : Except FleetError Amount :=
  let amount := requested?.getD fleet.config.collateral
  if amount.isPositive then .ok amount
  else .error (.invalid ("amount must be a positive number, got " ++ amount.toText))

/-! ## Small laws -/

theorem amount_eq_ok {fleet : Fleet} {requested? : Option Amount} {amount : Amount} :
    fleet.amount requested? = .ok amount ↔
      requested?.getD fleet.config.collateral = amount ∧ amount.isPositive = true := by
  unfold Fleet.amount
  by_cases hpositive : (requested?.getD fleet.config.collateral).isPositive = true
  · simp only [hpositive, if_true, Except.ok.injEq]
    exact ⟨fun h => ⟨h, h ▸ hpositive⟩, fun h => h.1⟩
  · simp only [hpositive, Bool.false_eq_true, if_false]
    exact ⟨nofun, fun h => absurd (h.1 ▸ h.2) hpositive⟩

end Fleet

end NodeFleet
