import NodeFleet.Config.Basic
import NodeFleet.Config.Error

/-!
# NodeFleet.Config.Validation — mistakes that would surface only in the middle of a procedure

`Config.fault?` names the first fault, in a fixed order: a host without a name or an address, a host
listed twice under one role, a control wallet that is no host, a sum that is not positive, an alias
that is not one word.  The same host may stand under two roles.
-/

namespace NodeFleet

/-- A host has to have a name and an address. -/
def HostEntry.fault? (host : HostEntry) : Option String :=
  if Text.isBlankText host.name then some "host with empty name"
  else if Text.isBlankText host.address then some ("host " ++ host.name ++ " has an empty address")
  else none

/-- The first name that occurs a second time. -/
def firstRepeated? (seen : List String) : List String → Option String
  | [] => none
  | name :: rest => if name ∈ seen then some name else firstRepeated? (name :: seen) rest

/-- No name stands twice in one list of hosts. -/
def listFault? (role : String) (hosts : List HostEntry) : Option String :=
  (firstRepeated? [] (hosts.map HostEntry.name)).map fun name =>
    "host " ++ name ++ " listed twice in " ++ role

namespace Config

/-- The control wallet, if one is named, has to be a listed host. -/
def controlFault? (config : Config) : Option String :=
  match config.controlWallet? with
  | none => none
  | some control =>
    if config.hostEntries.any fun h => h.name == control then none
    else some ("control_wallet " ++ control ++ " is not a configured host")

/-- The sum to be sent has to be positive. -/
def collateralFault? (config : Config) : Option String :=
  if config.collateral.isPositive then none else some "collateral_amount must be a positive number"

/-- The alias has to be a single word. -/
def aliasFault? (config : Config) : Option String :=
  if config.masternodeAlias.isEmpty || config.masternodeAlias.toList.any Text.isBlank then
    some "masternode_alias must be a single non-empty word"
  else none

/-- The first fault of the description. -/
def fault? (config : Config) : Option String :=
  config.hostEntries.findSome? HostEntry.fault?
  <|> listFault? "masternodes" config.masternodes
  <|> listFault? "staking_nodes" config.stakingNodes
  <|> listFault? "wallets" config.wallets
  <|> config.controlFault?
  <|> config.collateralFault?
  <|> config.aliasFault?

/-- A description without a fault, or its first fault. -/
def validate (config : Config) : Except ConfigError Unit :=
  match config.fault? with
  | some reason => .error (.invalid reason)
  | none => .ok ()

end Config

end NodeFleet
