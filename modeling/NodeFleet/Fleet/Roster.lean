import NodeFleet.Config.Validation
import NodeFleet.Fleet.Error
import NodeFleet.Text.Search

/-!
# NodeFleet.Fleet.Roster — the hosts of a fleet, and how tokens select them

* `Roster`: the main host, then all others in the order of their roles.  `Roster.ofConfig` accepts a
  description without a fault in which every host has a credential.
* `Roster.all`: each host once, under its first role.  `Roster.byRole`, `control`, `stakingHost`:
  single hosts and groups.
* `Roster.resolve`: a token that is some host's name or address selects the first such host; any
  other selects every host whose name it is a part of; what selects nothing stays free.
* `Roster.peers`: the addresses of the others, each once.
-/

namespace NodeFleet

/-- The hosts of a fleet in the order of their roles; a host with two roles stands there twice. -/
structure Roster where
  main : Host
  others : List Host
  deriving DecidableEq, Repr, Inhabited

/-- The list with `host` at its end, unless it holds that host already. -/
def addHost (hosts : List Host) (host : Host) : List Host :=
  if hosts.any (·.sameEntry host) then hosts else hosts ++ [host]

/-- The list with `x` at its end, unless it holds `x` already. -/
def addNew [BEq α] (xs : List α) (x : α) : List α := if xs.contains x then xs else xs ++ [x]

/-- What tokens select: hosts, and the tokens that select none. -/
structure Resolution where
  hosts : List Host
  free : List String
  deriving DecidableEq, Repr, Inhabited

namespace Roster

/-- The listed hosts under one role; the first without a credential is an error. -/
def group (config : Config) (role : Role) (entries : List HostEntry) :
    Except ConfigError (List Host) :=
  entries.mapM fun entry =>
    match entry.toHost? config role with
    | some host => .ok host
    | none => .error (.noCredentials entry.name)

/-- The hosts of a description. -/
def ofConfig (config : Config) : Except ConfigError Roster := do
  config.validate
  let main ←
    match config.main.toHost? config .main with
    | some host => .ok host
    | none => .error (.noCredentials config.main.name)
  let masternodes ← group config .masternode config.masternodes
  let staking ← group config .staking config.stakingNodes
  let wallets ← group config .wallet config.wallets
  pure { main, others := masternodes ++ staking ++ wallets }

/-- Every entry, the main host first. -/
def entries (r : Roster) : List Host := r.main :: r.others

/-- Every host once, under its first role. -/
def all (r : Roster) : List Host := r.entries.foldl addHost []

/-- The hosts under a role. -/
def byRole (r : Roster) (role : Role) : List Host := r.entries.filter fun h => h.role == role

/-- The first masternode. -/
def firstMasternode? (r : Roster) : Option Host := (r.byRole .masternode).head?

/-- The host that makes the key for a promotion: the first staking node, else the main host. -/
def stakingHost (r : Roster) : Host := ((r.byRole .staking).head?).getD r.main

/-- The host that holds the collateral and the masternode list. -/
def control (r : Roster) (config : Config) : Host :=
  (config.controlWallet?.bind fun name => r.entries.find? fun h => h.name == name).getD r.main

/-- The main host and every staking node, each name once. -/
def stakers (r : Roster) : List Host :=
  (r.byRole .staking).foldl
    (fun hosts host => if hosts.any fun h => h.name == host.name then hosts else hosts ++ [host])
    [r.main]

/-- The hosts that one token selects. -/
def matching (r : Roster) (token : String) : List Host :=
  match r.entries.find? (·.answersTo token) with
  | some host => [host]
  | none => r.entries.filter fun h => !token.isEmpty && Text.occursIn token h.name

/-- What the tokens before and one more token select. -/
def resolveStep (r : Roster) (res : Resolution) (token : String) : Resolution :=
  match r.matching token with
  | [] => { res with free := res.free ++ [token] }
  | hosts => { res with hosts := hosts.foldl addHost res.hosts }

/-- What tokens select. -/
def resolve (r : Roster) (tokens : List String) : Resolution := tokens.foldl r.resolveStep ⟨[], []⟩

/-- The hosts that tokens select, all of which have to select some; no tokens select `default`. -/
def select (r : Roster) (tokens : List String) (default : List Host) :
    Except FleetError (List Host) :=
  if tokens.isEmpty then .ok default
  else
    let res := r.resolve tokens
    match res.free.head? with
    | some token => .error (.hostNotFound token)
    | none => .ok res.hosts

/-- The addresses of all entries that do not have the excluded host's address, each once. -/
def peers (r : Roster) (excluded? : Option Host) : List String :=
  let others := r.entries.filter fun h => !excluded?.any fun e => e.address == h.address
  (others.map Host.address).foldl addNew []

end Roster

end NodeFleet
