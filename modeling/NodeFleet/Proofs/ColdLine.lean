import NodeFleet.Proofs.Requests
import NodeFleet.Proofs.Session
import NodeFleet.Proofs.Stages

/-!
# NodeFleet.Proofs.ColdLine — a cold restart is a straight line

`Fleet.coldLine` is the line of stages of a cold restart: each stage with its step, and with what
the stages before it have given.  `Fleet.coldRestart_follows` says that every run of a cold restart,
whatever the fleet, the clock and the operator do, is a run of that line.

* `Fleet.startLine`, `Fleet.listLine`, `Fleet.controlLine`, `Fleet.mainLine`, `Fleet.wipeLine`: the
  ends of the line, from the last stages up.
* `Fleet.startListed_follows`, `Fleet.listMasternode_follows`, ...: the procedures that follow them.
-/

namespace NodeFleet

namespace Fleet

variable (fleet : Fleet)

/-! ## The line -/

/-- The line of the masternode list: alias, endpoint, key and collateral. -/
def masternodeLine (masternode : Host) (key hash : String) : String :=
  fleet.config.masternodeAlias ++ " " ++ masternode.address ++ ":" ++
    toString fleet.config.network.port ++ " " ++ key ++ " " ++ hash ++ " 1"

/-- Configures and starts the masternode that has the key. -/
def startMasternode (masternode : Host) (key : String) : Step Unit :=
  inSession masternode do
    writeNodeConfig masternode fleet.daemon (fleet.masternodeConfig masternode key)
    fleet.startDaemon masternode

/-- Stops and starts the control wallet. -/
def cycleControl : Step Unit := do
  let _ ← fleet.stopHost fleet.control
  fleet.startHost false fleet.control

/-- The first masternode, unless there is none. -/
def chosenMasternode : Except FleetError Host :=
  match fleet.roster.firstMasternode? with
  | some masternode => .ok masternode
  | none => .error (.noHostForRole .masternode)

/-- The stages that start the listed masternode. -/
def startLine (masternode : Host) (key : String) : Line :=
  .stage (.on "start-masternode-daemon" masternode (fun _ => none)
    (fleet.startMasternode masternode key)) fun _ =>
  .stage (.on "start-masternode-alias" fleet.control (fun _ => none)
    (query fleet.control (fleet.command (.startAlias fleet.config.masternodeAlias))
      .startMasternode)) fun _ =>
  .stage (.on "start-masternode-local" masternode (fun _ => none)
    (query masternode (fleet.command .startLocal) .startMasternode)) fun _ =>
  .finished

/-- The stages that make the key, pay the collateral, and list and start the masternode. -/
def listLine (amount : Amount) (masternode : Host) : Line :=
  .stage (.on "genkey" fleet.control (fun _ => none)
    (queryToken fleet.control (fleet.command .privateKey))) fun key =>
  .stage (.on "funding-address" fleet.control some
    (queryToken fleet.control (fleet.command (.accountAddress fleet.config.masternodeAlias))))
    fun address =>
  .stage (.on "send-collateral" fleet.roster.main some
    (queryToken fleet.roster.main (fleet.command (.pay address amount)))) fun hash =>
  .stage (.on "confirm-collateral" fleet.control
    (fun attempts => some ("confirmed after " ++ toString attempts ++ " polls"))
    (fleet.awaitConfirmation fleet.control hash)) fun _ =>
  .stage (.on "masternode-conf" fleet.control
    (fun _ => some (fleet.masternodeLine masternode key hash))
    (fleet.writeMasternodeList (fleet.masternodeLine masternode key hash))) fun _ =>
  fleet.startLine masternode key

/-- The stages after the control wallet's host is known to be up. -/
def controlLine (amount : Amount) (masternode : Host) : Line :=
  if fleet.control.name ≠ fleet.roster.main.name then
    .stage (.on "restart-control" fleet.control (fun _ => none) fleet.cycleControl) fun _ =>
    fleet.listLine amount masternode
  else fleet.listLine amount masternode

/-- The stages after the daemons have been stopped and wiped. -/
def mainLine (amount : Amount) (masternode : Host) : Line :=
  .stage (.on "start-main" fleet.roster.main (fun _ => none)
    (fleet.startHost false fleet.roster.main)) fun _ =>
  .stage (.silent "bootstrap-settle" (settle (.ofSeconds fleet.config.timing.bootstrapSettle)))
    fun _ =>
  fleet.controlLine amount masternode

/-- The stages after the daemons have been stopped. -/
def wipeLine (wiped : Bool) (amount : Amount) (masternode : Host) : Line :=
  if wiped then
    .stage (.inTurn "wipe" fleet.roster.all fun host => inSession host (fleet.wipe host)) fun _ =>
    fleet.mainLine amount masternode
  else fleet.mainLine amount masternode

/-- The stages of a cold restart. -/
def coldLine (wiped : Bool) (requested? : Option Amount) : Line :=
  .stage (.silent "select" (.ofExcept (fleet.amount requested?))) fun amount =>
  .stage (.silent "select-masternode" (.ofExcept fleet.chosenMasternode)) fun masternode =>
  .stage (.collected "stop-all" fleet.roster.all fleet.stopHost) fun _ =>
  fleet.wipeLine wiped amount masternode

/-- A choice that is known beforehand asks nothing. -/
theorem runs_known {α : Type} {name : String} {result : Except FleetError α} {next : α → Line}
    {l : Log} {records : List StageRecord} {end? : Option (String × FleetError)}
    (h : Line.Runs (.stage (.silent name (.ofExcept result)) next) l records end?) :
    l = [] ∨ ∃ a, result = .ok a ∧ (next a).Runs l records end? := by
  obtain ⟨l₁, l₂, r₁, r₂, a, rfl, rfl, ⟨hpass, rfl⟩, hrest⟩ | ⟨e, -, hfail, -⟩ :=
    Line.runs_stage.mp h
  · obtain ⟨rfl, hresult⟩ := yields_ofExcept.mp hpass
    exact .inr ⟨a, hresult.symm, hrest⟩
  · obtain ⟨rfl, -⟩ := yields_ofExcept.mp hfail
    exact .inl rfl

theorem chosenMasternode_eq_ok {masternode : Host} :
    fleet.chosenMasternode = .ok masternode ↔
      fleet.roster.firstMasternode? = some masternode := by
  unfold chosenMasternode
  cases fleet.roster.firstMasternode? with
  | none => simp
  | some host => simp

/-! ## A cold restart follows its line -/

theorem startListed_follows (masternode : Host) (provisioning : Provisioning)
    (hname : provisioning.listName = fleet.config.masternodeAlias) :
    (fleet.startListed masternode provisioning).Follows
      (fleet.startLine masternode provisioning.privateKey) := by
  unfold startListed startLine
  rw [hname]
  exact Conduct.follows_on fun _ => Conduct.follows_on fun _ => Conduct.follows_last

theorem listMasternode_follows (masternode : Host) (amount : Amount) :
    (do
      let provisioning ← fleet.listMasternode masternode amount
      fleet.startListed masternode provisioning).Follows
        (fleet.listLine amount masternode) := by
  unfold listMasternode provision sendCollateral listLine
  simp only [bind_assoc, pure_bind]
  refine Conduct.follows_on fun key => Conduct.follows_on fun address => ?_
  refine Conduct.follows_on fun hash => ?_
  refine Conduct.follows_enter (fun _ => rfl) (fun _ => rfl) ?_
  refine Conduct.follows_on fun attempts => ?_
  have hline : Provisioning.line? { Provisioning.new fleet.config.masternodeAlias key
      fleet.config.network.port with collateral? := some hash, confirmed := true }
      masternode.address = some (fleet.masternodeLine masternode key hash) := rfl
  rw [hline]
  simp only [bind_assoc, pure_bind]
  refine Conduct.follows_on fun _ => ?_
  exact fleet.startListed_follows masternode _ rfl

theorem restartControl_follows (masternode : Host) (amount : Amount) :
    (do
      fleet.restartControl
      let provisioning ← fleet.listMasternode masternode amount
      fleet.startListed masternode provisioning).Follows
        (fleet.controlLine amount masternode) := by
  unfold restartControl controlLine
  by_cases hname : fleet.control.name ≠ fleet.roster.main.name
  · simp only [hname, ite_true, bind_assoc, ne_eq, not_false_eq_true]
    have h : (do
        Conduct.need "restart-control" fleet.cycleControl
        Conduct.passed "restart-control" fleet.control none
        let provisioning ← fleet.listMasternode masternode amount
        fleet.startListed masternode provisioning).Follows
          (.stage (.on "restart-control" fleet.control (fun _ => none) fleet.cycleControl) fun _ =>
            fleet.listLine amount masternode) :=
      Conduct.follows_on fun _ => fleet.listMasternode_follows masternode amount
    have hcycle : Conduct.need "restart-control" fleet.cycleControl =
        Conduct.need "restart-control" (fleet.stopHost fleet.control) >>= fun _ =>
          Conduct.need "restart-control" (fleet.startHost false fleet.control) :=
      Conduct.need_bind _ _ _
    rw [hcycle] at h
    simpa only [bind_assoc] using h
  · simp only [hname, ite_false, pure_bind]
    exact fleet.listMasternode_follows masternode amount

theorem startMain_follows (masternode : Host) (amount : Amount) :
    (do
      Conduct.need "start-main" (fleet.startHost false fleet.roster.main)
      Conduct.passed "start-main" fleet.roster.main none
      Conduct.need "bootstrap-settle" (settle (.ofSeconds fleet.config.timing.bootstrapSettle))
      fleet.restartControl
      let provisioning ← fleet.listMasternode masternode amount
      fleet.startListed masternode provisioning).Follows
        (fleet.mainLine amount masternode) := by
  unfold mainLine
  refine Conduct.follows_on fun _ => ?_
  refine Conduct.follows_bind Conduct.conducts_silent fun _ => ?_
  exact fleet.restartControl_follows masternode amount

theorem coldStages_follows (wiped : Bool) (amount : Amount) (masternode : Host) :
    (fleet.coldStages wiped amount masternode).Follows
      (.stage (.collected "stop-all" fleet.roster.all fleet.stopHost) fun _ =>
        fleet.wipeLine wiped amount masternode) := by
  unfold coldStages
  refine Conduct.follows_bind Conduct.conducts_collected fun _ => ?_
  unfold wipeLine
  cases wiped with
  | true => exact Conduct.follows_bind Conduct.conducts_inTurn fun _ =>
      fleet.startMain_follows masternode amount
  | false => exact fleet.startMain_follows masternode amount

/-- Every run of a cold restart is a run of its line. -/
theorem coldRestart_follows (wiped : Bool) (requested? : Option Amount) :
    (do
      let amount ← Conduct.need "select" (.ofExcept (fleet.amount requested?))
      match fleet.roster.firstMasternode? with
      | none => Conduct.abort "select-masternode" (.noHostForRole .masternode)
      | some masternode => fleet.coldStages wiped amount masternode).Follows
        (fleet.coldLine wiped requested?) := by
  refine Conduct.follows_bind Conduct.conducts_silent fun amount => ?_
  have hchoice : (match fleet.roster.firstMasternode? with
      | none => Conduct.abort "select-masternode" (.noHostForRole .masternode)
      | some masternode => fleet.coldStages wiped amount masternode) =
      Conduct.need "select-masternode" (.ofExcept fleet.chosenMasternode) >>=
        fleet.coldStages wiped amount := by
    unfold chosenMasternode
    cases fleet.roster.firstMasternode? with
    | none => rfl
    | some masternode => rfl
  rw [hchoice]
  refine Conduct.follows_bind Conduct.conducts_silent fun masternode => ?_
  exact fleet.coldStages_follows wiped amount masternode

end Fleet

end NodeFleet
