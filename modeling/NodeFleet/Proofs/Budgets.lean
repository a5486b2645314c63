import NodeFleet.Proofs.Costs
import NodeFleet.Proofs.Payments
import NodeFleet.Proofs.Phases

/-!
# NodeFleet.Proofs.Budgets — what the procedures cost that do not poll

Each of these procedures tries at most so many sessions and makes at most so many requests as its
hosts, its binaries and its destinations are many, whatever the fleet answers and whenever the
operator cancels.

* `startHost_costs`, `installMasternode_costs`, `sweepHost_costs`, ...: what each host costs.
* `sweep_costs`, `restartWallets_costs`, `transfer_costs`, ...: what each procedure costs.
-/

namespace NodeFleet

namespace Fleet

variable (fleet : Fleet) (host : Host)

/-! ## Steps -/

theorem startHost_costs (wiped : Bool) : Leaves (Costs 1 9) (fleet.startHost wiped host) := by
  have hgenerate : Leaves (Costs 0 1)
      (if host.role = Role.main then fleet.enableGeneration host else pure ()) :=
    leaves_ite (fun _ => costs_then expect_costs fun _ => leaves_pure _) fun _ =>
      leaves_end Costs.nil _
  have hstart : Leaves (Costs 0 4) (do
      fleet.startDaemon host
      if host.role = Role.main then fleet.enableGeneration host) :=
    costs_bind (fleet.startDaemon_costs host) fun _ => hgenerate
  have hconfigured : Leaves (Costs 0 6) (do
      if host.role ≠ Role.masternode then fleet.writeStakingConfig host
      fleet.startDaemon host
      if host.role = Role.main then fleet.enableGeneration host) :=
    leaves_ite (fun _ => costs_bind writeConfigFile_costs fun _ => hstart) fun _ =>
      costs_mono hstart (Nat.le_refl 0) (by decide)
  have hsteps : Leaves (Costs 0 7) (fleet.startSteps wiped host) :=
    leaves_ite (fun _ => costs_bind (fleet.wipe_costs host) fun _ => hconfigured) fun _ =>
      costs_mono hconfigured (Nat.le_refl 0) (by decide)
  exact costs_inSession hsteps

theorem configureHost_costs : Leaves (Costs 1 4) (fleet.configureHost host) :=
  costs_inSession (costs_then writeConfigFile_costs fun _ => leaves_pure _)

theorem installMasternode_costs (staking : Host) (key : String) :
    Leaves (Costs 1 10) (fleet.installMasternode staking key host) := by
  have hstop : Leaves (Costs 0 3) (fleet.stopOrGoOn host) := by
    show Leaves (Costs (0 + 0) (1 + 2)) (fleet.stopOrGoOn host)
    refine costs_bind (costs_caught expect_costs) fun result => ?_
    split
    · exact settle_costs
    · exact leaves_end Costs.nil _
    · exact leaves_end (m := Program) Costs.nil _
  exact costs_inSession (costs_bind writeConfigFile_costs fun _ =>
    costs_bind hstop fun _ => fleet.startDaemon_costs host)

theorem startMasternode_costs (key : String) :
    Leaves (Costs 1 7) (fleet.startMasternode host key) :=
  costs_inSession (costs_bind writeConfigFile_costs fun _ => fleet.startDaemon_costs host)

theorem install_costs (binaries : List Binary) :
    Leaves (Costs 1 (2 * binaries.length + 2)) (fleet.install binaries host) := by
  have hswap (binary : Binary) : Leaves (Costs 0 1) (fleet.swapBinary host binary) := by
    refine costs_then (costs_caught expect_costs) fun result => ?_
    cases result with
    | ok _ => exact leaves_pure _
    | error _ => exact leaves_throw _
  have hstage (binary : Binary) : Leaves (Costs 0 1) (fleet.stageBinary host binary) :=
    writeFile_costs
  have hsteps : Leaves (Costs 0 (2 * binaries.length)) (do
      binaries.forM (fleet.stageBinary host)
      binaries.forM (fleet.swapBinary host)) := by
    refine costs_mono (costs_bind (costs_forM hstage) fun _ => costs_forM hswap) ?_ ?_
    · simp
    · omega
  exact costs_inSession hsteps

theorem makeKey_costs : Leaves (Costs 0 6) (fleet.makeKey host) := by
  have hkey : Leaves (Costs 0 1) (do
      let key ← Conduct.need "genkey" (expectToken host (fleet.command .privateKey))
      Conduct.passed "genkey" host none
      pure key : Conduct String) :=
    costs_then (Conduct.costs_need expectToken_costs) fun _ =>
      leaves_bind (Conduct.leaves_passed _ _ _) fun _ => leaves_pure _
  have hsettled : Leaves (Costs 0 3) (do
      Conduct.need "start-staking" (settle (.ofSeconds fleet.config.timing.daemonSettle))
      let key ← Conduct.need "genkey" (expectToken host (fleet.command .privateKey))
      Conduct.passed "genkey" host none
      pure key : Conduct String) :=
    costs_bind (Conduct.costs_need settle_costs) fun _ => hkey
  have hstarted : Leaves (Costs 0 4) (do
      let started ← Conduct.attempt (expect host (fleet.command .start) .start)
      Conduct.enter fun r => r.stageResult "start-staking" (some host) (fun _ => none) started
      Conduct.need "start-staking" (settle (.ofSeconds fleet.config.timing.daemonSettle))
      let key ← Conduct.need "genkey" (expectToken host (fleet.command .privateKey))
      Conduct.passed "genkey" host none
      pure key : Conduct String) :=
    costs_bind (Conduct.costs_attempt expect_costs) fun _ =>
      costs_free_bind (Conduct.leaves_enter _) fun _ => hsettled
  exact costs_bind (Conduct.costs_need writeConfigFile_costs) fun _ =>
    costs_free_bind (Conduct.leaves_passed _ _ _) fun _ => hstarted

/-! ## Looking at a host -/

theorem inspect_costs :
    Leaves (Costs 0 (fleet.config.mainServices.length + 3)) (fleet.inspect host) := by
  have hask (command : Command) : Leaves (Costs 0 1) (Inspection.ask host command) :=
    costs_lift_state exchange_costs
  have hnote (change : Snapshot → Snapshot) : Leaves (Costs 0 0) (Inspection.note change) :=
    leaves_lift_except (leaves_modify (m := Program) change)
  have hlook (command : Command) (change : Reply → Snapshot → Snapshot) :
      Leaves (Costs 0 1) (do
        let reply ← Inspection.ask host command
        Inspection.note (change reply) : Inspection Unit) :=
    costs_then (hask command) fun reply => hnote (change reply)
  have hmain :
      Leaves (Costs 0 (fleet.config.mainServices.length + 1)) (fleet.inspectMain host) := by
    refine costs_mono (costs_bind (costs_forM fun name => hlook _ _) fun _ => hlook _ _) ?_ ?_
    · simp
    · simp
  have hother : Leaves (Costs 0 2) (fleet.inspectOther host) :=
    costs_bind (hask _) fun _ => costs_free_bind (hnote _) fun _ => hlook _ _
  have hrest : Leaves (Costs 0 (fleet.config.mainServices.length + 2))
      (if host.role = .main then fleet.inspectMain host else fleet.inspectOther host) :=
    leaves_ite (fun _ => costs_mono hmain (Nat.le_refl 0) (by omega)) fun _ =>
      costs_mono hother (Nat.le_refl 0) (by omega)
  refine costs_mono (costs_bind (hask _) fun _ => costs_free_bind (hnote _) fun _ => hrest) ?_ ?_
  · exact Nat.le_refl 0
  · omega

theorem sweepHost_costs :
    Leaves (Costs 1 (fleet.config.mainServices.length + 6)) (fleet.sweepHost host) := by
  have hvisit : Leaves (Costs 1 (fleet.config.mainServices.length + 5)) (fleet.visit host) := by
    refine costs_then (costs_withSession (fleet.inspect_costs host _)) fun visited => ?_
    cases visited with
    | ok _ => exact leaves_pure _
    | error _ => exact leaves_pure _
  have hping (seen : Snapshot) : Leaves (Costs 0 1) (fleet.pinged host seen) :=
    leaves_ite (fun _ => costs_map _ (leaves_request fun _ => ⟨Nat.le_refl 0, Nat.le_refl 1⟩))
      fun _ => leaves_end Costs.nil _
  show Leaves (Costs (1 + 0) (fleet.config.mainServices.length + 5 + 1)) (fleet.sweepHost host)
  refine costs_bind (costs_lift_state (costs_lift_except hvisit)) fun visited => ?_
  refine costs_then (costs_lift_state (costs_lift_except (hping visited.2))) fun _ => ?_
  exact leaves_bind (Conduct.leaves_settled _ _ _ _) fun _ => Conduct.leaves_enter _

theorem sweepAll_costs (hosts : List Host) :
    Leaves (Costs hosts.length (hosts.length * (fleet.config.mainServices.length + 8)))
      (fleet.sweepAll hosts) := by
  cases hosts with
  | nil => exact leaves_end Costs.nil _
  | cons host rest =>
    have hrest : Leaves (Costs (rest.length * 1) (rest.length *
        (fleet.config.mainServices.length + 8))) (rest.forM fun next => do
          Conduct.need "sweep-pause" (settle fleet.sweepPause)
          fleet.sweepHost next) := by
      refine costs_forM fun next => costs_mono (costs_bind (Conduct.costs_need settle_costs)
        fun _ => fleet.sweepHost_costs next) ?_ ?_
      · exact Nat.le_refl 1
      · omega
    refine costs_mono (costs_bind (fleet.sweepHost_costs host) fun _ => hrest) ?_ ?_
    · rw [List.length_cons]
      omega
    · rw [length_cons_mul]
      omega

/-! ## The procedures that do not poll -/

section Procedures

variable {α : Type} {n : Nat} (hosts : List Host)

/-- Visits in a session each cost as many sessions as there are hosts. -/
theorem eachHost_costs {stage : String} {step : Host → Step α} {detail : α → Option String}
    (h : ∀ host, Leaves (Costs 1 n) (step host)) :
    Leaves (Costs hosts.length (hosts.length * n)) (Conduct.eachHost stage hosts step detail) :=
  costs_mono (Conduct.costs_eachHost h) (Nat.le_of_eq (Nat.mul_one _)) (Nat.le_refl _)

theorem sweep_costs :
    Leaves (Costs hosts.length (hosts.length * (fleet.config.mainServices.length + 8)))
      (fleet.sweep hosts) := Conduct.costs_conclude (fleet.sweepAll_costs hosts)

theorem stopWallets_costs :
    Leaves (Costs hosts.length (hosts.length * 5)) (fleet.stopWallets hosts) :=
  Conduct.costs_conclude (eachHost_costs hosts fleet.stopHost_costs)

theorem startWallets_costs (wiped : Bool) :
    Leaves (Costs hosts.length (hosts.length * 9)) (fleet.startWallets wiped hosts) :=
  Conduct.costs_conclude (eachHost_costs hosts fun host => fleet.startHost_costs host wiped)

theorem restartWallets_costs (wiped : Bool) :
    Leaves (Costs (2 * fleet.roster.all.length) (14 * fleet.roster.all.length))
      (fleet.restartWallets wiped) := by
  have hstages : Leaves (Costs (fleet.roster.all.length + fleet.roster.all.length)
      (fleet.roster.all.length * 5 + fleet.roster.all.length * 9)) (do
        fleet.stopStage fleet.roster.all
        fleet.startStage wiped fleet.roster.all : Conduct Unit) :=
    costs_bind (eachHost_costs _ fleet.stopHost_costs) fun _ =>
      eachHost_costs _ fun host => fleet.startHost_costs host wiped
  refine Conduct.costs_conclude (costs_mono hstages ?_ ?_)
  · omega
  · omega

theorem writeStakingConfigs_costs :
    Leaves (Costs hosts.length (hosts.length * 4)) (fleet.writeStakingConfigs hosts) :=
  Conduct.costs_conclude (eachHost_costs hosts fleet.configureHost_costs)

theorem promote_costs (staking? : Option Host) :
    Leaves (Costs (1 + fleet.masternodes.length) (8 + 10 * fleet.masternodes.length))
      (fleet.promote staking?) := by
  have hrest : Leaves (Costs (0 + 1 + fleet.masternodes.length)
      (6 + 2 + fleet.masternodes.length * 10)) (do
        let staking := staking?.getD fleet.roster.stakingHost
        let key ← Conduct.inSession "connect-staking" staking (fleet.makeKey staking)
        Conduct.eachHost "restart-masternode" fleet.masternodes
          (fleet.installMasternode staking key) fun _ => none) :=
    costs_bind (Conduct.costs_inSession (fleet.makeKey_costs _)) fun key =>
      eachHost_costs _ fun host => fleet.installMasternode_costs host _ key
  refine Conduct.costs_conclude (costs_mono (leaves_ite (fun _ => ?_) fun _ => hrest) ?_ ?_)
  · exact costs_free_bind (Conduct.leaves_abort _ _) fun _ => hrest
  · omega
  · omega

/-- As many binaries are handed on as were to be read. -/
theorem readBinaries_length {paths : List String} {l : Log} {binaries : List Binary}
    (h : (paths.mapM readBinary).run.Yields l (.ok binaries)) :
    binaries.length = paths.length := by
  induction paths generalizing l binaries with
  | nil =>
    cases (Program.yields_run_pure.mp h).2
    rfl
  | cons path paths ih =>
    rw [List.mapM_cons] at h
    obtain ⟨_, _, _, rfl, -, h⟩ := Program.yields_bind_ok.mp h
    obtain ⟨_, _, rest, rfl, hrest, h⟩ := Program.yields_bind_ok.mp h
    cases (Program.yields_run_pure.mp h).2
    exact congrArg Nat.succ (ih hrest)

theorem installBinaries_costs :
    Leaves (Costs hosts.length (fleet.config.binaries.length +
      hosts.length * (2 * fleet.config.binaries.length + 2))) (fleet.installBinaries hosts) := by
  have hread (path : String) : Leaves (Costs 0 1) (readBinary path) := by
    unfold readBinary
    split
    · exact leaves_end (m := Program) Costs.nil _
    · refine costs_then (costs_lift_except (leaves_request fun _ => ?_)) fun loaded => ?_
      · exact ⟨Nat.le_refl 0, Nat.le_refl 1⟩
      · split
        · exact leaves_pure _
        · exact leaves_throw _
  have hinstall : Leaves (Costs (fleet.config.binaries.length * 0 + hosts.length)
      (fleet.config.binaries.length * 1 + hosts.length * (2 * fleet.config.binaries.length + 2)))
      (do
        let binaries ← Conduct.need "read-binaries" (fleet.config.binaries.mapM readBinary)
        Conduct.eachHost "install" hosts (fleet.install binaries) fun _ =>
          some (toString binaries.length ++ " binaries") : Conduct Unit) := by
    refine Conduct.costs_bind_ends (Conduct.costs_need (costs_mapM hread)) ?_
    intro before l binaries mid hends
    rw [← readBinaries_length (Conduct.ends_need_ok.mp hends).1]
    exact eachHost_costs hosts fun host => fleet.install_costs host binaries
  refine Conduct.costs_conclude (costs_mono hinstall ?_ ?_)
  · omega
  · omega

/-- Each host that is asked for its address costs a session. -/
theorem deriveAddresses_costs :
    Leaves (Costs hosts.length (hosts.length * 3)) (fleet.deriveAddresses hosts) := by
  intro before l r h
  obtain ⟨derived, after, hv, rfl, -⟩ := deriveAddresses_ends h
  rw [List.length_map]
  exact (hv.costs fun host => queryToken_costs).mono (Nat.le_of_eq (Nat.mul_one _)) (Nat.le_refl _)

theorem sendAll_costs (amount : Amount) (destinations : List Destination) :
    Leaves (Costs 0 destinations.length) (fleet.sendAll amount destinations) := by
  refine costs_mono (costs_forM fun destination => costs_then
    (Conduct.costs_attempt expectToken_costs) fun _ => Conduct.leaves_enter _) ?_ ?_
  · omega
  · omega

theorem transfer_costs (addresses : List String) (requested? : Option Amount) :
    Leaves (Costs (hosts.length + 1) (4 * hosts.length + addresses.length + 2))
      (fleet.transfer hosts addresses requested?) := by
  have hsend (amount : Amount) : Leaves (Costs (hosts.length + (0 + 1))
      (hosts.length * 3 + (hosts.length + addresses.length + 2))) (do
        let derived ← fleet.deriveAddresses hosts
        let destinations := derived ++ addresses.map Destination.given
        unless destinations.isEmpty do
          Conduct.inSession "connect-main" fleet.roster.main
            (fleet.sendAll amount destinations)) := by
    refine Conduct.costs_bind_ends (fleet.deriveAddresses_costs hosts) ?_
    intro before l derived mid hends
    -- no more is sent to hosts than there are hosts that gave an address
    obtain ⟨visits, _, -, rfl, heq, -⟩ := deriveAddresses_ends hends
    cases heq
    have hfew : (visits.filterMap derived?).length ≤ visits.length := List.length_filterMap_le _ _
    refine leaves_ite (fun _ => leaves_end Costs.nil _) fun _ =>
      Conduct.costs_inSession (costs_mono (fleet.sendAll_costs amount _) (Nat.le_refl 0) ?_)
    rw [List.length_append, List.length_map, List.length_map]
    omega
  have hrest : Leaves (Costs (hosts.length + 1) (4 * hosts.length + addresses.length + 2)) (do
      let amount ← Conduct.need "select" (.ofExcept (fleet.amount requested?))
      let derived ← fleet.deriveAddresses hosts
      let destinations := derived ++ addresses.map Destination.given
      unless destinations.isEmpty do
        Conduct.inSession "connect-main" fleet.roster.main
          (fleet.sendAll amount destinations)) := by
    refine costs_free_bind (Conduct.leaves_need (leaves_ofExcept _)) fun amount =>
      costs_mono (hsend amount) ?_ ?_
    · omega
    · omega
  refine Conduct.costs_conclude (leaves_ite (fun _ => ?_) fun _ => hrest)
  exact costs_free_bind (Conduct.leaves_abort _ _) fun _ => hrest

theorem tellLog_costs (telling : Telling) : Costs 1 3 (fleet.tellLog telling) := by
  obtain ⟨host, cause | answer⟩ := telling
  · exact Costs.refused (c := 0) (n := 1)
  · exact Costs.session (c := 0) (n := 1) ⟨Nat.le_refl 0, Nat.le_refl 1⟩

theorem rebootAll_costs :
    Leaves (Costs hosts.length (hosts.length * 3)) (fleet.rebootAll hosts) := by
  intro before l r h
  obtain ⟨tellings, _, rfl, rfl, -⟩ := fleet.rebootAll_tells h
  rw [List.length_map, List.flatMap_def]
  refine (Costs.flatten (List.forall_mem_map.mpr fun t _ => fleet.tellLog_costs t)).mono ?_ ?_
  · simp
  · simp

theorem reboot_costs :
    Leaves (Costs (2 * hosts.length) (8 * hosts.length + 2)) (fleet.reboot hosts) := by
  have hphases : Leaves (Costs (hosts.length + (0 + hosts.length))
      (hosts.length * 3 + (2 + hosts.length * 5))) (do
        let told ← fleet.rebootAll hosts
        unless told.isEmpty do
          Conduct.need "reboot-settle" (settle (.ofSeconds fleet.config.timing.rebootSettle))
          Conduct.eachHost "start" told fleet.startAgain fun _ => none) := by
    refine Conduct.costs_bind_ends (fleet.rebootAll_costs hosts) ?_
    intro before l told mid hends
    obtain ⟨tellings, _, rfl, -, heq, -⟩ := fleet.rebootAll_tells hends
    cases heq
    have hfew : (tellings.filterMap Telling.told?).length ≤ tellings.length :=
      List.length_filterMap_le _ _
    refine leaves_ite (fun _ => leaves_end Costs.nil _) fun _ =>
      costs_bind (Conduct.costs_need settle_costs) fun _ =>
        costs_mono (eachHost_costs _ fleet.startAgain_costs) ?_ ?_
    · rwa [List.length_map]
    · rw [List.length_map]
      exact Nat.mul_le_mul_right 5 hfew
  refine Conduct.costs_conclude (costs_mono hphases ?_ ?_)
  · omega
  · omega

theorem openConsoles_costs :
    Leaves (Costs 0 hosts.length) (fleet.openConsoles hosts) := by
  have hlaunch (program : String) (arguments : List String) :
      Leaves (Costs 0 1) (launch program arguments) := by
    refine costs_then (costs_lift_except (leaves_request fun _ => ?_)) fun launched => ?_
    · exact ⟨Nat.le_refl 0, Nat.le_refl 1⟩
    · split
      · exact leaves_pure _
      · exact leaves_throw _
  have habort (e : FleetError) :
      Leaves (Costs 0 hosts.length) (Conduct.abort "select" e : Conduct Unit) :=
    costs_mono (Conduct.leaves_abort (P := Costs 0 0) _ _) (Nat.le_refl 0) (Nat.zero_le _)
  refine Conduct.costs_conclude ?_
  split
  · split
    · exact habort _
    · refine costs_mono (Conduct.costs_eachHost fun host => hlaunch _ _) ?_ ?_
      · exact Nat.le_refl 0
      · exact Nat.le_of_eq (Nat.mul_one _)
  · exact habort _

end Procedures

end Fleet

end NodeFleet
