import NodeFleet.Procedure.Promotion
import NodeFleet.Procedure.Reboot
import NodeFleet.Procedure.Rollout
import NodeFleet.Proofs.Parties
import NodeFleet.Proofs.Session

/-!
# NodeFleet.Proofs.Faults — what can go wrong in an open session

Once the session to a host is open, a step fails only by what that host does, and its failure names
the host: the session breaks, a command is rejected, a file is refused.  The one failure that is not
the host's is a wait that the operator cuts short.  So such a failure never says that a host is
down, and never that the operator has cancelled unless that is so.

* `Fault`: the failures, each with what it names.  `Faults`: a step that has no others.
* `faults_bind`, `faults_caught`, ...: the rules.
* `Fleet.stopSteps_faults`, `Fleet.startSteps_faults`, ...: what is done in the sessions of the
  procedures.
-/

namespace NodeFleet

/-- The failures of a step in the open session to a host, with the log of the step. -/
inductive Fault (host : Host) (l : Log) : FleetError → Prop
  | broken (cause : RemoteError) : Fault host l (.session host.name cause)
  | rejected (command reason : String) : Fault host l (.commandRejected host.name command reason)
  | refused (reason : String) : Fault host l (.transferFailure host.name reason)
  | cancelled (h : ¬ Calm l) : Fault host l .cancelled

/-- Every failure of the step is one of those in an open session to the host. -/
def Faults {α : Type} (host : Host) (step : Step α) : Prop :=
  ∀ l e, step.run.Yields l (.error e) → Fault host l e

section Rules

variable {α β : Type} {host : Host} {command : Command}

theorem Fault.mono {l l' : Log} {e : FleetError} (h : Fault host l e) (hsub : l ⊆ l') :
    Fault host l' e := by
  cases h with
  | broken cause => exact .broken cause
  | rejected command reason => exact .rejected command reason
  | refused reason => exact .refused reason
  | cancelled hcut => exact .cancelled fun hcalm => hcut fun e he => hcalm e (hsub he)

/-- In an open session nothing shows a host to be down. -/
theorem Fault.not_down {l : Log} {e : FleetError} (h : Fault host l e) : e.isHostDown = false := by
  cases h <;> rfl

theorem faults_pure (a : α) : Faults host (pure a : Step α) := by
  intro l e h
  cases (Program.yields_run_pure.mp h).2

theorem faults_bind {x : Step α} {f : α → Step β} (hx : Faults host x)
    (hf : ∀ a, Faults host (f a)) : Faults host (x >>= f) := by
  intro l e h
  obtain hfirst | ⟨l₁, l₂, a, rfl, -, hrest⟩ := Program.yields_bind_error.mp h
  · exact hx l e hfirst
  · exact (hf a l₂ e hrest).mono (List.subset_append_right l₁ l₂)

/-- A failure that is caught may be handed on, or turned into another one of the same log. -/
theorem faults_caught {x : Step α} {f : Except FleetError α → Step β} (hx : Faults host x)
    (hok : ∀ a, Faults host (f (.ok a)))
    (herror : ∀ l e, Fault host l e →
      ∀ l' e', (f (.error e)).run.Yields l' (.error e') → Fault host l e') :
    Faults host (x.caught >>= f) := by
  intro l e h
  obtain hfirst | ⟨l₁, l₂, result, rfl, hfirst, hrest⟩ := Program.yields_bind_error.mp h
  · obtain ⟨_, -, heq⟩ := yields_caught.mp hfirst
    cases heq
  · obtain ⟨_, hresult, heq⟩ := yields_caught.mp hfirst
    cases heq
    cases result with
    | ok a => exact (hok a l₂ e hrest).mono (List.subset_append_right l₁ l₂)
    | error e' =>
      exact (herror l₁ e' (hx l₁ e' hresult) l₂ e hrest).mono (List.subset_append_left l₁ l₂)

theorem faults_ite {c : Prop} [Decidable c] {x y : Step α} (hx : Faults host x)
    (hy : Faults host y) : Faults host (if c then x else y) := by
  split
  · exact hx
  · exact hy

theorem faults_forM {xs : List α} {f : α → Step PUnit} (hf : ∀ a, Faults host (f a)) :
    Faults host (xs.forM f) := by
  induction xs with
  | nil => exact faults_pure _
  | cons a xs ih => exact faults_bind (hf a) fun _ => ih

/-! ## Single requests -/

theorem exchange_faults : Faults host (exchange host command) := by
  intro l e h
  obtain ⟨cause, -, rfl⟩ := yields_exchange_error.mp h
  exact .broken cause

theorem expect_faults {kind : ReplyKind} : Faults host (expect host command kind) := by
  intro l e h
  obtain ⟨cause, -, rfl⟩ | ⟨_, reason, -, -, rfl⟩ := yields_expect_error.mp h
  · exact .broken cause
  · exact .rejected _ reason

theorem expectToken_faults : Faults host (expectToken host command) := by
  intro l e h
  obtain ⟨cause, -, rfl⟩ | ⟨_, reason, -, -, rfl⟩ := yields_expectToken_error.mp h
  · exact .broken cause
  · exact .rejected _ reason

theorem writeFile_faults {path : String} {contents : ByteArray} :
    Faults host (writeFile host path contents) := by
  intro l e h
  obtain ⟨answer, -, heq⟩ := yields_writeFile.mp h
  cases answer with
  | ok _ => cases heq
  | error cause =>
    cases heq
    cases cause with
    | transferRefused path reason => exact .refused reason
    | _ => exact .broken _

theorem writeConfigFile_faults {daemon : Daemon} {path contents : String} :
    Faults host (writeConfigFile host daemon path contents) :=
  faults_bind exchange_faults fun _ => writeFile_faults

theorem settle_faults {delay : Duration} : Faults host (settle delay) := by
  intro l e h
  obtain ⟨rfl, heq⟩ | ⟨-, -, heq⟩ | ⟨ended, rfl, -, heq⟩ := settle_cases h
  · cases heq
    exact .cancelled fun hcalm => Bool.noConfusion (hcalm _ List.mem_cons_self : true = false)
  · cases heq
  · cases ended with
    | true => cases heq
    | false =>
      cases heq
      exact .cancelled fun hcalm =>
        Bool.noConfusion (hcalm ⟨.sleep delay, false⟩ (by simp) : false = true)

end Rules

/-! ## What is done in a session -/

namespace Fleet

variable (fleet : Fleet) (host : Host)

theorem stopDaemon_faults : Faults host (fleet.stopDaemon host) := by
  refine faults_caught expect_faults (fun _ => faults_pure _) fun l e hfault l' e' h => ?_
  dsimp only at h
  split at h
  · split at h
    · cases (Program.yields_run_pure.mp h).2
    · cases (Program.yields_run_throw.mp h).2
      exact hfault
  · cases (Program.yields_run_throw.mp h).2
    exact hfault

theorem stopSteps_faults : Faults host (fleet.stopSteps host) := by
  refine faults_bind (fleet.stopDaemon_faults host) fun stopped => ?_
  exact faults_ite (faults_bind settle_faults fun _ => faults_pure _) (faults_pure _)

theorem startDaemon_faults : Faults host (fleet.startDaemon host) :=
  faults_bind expect_faults fun _ => settle_faults

theorem startSteps_faults (wiped : Bool) : Faults host (fleet.startSteps wiped host) := by
  have hwipe : Faults host (fleet.wipe host) := faults_bind expect_faults fun _ => faults_pure _
  have hgenerate : Faults host (fleet.enableGeneration host) :=
    faults_bind expect_faults fun _ => faults_pure _
  have hstart : Faults host (do
      fleet.startDaemon host
      if host.role = Role.main then fleet.enableGeneration host) := by
    refine faults_bind (fleet.startDaemon_faults host) fun _ => ?_
    exact faults_ite hgenerate (faults_pure _)
  have hconfigured : Faults host (do
      if host.role ≠ Role.masternode then fleet.writeStakingConfig host
      fleet.startDaemon host
      if host.role = Role.main then fleet.enableGeneration host) :=
    faults_ite (faults_bind writeConfigFile_faults fun _ => hstart) hstart
  exact faults_ite (faults_bind hwipe fun _ => hconfigured) hconfigured

theorem configureSteps_faults : Faults host (do
    fleet.writeStakingConfig host
    pure (fleet.stakingConfig host).peers.length) :=
  faults_bind writeConfigFile_faults fun _ => faults_pure _

theorem rebootSteps_faults : Faults host (do
    match ← (exchange host (fleet.command (.reboot fleet.config.rebootCommand))).caught with
    | .ok _ | .error (.session _ _) => pure ()
    | .error e => throw e : Step Unit) := by
  refine faults_caught exchange_faults (fun _ => faults_pure _) fun l e hfault l' e' h => ?_
  split at h
  · cases (Program.yields_run_pure.mp h).2
  · cases (Program.yields_run_pure.mp h).2
  · rename_i heq
    cases heq
    cases (Program.yields_run_throw.mp h).2
    exact hfault

theorem swapBinary_faults (binary : Binary) : Faults host (fleet.swapBinary host binary) := by
  refine faults_caught expect_faults (fun _ => faults_pure _) fun l e hfault l' e' h => ?_
  cases (Program.yields_run_throw.mp h).2
  cases hfault with
  | broken cause => exact .broken cause
  | rejected _ reason => exact .refused reason
  | refused reason => exact .refused reason
  | cancelled hcut => exact .cancelled hcut

theorem installSteps_faults (binaries : List Binary) : Faults host (do
    binaries.forM (fleet.stageBinary host)
    binaries.forM (fleet.swapBinary host)) :=
  faults_bind (faults_forM fun _ => writeFile_faults) fun _ =>
    faults_forM (fleet.swapBinary_faults host)

theorem stopOrGoOn_faults : Faults host (fleet.stopOrGoOn host) := by
  refine faults_caught expect_faults (fun _ => settle_faults) fun l e hfault l' e' h => ?_
  split at h
  · rename_i heq
    cases heq
  · cases (Program.yields_run_pure.mp h).2
  · rename_i heq
    cases heq
    cases (Program.yields_run_throw.mp h).2
    exact hfault

theorem promoteSteps_faults (staking : Host) (key : String) : Faults host (do
    writeNodeConfig host fleet.daemon (fleet.promotedConfig host staking key)
    fleet.stopOrGoOn host
    fleet.startDaemon host) := by
  refine faults_bind writeConfigFile_faults fun _ => ?_
  exact faults_bind (fleet.stopOrGoOn_faults host) fun _ => fleet.startDaemon_faults host

end Fleet

end NodeFleet
