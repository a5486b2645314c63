import NodeFleet.Proofs.Faults

/-!
# NodeFleet.Proofs.Uncancelled — steps end as cancelled only when the operator cancels

A loop over hosts ends early only at a step that was cancelled, so whatever a host answers, the loop
gets past it: none of its answers can make the step count as cancelled.  Only a wait can end so, and
only where the operator has cancelled; every other failure names its own cause.

* `Uncancelled`: as long as the operator does not cancel, the step does not end as cancelled.
* `Faults.uncancelled`: so it is in an open session.  `settle_calm`: so it is with a wait.
* `stopHost_uncancelled`, `startHost_uncancelled`, ...: the steps that loops take on each host.
-/

namespace NodeFleet

/-- As long as the operator does not cancel, the step does not end as cancelled. -/
def Uncancelled {α : Type} (step : Step α) : Prop :=
  ∀ l, Calm l → ¬ step.run.Yields l (.error .cancelled)

section Rules

variable {α : Type} {host : Host}

/-- In an open session only the operator cancels. -/
theorem Faults.uncancelled {step : Step α} (h : Faults host step) : Uncancelled step := by
  intro l hcalm hl
  cases h l _ hl with
  | cancelled hcut => exact hcut hcalm

/-- A wait that the operator does not cut short comes to its end. -/
theorem settle_calm {delay : Duration} {l : Log} {r : Except FleetError Unit} (hcalm : Calm l)
    (h : (settle delay).run.Yields l r) : r = .ok () := by
  obtain ⟨rfl, -⟩ | ⟨-, -, rfl⟩ | ⟨ended, rfl, -, rfl⟩ := settle_cases h
  · cases hcalm _ List.mem_cons_self
  · rfl
  · have hended : ended = true := hcalm ⟨.sleep delay, ended⟩ (by simp)
    rw [hended]
    rfl

theorem uncancelled_inSession {step : Step α} (h : Uncancelled step) :
    Uncancelled (inSession host step) := by
  intro l hcalm hl
  obtain ⟨_, -, heq⟩ | ⟨inner, rfl, hinner⟩ := yields_inSession_error.mp hl
  · cases heq
  · refine h inner (fun e he => ?_) hinner
    exact hcalm e (mem_session.mpr (.inr (.inl he)))

end Rules

/-! ## The steps on a host -/

namespace Fleet

variable (fleet : Fleet) (host : Host)

theorem stopHost_uncancelled : Uncancelled (fleet.stopHost host) :=
  uncancelled_inSession (fleet.stopSteps_faults host).uncancelled

theorem startAgain_uncancelled : Uncancelled (fleet.startAgain host) :=
  uncancelled_inSession (fleet.startDaemon_faults host).uncancelled

theorem startHost_uncancelled (wiped : Bool) : Uncancelled (fleet.startHost wiped host) :=
  uncancelled_inSession (fleet.startSteps_faults host wiped).uncancelled

theorem configureHost_uncancelled : Uncancelled (fleet.configureHost host) :=
  uncancelled_inSession (fleet.configureSteps_faults host).uncancelled

theorem install_uncancelled (binaries : List Binary) :
    Uncancelled (fleet.install binaries host) :=
  uncancelled_inSession (fleet.installSteps_faults host binaries).uncancelled

theorem installMasternode_uncancelled (staking : Host) (key : String) :
    Uncancelled (fleet.installMasternode staking key host) :=
  uncancelled_inSession (fleet.promoteSteps_faults host staking key).uncancelled

end Fleet

end NodeFleet
