import NodeFleet.Proofs.ColdLine
import NodeFleet.Proofs.Faults

/-!
# NodeFleet.Proofs.Refusals — what is under way is not refused

A procedure refuses an order at the stages at which hosts are selected and binaries are read, or
because a host was not found or the description is at fault.  Once it is under way it ends for other
reasons: at another stage, and with a failure of a host, of a wait or of a poll.

* `FleetError.IsRefusal`, `Report.Refused`: failures and reports that refuse an order.
* `Willing`: a step that fails for no such reason.  `Faults.willing`, `willing_inSession`,
  `willing_poll`: the rules.
* `Conduct.Willing`: a part of a procedure that leaves a report that refuses nothing.
* `Fleet.sweep_accepts`, `Fleet.coldStages_willing`, ...: the procedures once they are under way.
-/

namespace NodeFleet

/-- The stages at which it is seen whether an order can be carried out. -/
def checkStages : List String := ["select", "select-masternode", "read-binaries"]

/-- The kinds of failures of an order that cannot be carried out. -/
def ErrorKind.IsRefusal : ErrorKind → Prop
  | .hostNotFound | .config => True
  | _ => False

/-- A failure of an order that cannot be carried out. -/
def FleetError.IsRefusal (e : FleetError) : Prop := e.kind.IsRefusal

/-- The report says that the order could not be carried out. -/
def Report.Refused (report : Report) : Prop :=
  ∃ stage kind, report.abortedAt? = some (stage, kind) ∧ (stage ∈ checkStages ∨ kind.IsRefusal)

theorem Report.Refused.congr {r₁ r₂ : Report} (h : r₁.Refused) (ho : r₂.outcome = r₁.outcome) :
    r₂.Refused := by
  obtain ⟨stage, kind, hat, hrefused⟩ := h
  refine ⟨stage, kind, ?_, hrefused⟩
  unfold Report.abortedAt? at hat ⊢
  rw [ho]
  exact hat

theorem Report.not_refused_new (procedure : Procedure) : ¬ (Report.new procedure).Refused := by
  rintro ⟨_, _, hat, -⟩
  cases hat

theorem Report.not_refused_finish {report : Report} (h : ¬ report.Refused) :
    ¬ report.finish.Refused := by
  intro hrefused
  by_cases hrunning : report.outcome = .running
  · obtain ⟨_, _, hat, -⟩ := hrefused
    unfold Report.abortedAt? Report.finish at hat
    rw [if_pos hrunning] at hat
    cases hat
  · exact h (hrefused.congr (if_neg hrunning).symm)

/-- The end of a procedure is no refusal. -/
theorem not_refused_finalReport {r : Except Report (Unit × Report)}
    (h : ¬ (endReport r).Refused) : ¬ (Conduct.finalReport r).Refused := by
  match r, h with
  | .ok (_, _), h => exact Report.not_refused_finish h
  | .error _, h => exact h

/-! ## Steps -/

/-- A step that fails for another reason than that the order cannot be carried out. -/
def Willing {α : Type} (step : Step α) : Prop :=
  ∀ l e, step.run.Yields l (.error e) → ¬ e.IsRefusal

section Steps

variable {α β : Type} {host : Host}

/-- In an open session nothing is refused. -/
theorem Faults.willing {step : Step α} (h : Faults host step) : Willing step := by
  intro l e hl
  cases h l e hl <;> exact id

theorem willing_pure (a : α) : Willing (pure a : Step α) := by
  intro l e hl
  cases (Program.yields_run_pure.mp hl).2

theorem willing_inSession {step : Step α} (h : Willing step) : Willing (inSession host step) := by
  intro l e hl
  obtain ⟨_, -, rfl⟩ | ⟨inner, -, hinner⟩ := yields_inSession_error.mp hl
  · exact id
  · exact h inner e hinner

theorem willing_bind {x : Step α} {f : α → Step β} (hx : Willing x) (hf : ∀ a, Willing (f a)) :
    Willing (x >>= f) := by
  intro l e hl
  obtain hfirst | ⟨_, l₂, a, -, -, hrest⟩ := Program.yields_bind_error.mp hl
  · exact hx l e hfirst
  · exact hf a l₂ e hrest

theorem willing_settle (delay : Duration) : Willing (settle delay) := by
  have h : Faults default (settle delay) := settle_faults
  exact h.willing

/-- A poll that ends without an answer has not seen what it waits for, or was cancelled. -/
theorem willing_poll (settings : PollSettings) (awaited : String)
    (question : Program (Option α)) : Willing (poll settings awaited question) := by
  intro l e hl
  obtain ⟨_, _, result, -, -, -, heq⟩ := Program.yields_bind.mp hl
  cases result with
  | ok _ => cases heq
  | error cause =>
    cases heq
    cases cause <;> exact id

end Steps

/-! ## Parts of procedures -/

namespace Conduct

variable {α β : Type} {stage : String}

/-- A part of a procedure that leaves a report that refuses nothing, if it starts with one. -/
def Willing (x : Conduct α) : Prop :=
  ∀ before l r, x.Ends before l r → ¬ before.Refused → ¬ (endReport r).Refused

theorem willing_pure (a : α) : (pure a : Conduct α).Willing := by
  rintro before _ _ ⟨-, rfl⟩ h
  exact h

theorem willing_bind {x : Conduct α} {f : α → Conduct β} (hx : x.Willing)
    (hf : ∀ a, (f a).Willing) : (x >>= f).Willing := by
  intro before l r h hbefore
  obtain ⟨last, rfl, hfirst⟩ | ⟨l₁, l₂, a, mid, -, hfirst, hrest⟩ := ends_bind_cases h
  · exact hx before l (.error last) hfirst hbefore
  · exact hf a mid l₂ r hrest (hx before l₁ _ hfirst hbefore)

theorem willing_enter {change : Report → Report} (h : ∀ r, (change r).outcome = r.outcome) :
    (enter change).Willing := by
  rintro before _ _ ⟨-, rfl⟩ hbefore hrefused
  exact hbefore (hrefused.congr (h before).symm)

theorem willing_abort {e : FleetError} (hs : stage ∉ checkStages) (he : ¬ e.IsRefusal) :
    (abort stage e : Conduct α).Willing := by
  rintro before _ _ ⟨-, rfl⟩ - ⟨_, _, hat, hrefused⟩
  cases hat
  exact hrefused.elim hs he

theorem willing_lift (p : Program α) : (liftM p : Conduct α).Willing := by
  intro before l r h hbefore
  obtain ⟨_, -, rfl⟩ := ends_lift.mp h
  exact hbefore

theorem willing_attempt (step : Step α) : (attempt step).Willing := willing_lift _

theorem willing_need {step : Step α} (hs : stage ∉ checkStages) (h : NodeFleet.Willing step) :
    (need stage step).Willing := by
  intro before l r hends hbefore
  match r, hends with
  | .ok _, hends =>
    obtain ⟨-, rfl⟩ := ends_need_ok.mp hends
    exact hbefore
  | .error _, hends =>
    obtain ⟨e, hstep, rfl⟩ := ends_need_error.mp hends
    exact willing_abort (α := Unit) hs (h l e hstep) before [] _ ⟨rfl, rfl⟩ hbefore

theorem willing_passed (stage : String) (host : Host) (detail? : Option String) :
    (passed stage host detail?).Willing := willing_enter fun _ => rfl

/-- A step that is needed on a host, and then the rest. -/
theorem willing_needed {host : Host} {step : Step α} {detail : α → Option String}
    {f : α → Conduct β} (hs : stage ∉ checkStages) (h : NodeFleet.Willing step)
    (hf : ∀ a, (f a).Willing) :
    (do
      let a ← need stage step
      passed stage host (detail a)
      f a : Conduct β).Willing := by
  refine willing_bind (willing_need hs h) fun a => ?_
  exact willing_bind (willing_passed stage host (detail a)) fun _ => hf a

theorem willing_settled (host : Host) (detail : α → Option String) (result : Except FleetError α) :
    (settled stage host detail result).Willing :=
  willing_enter fun r => settled_outcome r result

theorem willing_forM {xs : List α} {f : α → Conduct PUnit} (hf : ∀ a, (f a).Willing) :
    (xs.forM f).Willing := by
  induction xs with
  | nil => exact willing_pure _
  | cons a xs ih => exact willing_bind (hf a) fun _ => ih

/-- A loop over hosts is ended by nothing but a cancellation. -/
theorem willing_eachHost {hosts : List Host} {step : Host → Step α} {detail : α → Option String}
    (hs : stage ∉ checkStages) : (eachHost stage hosts step detail).Willing := by
  refine willing_forM fun host => willing_bind (willing_attempt _) fun result => ?_
  split
  · exact willing_bind (willing_abort hs id) fun _ => willing_settled _ _ _
  · exact willing_settled _ _ _

theorem willing_inSession {host : Host} {body : Conduct α} (hs : stage ∉ checkStages)
    (h : body.Willing) : (Conduct.inSession stage host body).Willing := by
  intro before l r hends hbefore
  obtain ⟨cause, -, rfl⟩ | ⟨inner, -, hinner⟩ := inSession_ends hends
  · have he : ¬ (FleetError.connectFailure host.name cause).IsRefusal := id
    exact willing_abort (α := Unit) hs he before [] _ ⟨rfl, rfl⟩ hbefore
  · exact h before inner r hinner hbefore

/-- The report on parts that refuse nothing. -/
theorem Willing.concludes {procedure : Procedure} {x : Conduct Unit} {l : Log} {report : Report}
    (hx : x.Willing) (h : (conclude procedure x).Yields l report) : ¬ report.Refused := by
  obtain ⟨r, hends, rfl⟩ := conclude_ends h
  exact not_refused_finalReport (hx _ l r hends (Report.not_refused_new procedure))

end Conduct

/-! ## The procedures under way -/

namespace Fleet

variable (fleet : Fleet)

theorem stopHost_willing (host : Host) : Willing (fleet.stopHost host) :=
  willing_inSession (fleet.stopSteps_faults host).willing

theorem startHost_willing (wiped : Bool) (host : Host) : Willing (fleet.startHost wiped host) :=
  willing_inSession (fleet.startSteps_faults host wiped).willing

theorem queryToken_willing (host : Host) (command : Command) :
    Willing (queryToken host command) := willing_inSession expectToken_faults.willing

theorem query_willing (host : Host) (command : Command) (kind : ReplyKind) :
    Willing (query host command kind) := willing_inSession expect_faults.willing

theorem sweepAll_willing (hosts : List Host) : (fleet.sweepAll hosts).Willing := by
  have hhost (host : Host) : (fleet.sweepHost host).Willing := by
    refine Conduct.willing_bind (Conduct.willing_lift _) fun _ => ?_
    refine Conduct.willing_bind (Conduct.willing_lift _) fun _ => ?_
    exact Conduct.willing_bind (Conduct.willing_settled _ _ _) fun _ =>
      Conduct.willing_enter fun _ => rfl
  cases hosts with
  | nil => exact Conduct.willing_pure ()
  | cons host rest =>
    refine Conduct.willing_bind (hhost host) fun _ => Conduct.willing_forM fun next => ?_
    exact Conduct.willing_bind (Conduct.willing_need (by decide) (willing_settle _)) fun _ =>
      hhost next

theorem rebootAll_willing (hosts : List Host) : (fleet.rebootAll hosts).Willing := by
  induction hosts with
  | nil => exact Conduct.willing_pure _
  | cons host rest ih =>
    refine Conduct.willing_bind (Conduct.willing_attempt _) fun result => ?_
    cases result with
    | ok _ =>
      refine Conduct.willing_bind (Conduct.willing_passed _ _ _) fun _ => ?_
      exact Conduct.willing_bind ih fun _ => Conduct.willing_pure _
    | error e => exact Conduct.willing_bind (Conduct.willing_settled _ _ _) fun _ => ih

theorem makeKey_willing (staking : Host) : (fleet.makeKey staking).Willing := by
  refine Conduct.willing_needed (by decide) writeConfigFile_faults.willing fun _ => ?_
  refine Conduct.willing_bind (Conduct.willing_attempt _) fun started => ?_
  refine Conduct.willing_bind (Conduct.willing_enter fun r => ?_) fun _ => ?_
  · cases started <;> rfl
  refine Conduct.willing_bind (Conduct.willing_need (by decide) (willing_settle _)) fun _ => ?_
  exact Conduct.willing_needed (by decide) expectToken_faults.willing fun _ =>
    Conduct.willing_pure _

theorem deriveAddresses_willing (hosts : List Host) : (fleet.deriveAddresses hosts).Willing := by
  induction hosts with
  | nil => exact Conduct.willing_pure _
  | cons host rest ih =>
    refine Conduct.willing_bind (Conduct.willing_attempt _) fun result => ?_
    cases result with
    | ok address =>
      refine Conduct.willing_bind (Conduct.willing_passed _ _ _) fun _ => ?_
      exact Conduct.willing_bind ih fun _ => Conduct.willing_pure _
    | error e => exact Conduct.willing_bind (Conduct.willing_settled _ _ _) fun _ => ih

theorem enterSend_outcome (destination : Destination) (amount : Amount)
    (result : Except FleetError String) (r : Report) :
    (enterSend destination amount result r).outcome = r.outcome := by
  cases result <;> rfl

theorem sendAll_willing (amount : Amount) (destinations : List Destination) :
    (fleet.sendAll amount destinations).Willing :=
  Conduct.willing_forM fun destination =>
    Conduct.willing_bind (Conduct.willing_attempt _) fun result =>
      Conduct.willing_enter (enterSend_outcome destination amount result)

theorem stopAll_willing : fleet.stopAll.Willing := by
  intro before l r h hbefore hrefused
  match r, h with
  | .ok (_, after), h =>
    obtain ⟨_, -, hadds⟩ := Conduct.conducts_collected.passes h
    exact hbefore (hrefused.congr hadds.outcome.symm)
  | .error last, h =>
    obtain ⟨_, e, ⟨visits, hv, -, hfirst, -⟩, hstops⟩ := Conduct.conducts_collected.fails h
    obtain ⟨⟨host, _⟩, hvisit, rfl⟩ := List.mem_map.mp (mem_of_firstFailure? hfirst)
    obtain ⟨_, l₂, _, -, hstop⟩ := hv.of_mem hvisit
    have hwilling : (Conduct.abort "stop-all" e : Conduct Unit).Willing :=
      Conduct.willing_abort (by decide) (fleet.stopHost_willing host l₂ e hstop)
    exact hwilling before [] _ ⟨rfl, rfl⟩ hbefore (hrefused.congr hstops.outcome.symm)

theorem wipeAll_willing : fleet.wipeAll.Willing := by
  refine Conduct.willing_forM fun host => ?_
  have hwipe : Faults host (fleet.wipe host) := faults_bind expect_faults fun _ => faults_pure _
  refine Conduct.willing_bind (Conduct.willing_need (by decide) ?_) fun _ => ?_
  · exact willing_inSession hwipe.willing
  · exact Conduct.willing_passed _ _ _

theorem restartControl_willing : fleet.restartControl.Willing := by
  have hstop := fleet.stopHost_willing fleet.control
  have hstart := fleet.startHost_willing false fleet.control
  unfold restartControl
  split
  · refine Conduct.willing_bind (Conduct.willing_need (by decide) hstop) fun _ => ?_
    exact Conduct.willing_bind (Conduct.willing_need (by decide) hstart) fun _ =>
      Conduct.willing_passed _ _ _
  · exact Conduct.willing_pure ()

theorem provision_willing (amount : Amount) : (fleet.provision amount).Willing := by
  refine Conduct.willing_needed (by decide) (queryToken_willing _ _) fun key => ?_
  refine Conduct.willing_needed (by decide) (queryToken_willing _ _) fun address => ?_
  have hsend : (fleet.sendCollateral address amount).Willing :=
    Conduct.willing_needed (by decide) (queryToken_willing _ _) fun hash =>
      Conduct.willing_bind (Conduct.willing_enter fun _ => rfl) fun _ => Conduct.willing_pure hash
  refine Conduct.willing_bind hsend fun hash => ?_
  have hawait : Willing (fleet.awaitConfirmation fleet.control hash) :=
    willing_bind (willing_poll _ _ _) fun _ => willing_pure _
  exact Conduct.willing_needed (by decide) hawait fun _ => Conduct.willing_pure _

theorem listMasternode_willing (masternode : Host) (amount : Amount) :
    (fleet.listMasternode masternode amount).Willing := by
  refine Conduct.willing_bind (fleet.provision_willing amount) fun (provisioning, hash, _) => ?_
  dsimp only
  split
  · exact Conduct.willing_abort (by decide) id
  · exact Conduct.willing_needed (by decide) (willing_inSession writeConfigFile_faults.willing)
      fun _ => Conduct.willing_pure _

theorem startListed_willing (masternode : Host) (provisioning : Provisioning) :
    (fleet.startListed masternode provisioning).Willing := by
  have hstart : Faults masternode (do
      writeNodeConfig masternode fleet.daemon
        (fleet.masternodeConfig masternode provisioning.privateKey)
      fleet.startDaemon masternode) :=
    faults_bind writeConfigFile_faults fun _ => fleet.startDaemon_faults masternode
  refine Conduct.willing_needed (by decide) (willing_inSession hstart.willing) fun _ => ?_
  refine Conduct.willing_needed (by decide) (query_willing _ _ _) fun _ => ?_
  refine Conduct.willing_bind (Conduct.willing_need (by decide) (query_willing _ _ _)) fun _ => ?_
  exact Conduct.willing_passed _ _ _

theorem coldStages_willing (wiped : Bool) (amount : Amount) (masternode : Host) :
    (fleet.coldStages wiped amount masternode).Willing := by
  have hstart : (do
      Conduct.need "start-main" (fleet.startHost false fleet.roster.main)
      Conduct.passed "start-main" fleet.roster.main none
      Conduct.need "bootstrap-settle" (settle (.ofSeconds fleet.config.timing.bootstrapSettle))
      fleet.restartControl
      let provisioning ← fleet.listMasternode masternode amount
      fleet.startListed masternode provisioning : Conduct Unit).Willing := by
    refine Conduct.willing_needed (by decide) (fleet.startHost_willing false _) fun _ => ?_
    refine Conduct.willing_bind (Conduct.willing_need (by decide) (willing_settle _)) fun _ => ?_
    refine Conduct.willing_bind fleet.restartControl_willing fun _ => ?_
    exact Conduct.willing_bind (fleet.listMasternode_willing _ _) fun provisioning =>
      fleet.startListed_willing masternode provisioning
  refine Conduct.willing_bind fleet.stopAll_willing fun _ => ?_
  split
  · exact Conduct.willing_bind fleet.wipeAll_willing fun _ => hstart
  · exact hstart

end Fleet

end NodeFleet
