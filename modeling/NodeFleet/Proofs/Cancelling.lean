import NodeFleet.Proofs.DeskSessions
import NodeFleet.Proofs.Heeding
import NodeFleet.Proofs.Replying
import NodeFleet.Proofs.Rosters
import NodeFleet.Proofs.Stopping

/-!
# NodeFleet.Proofs.Cancelling — what is left of a procedure once the operator cancels

At the first wait that is cut short every procedure ends: the session that is open is closed,
nothing else is asked, and the report is aborted as cancelled.  Only a cold restart that is still
stopping the daemons goes on to stop the remaining ones, and is aborted then, with the first failure
of that stage.

* `Program.AtCancellation`: what holds wherever a wait is cut short.  `EndsThere`: the ending that
  nearly all procedures have.  `Fleet.StopsTheRest`: the other one.
* `Fleet.stopHost_heeds`, `Fleet.startHost_heeds`, ...: the steps that wait.  `stopDaemon_prompt`,
  `install_prompt`, ...: those that do not.
* `Fleet.sweep_ends`, `Fleet.promote_ends`, ...: one lemma a procedure.  `Fleet.coldRestart_ends`:
  the one that goes on.
* `Fleet.cancellation_ends`: all of them.
-/

namespace NodeFleet

/-- What is said of the log before a wait that is cut short, of the log after it and of the report
holds wherever a wait of the procedure is cut short. -/
def Program.AtCancellation (p : Program Report) (Q : Log → Log → Report → Prop) : Prop :=
  ∀ l report, p.Yields l report →
    ∀ before e after, l = before ++ e :: after → ¬ e.IsCalm → Q before after report

/-- The session that is open is closed, and nothing else happens; the report is aborted as
cancelled. -/
def EndsThere (before after : Log) (report : Report) : Prop :=
  after = before.sessions.map Event.closing ∧ report.WasCancelled

/-- A bracketed log that is cut short ends with the closing of the session that is open. -/
theorem Bracketed.endsThere {l before after : Log} {e : Event} {report : Report}
    (h : Bracketed l) (hcut : l.CutShort Log.IsClosing) (hreport : report.WasCancelled)
    (hl : l = before ++ e :: after) (he : ¬ e.IsCalm) : EndsThere before after report := by
  have haside : e.request.IsAside := by
    obtain ⟨r, answer⟩ := e
    cases r with
    | cancelled => trivial
    | sleep _ => trivial
    | _ => exact absurd trivial he
  -- waiting neither opens nor closes a session
  have hsame : Log.sessions (before ++ [e]) = before.sessions := by
    unfold Log.sessions
    rw [sessionsFrom_append]
    exact sessions_aside haside _
  refine ⟨?_, hreport⟩
  rw [← hsame]
  obtain rfl | ⟨host, rfl⟩ := hcut.tail_of_split (fun _ => Log.IsClosing.calm) hl he
  · rw [← hl, h.closed]
    rfl
  · have hsplit : l = (before ++ [e]) ++ Event.closing host :: [] := by
      rw [hl, List.append_assoc]
      rfl
    rw [h.wellBracketed.taken _ _ _ host hsplit rfl]
    rfl

/-! ## The steps on a host -/

namespace Fleet

variable (fleet : Fleet) (host : Host)

theorem stopDaemon_prompt : Leaves (Only Request.IsPrompt) (fleet.stopDaemon host) := by
  refine leaves_bind (leaves_caught (expect_only trivial)) fun result => ?_
  cases result with
  | ok _ => exact leaves_pure _
  | error e =>
    dsimp only
    split
    · exact leaves_ite (fun _ => leaves_pure _) fun _ => leaves_throw _
    · exact leaves_throw _

theorem stopSteps_heeds : Heeds Log.IsNothing (fleet.stopSteps host) := by
  refine heeds_bind (heeds_prompt (fleet.stopDaemon_prompt host)) fun stopped => ?_
  exact heeds_ite (heeds_bind (heeds_settle _) fun _ => heeds_pure _) (heeds_pure _)

theorem stopHost_heeds : Heeds Log.IsClosing (fleet.stopHost host) :=
  heeds_inSession (fleet.stopSteps_heeds host)

theorem startDaemon_heeds : Heeds Log.IsNothing (fleet.startDaemon host) :=
  heeds_bind (heeds_prompt (expect_only trivial)) fun _ => heeds_settle _

theorem startAgain_heeds : Heeds Log.IsClosing (fleet.startAgain host) :=
  heeds_inSession (fleet.startDaemon_heeds host)

theorem writeStakingConfig_prompt :
    Leaves (Only Request.IsPrompt) (fleet.writeStakingConfig host) :=
  writeConfigFile_only trivial trivial

theorem wipe_prompt : Leaves (Only Request.IsPrompt) (fleet.wipe host) :=
  leaves_bind (expect_only trivial) fun _ => leaves_pure _

theorem startHost_heeds (wiped : Bool) : Heeds Log.IsClosing (fleet.startHost wiped host) := by
  have hstart : Heeds Log.IsNothing (do
      fleet.startDaemon host
      if host.role = Role.main then fleet.enableGeneration host) := by
    refine heeds_bind (fleet.startDaemon_heeds host) fun _ => heeds_ite ?_ (heeds_pure _)
    exact heeds_prompt (leaves_bind (expect_only trivial) fun _ => leaves_pure _)
  have hconfigured : Heeds Log.IsNothing (do
      if host.role ≠ Role.masternode then fleet.writeStakingConfig host
      fleet.startDaemon host
      if host.role = Role.main then fleet.enableGeneration host) :=
    heeds_ite (heeds_bind (heeds_prompt (fleet.writeStakingConfig_prompt host)) fun _ => hstart)
      hstart
  exact heeds_inSession
    (heeds_ite (heeds_bind (heeds_prompt (fleet.wipe_prompt host)) fun _ => hconfigured)
      hconfigured)

theorem configureHost_prompt : Leaves (Only Request.IsPrompt) (fleet.configureHost host) :=
  prompt_inSession (leaves_bind (fleet.writeStakingConfig_prompt host) fun _ => leaves_pure _)

theorem install_prompt (binaries : List Binary) :
    Leaves (Only Request.IsPrompt) (fleet.install binaries host) := by
  refine prompt_inSession (leaves_bind (leaves_forM fun _ _ => writeFile_only trivial) fun _ => ?_)
  refine leaves_forM fun b _ => leaves_bind (leaves_caught (expect_only trivial)) fun result => ?_
  cases result with
  | ok _ => exact leaves_pure _
  | error _ => exact leaves_throw _

theorem rebootHost_prompt : Leaves (Only Request.IsPrompt) (fleet.rebootHost host) := by
  refine prompt_inSession (leaves_bind (leaves_caught (exchange_only trivial)) fun result => ?_)
  split
  · exact leaves_pure _
  · exact leaves_pure _
  · exact leaves_throw _

theorem stopOrGoOn_heeds : Heeds Log.IsNothing (fleet.stopOrGoOn host) := by
  refine heeds_caught (expect_only trivial) fun result => ?_
  split
  · exact heeds_settle _
  · exact heeds_pure _
  · exact heeds_throw _

theorem installMasternode_heeds (staking : Host) (key : String) :
    Heeds Log.IsClosing (fleet.installMasternode staking key host) := by
  refine heeds_inSession ?_
  refine heeds_bind (heeds_prompt (writeConfigFile_only trivial trivial)) fun _ => ?_
  exact heeds_bind (fleet.stopOrGoOn_heeds host) fun _ => fleet.startDaemon_heeds host

theorem startMasternode_heeds (key : String) :
    Heeds Log.IsClosing (inSession host (do
      writeNodeConfig host fleet.daemon (fleet.masternodeConfig host key)
      fleet.startDaemon host)) := by
  refine heeds_inSession ?_
  refine heeds_bind (heeds_prompt (writeConfigFile_only trivial trivial)) fun _ => ?_
  exact fleet.startDaemon_heeds host

theorem visit_prompt : Leaves (Only Request.IsPrompt) (fleet.visit host) := by
  have hask (command : Command) :
      Leaves (Only Request.IsPrompt) (Inspection.ask host command) :=
    leaves_lift_state (exchange_only trivial)
  have hnote (change : Snapshot → Snapshot) :
      Leaves (Only Request.IsPrompt) (Inspection.note change) :=
    leaves_lift_except (leaves_modify (m := Program) change)
  have hasked (command : Command) (change : Reply → Snapshot → Snapshot) :
      Leaves (Only Request.IsPrompt)
        (Inspection.ask host command >>= fun reply => Inspection.note (change reply)) :=
    leaves_bind (hask command) fun _ => hnote _
  have hinspect : Leaves (Only Request.IsPrompt) (fleet.inspect host) := by
    refine leaves_bind (hask _) fun _ => leaves_bind (hnote _) fun _ => ?_
    refine leaves_ite (fun _ => ?_) fun _ => ?_
    · exact leaves_bind (leaves_forM fun _ _ => hasked _ _) fun _ => hasked _ _
    · exact leaves_bind (hask _) fun _ => leaves_bind (hnote _) fun _ => hasked _ _
  refine leaves_bind ?_ fun visited => ?_
  · exact leaves_withSession (fun _ => only_singleton.mpr trivial) (hinspect _)
      (only_singleton.mpr trivial)
  · cases visited with
    | ok _ => exact leaves_pure _
    | error _ => exact leaves_pure _

end Fleet

/-! ## Procedures that end there -/

/-- Sessions in which a host is asked only what concerns it make bracketed logs. -/
theorem bracketed_within : HoldsOfSessions (fun host r => r.Within host) Bracketed :=
  bracketed_holdsOfSessions fun _ _ => id

/-- A procedure that heeds a cancellation, and leaves whole sessions, ends where it is cut short. -/
theorem Conduct.Heeds.ends {procedure : Procedure} {x : Conduct Unit}
    (h : x.Heeds Log.IsClosing) (hx : Leaves Bracketed (Conduct.conclude procedure x)) :
    (Conduct.conclude procedure x).AtCancellation EndsThere := by
  intro l report hl before e after hsplit he
  obtain hcalm | ⟨hreport, hcut⟩ := h.concludes hl
  · exact absurd (hcalm e (by simp [hsplit])) he
  · exact (hx l report hl).endsThere hcut hreport hsplit he

theorem Conduct.eachHost_ends {α : Type} {procedure : Procedure} {stage : String}
    {hosts : List Host} {step : Host → Step α} {detail : α → Option String}
    (h : ∀ host, NodeFleet.Heeds Log.IsClosing (step host))
    (hstep : ∀ host, Leaves Bracketed (step host)) :
    (Conduct.conclude procedure (Conduct.eachHost stage hosts step detail)).AtCancellation
      EndsThere :=
  (Conduct.heeds_eachHost h).ends
    (Conduct.leaves_conclude (Conduct.leaves_eachHost fun host _ => hstep host))

namespace Fleet

variable (fleet : Fleet)

theorem stopHost_bracketed (host : Host) : Leaves Bracketed (fleet.stopHost host) :=
  fleet.stopHost_leaves bracketed_within fun _ => Request.IsOn.within

theorem startHost_bracketed (wiped : Bool) (host : Host) :
    Leaves Bracketed (fleet.startHost wiped host) :=
  fleet.startHost_leaves bracketed_within fun _ => Request.IsOn.within

theorem sweepHost_prompt (host : Host) : Leaves (Only Request.IsPrompt) (fleet.sweepHost host) := by
  refine leaves_bind (leaves_lift_state (leaves_lift_except (fleet.visit_prompt host))) ?_
  rintro ⟨result, seen⟩
  have hpinged : Leaves (Only Request.IsPrompt) (fleet.pinged host seen) := by
    refine leaves_ite (fun _ => leaves_map _ ?_) fun _ => leaves_pure _
    exact leaves_request fun _ => only_singleton.mpr trivial
  refine leaves_bind (leaves_lift_state (leaves_lift_except hpinged)) fun snapshot => ?_
  exact leaves_bind (Conduct.leaves_settled _ _ _ _) fun _ => Conduct.leaves_enter _

theorem sweep_ends (hosts : List Host) : (fleet.sweep hosts).AtCancellation EndsThere := by
  have hheeds : (fleet.sweepAll hosts).Heeds Log.IsClosing := by
    cases hosts with
    | nil => exact Conduct.heeds_pure _
    | cons host rest =>
      refine Conduct.heeds_bind (Conduct.heeds_prompt (fleet.sweepHost_prompt host)) fun _ => ?_
      refine Conduct.heeds_forM fun next => Conduct.heeds_bind ?_ fun _ => ?_
      · exact Conduct.heeds_need ((heeds_settle _).mono fun _ => .inl)
      · exact Conduct.heeds_prompt (fleet.sweepHost_prompt next)
  refine hheeds.ends (Conduct.leaves_conclude ?_)
  exact fleet.sweepAll_leaves bracketed_within fun _ _ _ => Request.IsOn.within

theorem stopWallets_ends (hosts : List Host) :
    (fleet.stopWallets hosts).AtCancellation EndsThere :=
  Conduct.eachHost_ends fleet.stopHost_heeds fleet.stopHost_bracketed

theorem startWallets_ends (wiped : Bool) (hosts : List Host) :
    (fleet.startWallets wiped hosts).AtCancellation EndsThere :=
  Conduct.eachHost_ends (fun host => fleet.startHost_heeds host wiped)
    (fleet.startHost_bracketed wiped)

theorem restartWallets_ends (wiped : Bool) :
    (fleet.restartWallets wiped).AtCancellation EndsThere := by
  have hstop : (fleet.stopStage fleet.roster.all).Heeds Log.IsClosing :=
    Conduct.heeds_eachHost fleet.stopHost_heeds
  have hstart : (fleet.startStage wiped fleet.roster.all).Heeds Log.IsClosing :=
    Conduct.heeds_eachHost fun host => fleet.startHost_heeds host wiped
  refine (Conduct.heeds_bind hstop fun _ => hstart).ends (Conduct.leaves_conclude ?_)
  refine leaves_bind ?_ fun _ => ?_
  · exact Conduct.leaves_eachHost fun host _ => fleet.stopHost_bracketed host
  · exact Conduct.leaves_eachHost fun host _ => fleet.startHost_bracketed wiped host

theorem writeStakingConfigs_ends (hosts : List Host) :
    (fleet.writeStakingConfigs hosts).AtCancellation EndsThere := by
  refine Conduct.eachHost_ends (fun host => heeds_prompt (fleet.configureHost_prompt host)) ?_
  exact fun host => fleet.configureHost_leaves bracketed_within fun _ => Request.IsOn.within

theorem makeKey_heeds (staking : Host) : (fleet.makeKey staking).Heeds Log.IsNothing := by
  refine Conduct.heeds_bind (Conduct.heeds_need ?_) fun _ => ?_
  · exact heeds_prompt (writeConfigFile_only trivial trivial)
  refine Conduct.heeds_bind (Conduct.heeds_prompt (Conduct.leaves_passed _ _ _)) fun _ => ?_
  refine Conduct.heeds_bind (Conduct.heeds_prompt ?_) fun started => ?_
  · exact Conduct.leaves_attempt (expect_only trivial)
  refine Conduct.heeds_bind (Conduct.heeds_prompt (Conduct.leaves_enter _)) fun _ => ?_
  refine Conduct.heeds_bind (Conduct.heeds_need (heeds_settle _)) fun _ => ?_
  refine Conduct.heeds_prompt ?_
  refine leaves_bind (Conduct.leaves_need (expectToken_only trivial)) fun key => ?_
  exact leaves_bind (Conduct.leaves_passed _ _ _) fun _ => leaves_pure _

theorem promote_ends (staking? : Option Host) :
    (fleet.promote staking?).AtCancellation EndsThere := by
  have hrest (staking : Host) : (do
      let key ← Conduct.inSession "connect-staking" staking (fleet.makeKey staking)
      Conduct.eachHost "restart-masternode" fleet.masternodes
        (fleet.installMasternode staking key) fun _ => none : Conduct Unit).Heeds
      Log.IsClosing := by
    refine Conduct.heeds_bind (Conduct.heeds_inSession (fleet.makeKey_heeds staking)) fun key => ?_
    exact Conduct.heeds_eachHost fun host => fleet.installMasternode_heeds host staking key
  refine Conduct.Heeds.ends (Conduct.heeds_ite ?_ (hrest _)) ?_
  · exact Conduct.heeds_bind (Conduct.heeds_prompt (Conduct.leaves_abort _ _)) fun _ => hrest _
  · exact fleet.promote_leaves bracketed_within (fun _ => Request.IsOn.within)
      fun _ _ _ _ => Request.IsOn.within

theorem installBinaries_ends (hosts : List Host) :
    (fleet.installBinaries hosts).AtCancellation EndsThere := by
  refine Conduct.Heeds.ends (Conduct.heeds_bind (Conduct.heeds_need ?_) fun binaries => ?_) ?_
  · exact heeds_prompt
      (leaves_mapM fun path _ => readBinary_leaves fun _ => only_singleton.mpr trivial)
  · exact Conduct.heeds_eachHost fun host => heeds_prompt (fleet.install_prompt host binaries)
  · exact fleet.installBinaries_leaves bracketed_within fun _ _ _ _ _ => Request.IsOn.within

theorem deriveAddresses_prompt (hosts : List Host) :
    Leaves (Only Request.IsPrompt) (fleet.deriveAddresses hosts) := by
  induction hosts with
  | nil => exact leaves_pure _
  | cons host rest ih =>
    refine leaves_bind (Conduct.leaves_attempt (queryToken_prompt host _)) fun result => ?_
    cases result with
    | ok address =>
      refine leaves_bind (Conduct.leaves_passed _ _ _) fun _ => ?_
      exact leaves_bind ih fun _ => leaves_pure _
    | error e => exact leaves_bind (Conduct.leaves_settled _ _ _ _) fun _ => ih

theorem sendAll_prompt (amount : Amount) (destinations : List Destination) :
    Leaves (Only Request.IsPrompt) (fleet.sendAll amount destinations) := by
  refine leaves_forM fun d _ => leaves_bind (Conduct.leaves_attempt (expectToken_only trivial)) ?_
  exact fun _ => Conduct.leaves_enter _

theorem transfer_ends (hosts : List Host) (addresses : List String)
    (requested? : Option Amount) :
    (fleet.transfer hosts addresses requested?).AtCancellation EndsThere := by
  have hrest : (do
      let amount ← Conduct.need "select" (.ofExcept (fleet.amount requested?))
      let derived ← fleet.deriveAddresses hosts
      let destinations := derived ++ addresses.map Destination.given
      unless destinations.isEmpty do
        Conduct.inSession "connect-main" fleet.roster.main
          (fleet.sendAll amount destinations) : Conduct Unit).Heeds Log.IsClosing := by
    refine Conduct.heeds_bind (Conduct.heeds_need (heeds_prompt (leaves_ofExcept _))) ?_
    intro amount
    refine Conduct.heeds_bind (Conduct.heeds_prompt (fleet.deriveAddresses_prompt hosts)) ?_
    refine fun derived => Conduct.heeds_ite (Conduct.heeds_pure _) ?_
    exact Conduct.heeds_inSession (Conduct.heeds_prompt (fleet.sendAll_prompt amount _))
  refine Conduct.Heeds.ends (Conduct.heeds_ite ?_ hrest) ?_
  · exact Conduct.heeds_bind (Conduct.heeds_prompt (Conduct.leaves_abort _ _)) fun _ => hrest
  · exact fleet.transfer_leaves bracketed_within (fun _ _ => ⟨rfl, trivial⟩)
      fun _ _ _ => Request.IsOn.within

theorem awaitBalance_ends (hosts : List Host) (requested? : Option Amount) :
    (fleet.awaitBalance hosts requested?).AtCancellation EndsThere := by
  have hround (amount : Amount) :
      Leaves (Only Request.IsPrompt) (fleet.balanceRound hosts amount) := by
    refine leaves_bind (leaves_mapM fun host _ => ?_) fun _ => leaves_pure _
    refine leaves_bind (m := Program) (query_prompt host _ _) fun result => ?_
    split
    · exact leaves_pure _
    · exact leaves_pure _
  refine Conduct.Heeds.ends (Conduct.heeds_bind (Conduct.heeds_need ?_) fun amount => ?_) ?_
  · exact heeds_prompt (leaves_ofExcept _)
  · refine Conduct.heeds_bind (Conduct.heeds_need ?_) fun _ => Conduct.heeds_prompt ?_
    · exact (heeds_poll (hround amount) _ _).mono fun _ => .inl
    · exact leaves_forM fun _ _ => Conduct.leaves_settled _ _ _ _
  · exact fleet.awaitBalance_leaves bracketed_within fun _ _ => ⟨rfl, trivial⟩

theorem rebootAll_prompt (hosts : List Host) :
    Leaves (Only Request.IsPrompt) (fleet.rebootAll hosts) := by
  induction hosts with
  | nil => exact leaves_pure _
  | cons host rest ih =>
    refine leaves_bind (Conduct.leaves_attempt (fleet.rebootHost_prompt host)) fun result => ?_
    cases result with
    | ok _ =>
      refine leaves_bind (Conduct.leaves_passed _ _ _) fun _ => ?_
      exact leaves_bind ih fun _ => leaves_pure _
    | error e => exact leaves_bind (Conduct.leaves_settled _ _ _ _) fun _ => ih

theorem reboot_ends (hosts : List Host) : (fleet.reboot hosts).AtCancellation EndsThere := by
  refine Conduct.Heeds.ends (Conduct.heeds_bind ?_ fun told => ?_) ?_
  · exact Conduct.heeds_prompt (fleet.rebootAll_prompt hosts)
  · refine Conduct.heeds_ite (Conduct.heeds_pure _) ?_
    refine Conduct.heeds_bind (Conduct.heeds_need ?_) fun _ => ?_
    · exact (heeds_settle _).mono fun _ => .inl
    · exact Conduct.heeds_eachHost fleet.startAgain_heeds
  · exact fleet.reboot_leaves bracketed_within (fun _ _ _ => Request.IsOn.within)
      fun _ _ _ => Request.IsOn.within

theorem openConsoles_ends (hosts : List Host) :
    (fleet.openConsoles hosts).AtCancellation EndsThere := by
  refine Conduct.Heeds.ends (Conduct.heeds_prompt ?_)
    (fleet.openConsoles_leaves bracketed_within hosts)
  split
  · split
    · exact Conduct.leaves_abort _ _
    · exact Conduct.leaves_eachHost fun host _ =>
        launch_leaves fun _ => only_singleton.mpr trivial
  · exact Conduct.leaves_abort _ _

/-! ## The cold restart -/

theorem startLine_heeds (masternode : Host) (key : String) :
    (fleet.startLine masternode key).Heeds Log.IsClosing := by
  refine Line.heeds_stage (Stage.heeds_on (fleet.startMasternode_heeds masternode key)) fun _ => ?_
  refine Line.heeds_stage (Stage.heeds_on (heeds_prompt (query_prompt _ _ _))) fun _ => ?_
  refine Line.heeds_stage (Stage.heeds_on (heeds_prompt (query_prompt _ _ _))) fun _ => ?_
  exact Line.heeds_finished

theorem awaitConfirmation_heeds (host : Host) (hash : String) :
    Heeds Log.IsClosing (fleet.awaitConfirmation host hash) := by
  have hlists : Leaves (Only Request.IsPrompt) (fleet.lists host hash) := by
    refine leaves_bind (m := Program) (query_prompt host _ _) fun result => ?_
    split
    · exact leaves_pure _
    · exact leaves_pure _
  exact heeds_bind ((heeds_poll hlists _ _).mono fun _ => .inl) fun _ => heeds_pure _

theorem listLine_heeds (amount : Amount) (masternode : Host) :
    (fleet.listLine amount masternode).Heeds Log.IsClosing := by
  have htoken (name : String) (host : Host) (detail : String → Option String) (command : Command) :
      (Stage.on name host detail (queryToken host command)).Heeds Log.IsClosing :=
    Stage.heeds_on (heeds_prompt (queryToken_prompt host command))
  refine Line.heeds_stage (htoken _ _ _ _) fun key => ?_
  refine Line.heeds_stage (htoken _ _ _ _) fun address => ?_
  refine Line.heeds_stage (htoken _ _ _ _) fun hash => ?_
  refine Line.heeds_stage (Stage.heeds_on (fleet.awaitConfirmation_heeds _ _)) fun _ => ?_
  refine Line.heeds_stage (Stage.heeds_on (heeds_prompt ?_)) fun _ => ?_
  · exact prompt_inSession (writeConfigFile_only trivial trivial)
  · exact fleet.startLine_heeds masternode key

theorem wipeLine_heeds (wiped : Bool) (amount : Amount) (masternode : Host) :
    (fleet.wipeLine wiped amount masternode).Heeds Log.IsClosing := by
  have hcycle : Heeds Log.IsClosing fleet.cycleControl :=
    heeds_bind (fleet.stopHost_heeds _) fun _ => fleet.startHost_heeds _ _
  have hcontrol : (fleet.controlLine amount masternode).Heeds Log.IsClosing := by
    unfold controlLine
    split
    · exact Line.heeds_stage (Stage.heeds_on hcycle) fun _ => fleet.listLine_heeds _ _
    · exact fleet.listLine_heeds _ _
  have hmain : (fleet.mainLine amount masternode).Heeds Log.IsClosing := by
    refine Line.heeds_stage (Stage.heeds_on (fleet.startHost_heeds _ _)) fun _ => ?_
    refine Line.heeds_stage (Stage.heeds_silent ?_) fun _ => hcontrol
    exact (heeds_settle _).mono fun _ => .inl
  unfold wipeLine
  split
  · refine Line.heeds_stage (Stage.Asks.heeds (Stage.asks_inTurn fun host => ?_)) fun _ => hmain
    exact prompt_inSession (fleet.wipe_prompt host)
  · exact hmain

/-- A wait is cut short while the hosts of the fleet are being stopped: the session is closed, the
hosts that come after are told to stop all the same, nothing of a later stage is asked, and the
report is aborted with the first failure of the stage. -/
def StopsTheRest (before after : Log) (report : Report) : Prop :=
  ∃ early host remaining l₁ l₂ later e,
    fleet.roster.all = early.map Prod.fst ++ host :: remaining.map Prod.fst ∧
    before = l₁ ++ l₂ ∧ after = Event.closing host :: later ∧
    Visits fleet.stopHost early l₁ ∧ Visits fleet.stopHost remaining later ∧
    (∀ v ∈ remaining, fleet.TellsToStop v.1 later) ∧
    Only (fun r => ∃ v ∈ remaining, r.InSession v.1 (fleet.StopAsks v.1)) later ∧
    firstFailure? (early.map Prod.snd ++ .error .cancelled :: remaining.map Prod.snd) = some e ∧
    report.outcome = .aborted "stop-all" e.kind e.message

theorem stopVisits_tell {visits : List (Host × Except FleetError Stopped)} {l : Log}
    (h : Visits fleet.stopHost visits l) :
    (∀ v ∈ visits, fleet.TellsToStop v.1 l) ∧
      Only (fun r => ∃ v ∈ visits, r.InSession v.1 (fleet.StopAsks v.1)) l := by
  refine ⟨?_, fun e he => ?_⟩
  · rintro ⟨host, result⟩ hv
    obtain ⟨l₁, l₂, l₃, rfl, hvisit⟩ := h.of_mem hv
    obtain ⟨cause, hrefused⟩ | ⟨answer, htold⟩ := fleet.stopHost_tells hvisit
    · exact .inl ⟨cause, by simp [hrefused]⟩
    · exact .inr ⟨answer, by simp [htold]⟩
  · obtain ⟨host, result, l', hm, hvisit, he', -⟩ := h.mem_log he
    exact ⟨_, hm, fleet.stopHost_only l' result hvisit e he'⟩

/-- A wait that is cut short while hosts are being stopped. -/
theorem stopAll_cut {visits : List (Host × Except FleetError Stopped)} {before after : Log}
    {e : Event} {failure : FleetError} {report : Report}
    (h : Visits fleet.stopHost visits (before ++ e :: after))
    (hall : visits.map Prod.fst = fleet.roster.all)
    (hfirst : firstFailure? (visits.map Prod.snd) = some failure)
    (hreport : report.outcome = .aborted "stop-all" failure.kind failure.message)
    (he : ¬ e.IsCalm) : fleet.StopsTheRest before after report := by
  obtain ⟨early, host, result, remaining, l₁, l₂, l₃, later, rfl, rfl, rfl, hearly, hvisit,
    hremaining⟩ := h.split rfl
  obtain hcalm | ⟨_, rfl, rfl, hcut⟩ := heeds_closes (fleet.stopSteps_heeds host) _ _ hvisit
  · exact absurd (hcalm e (by simp)) he
  obtain ⟨htold, honly⟩ := fleet.stopVisits_tell hremaining
  obtain rfl : l₃ = [Event.closing host] :=
    hcut.tail_of_split (fun _ h => h.isClosing.calm) rfl he
  refine ⟨early, host, remaining, l₁, l₂, later, failure, ?_, rfl, rfl, hearly, hremaining, htold,
    honly, ?_, hreport⟩
  · rw [← hall, List.map_append]
    rfl
  · rw [← hfirst, List.map_append]
    rfl

/-- A cold restart ends like the other procedures once every host is shown as stopped; before that,
the hosts that remain are told to stop first. -/
theorem coldRestart_ends (wiped : Bool) (requested? : Option Amount) :
    (fleet.coldRestart wiped requested?).AtCancellation fun before after report =>
      (∀ host ∈ fleet.roster.all, ∃ e ∈ before, fleet.ShowsStopped host e) ∧
          EndsThere before after report ∨
        fleet.StopsTheRest before after report := by
  intro l report hl before e after hsplit he
  have hbracketed := fleet.program_bracketed (.coldRestart wiped requested?) l report hl
  obtain ⟨records, end?, hruns, hconcludes⟩ :=
    (fleet.coldRestart_follows wiped requested?).concludes hl
  have hmem : e ∈ l := by simp [hsplit]
  obtain rfl | ⟨amount, -, hruns⟩ := runs_known hruns
  · exact absurd hmem List.not_mem_nil
  obtain rfl | ⟨masternode, -, hruns⟩ := runs_known hruns
  · exact absurd hmem List.not_mem_nil
  -- a cancellation falls after the stops, which have all succeeded, or among them
  obtain ⟨stops, rest, r₁, r₂, _, rfl, -, hp, hrest⟩ | ⟨failure, rfl, hf⟩ :=
    Line.runs_stage.mp hruns
  · obtain ⟨visits, hvisits, hall, hnone, -⟩ := hp
    have hok := firstFailure?_eq_none.mp hnone
    have hcalm : Calm stops := hvisits.calm fleet.stopHost_heeds fun v hv => by
      obtain ⟨a, ha⟩ := hok v.2 (List.mem_map_of_mem hv)
      rw [ha]
      rfl
    obtain hcalm' | ⟨⟨name, rfl⟩, hcut⟩ := fleet.wipeLine_heeds wiped amount masternode _ _ _ hrest
    · exact absurd (calm_append.mpr ⟨hcalm, hcalm'⟩ e hmem) he
    refine .inl ⟨fun host hhost => ?_, ?_⟩
    · obtain ⟨⟨_, result⟩, hv, rfl⟩ := List.mem_map.mp (hall ▸ hhost)
      obtain ⟨stopped, rfl⟩ := hok result (List.mem_map.mpr ⟨_, hv, rfl⟩)
      obtain ⟨l₁, l₂, l₃, hstops, hvisit⟩ := hvisits.of_mem hv
      obtain ⟨shown, hshown, hshows⟩ := fleet.stopHost_ok hvisit
      refine ⟨shown, (prefix_before_of_forall hcalm he hsplit).subset ?_, hshows⟩
      simp [hstops, hshown]
    · exact hbracketed.endsThere (hcut.after_calm hcalm) ⟨name, _, hconcludes.outcome⟩ hsplit he
  · obtain ⟨visits, hvisits, hall, hfirst, -⟩ := hf
    rw [hsplit] at hvisits
    exact .inr (fleet.stopAll_cut hvisits hall hfirst hconcludes.outcome he)

/-! ## Every procedure -/

/-- Wherever a wait is cut short the procedure ends, whatever the procedure, its hosts and the
answers: the session that is open is closed, nothing else is asked, and the report is aborted as
cancelled.  A cold restart ends so once all hosts are shown as stopped; before that, the hosts that
remain are told to stop, and the report is aborted with the first failure of that stage. -/
theorem cancellation_ends (fleet : Fleet) :
    (∀ hosts, (fleet.sweep hosts).AtCancellation EndsThere) ∧
    (∀ hosts, (fleet.stopWallets hosts).AtCancellation EndsThere) ∧
    (∀ wiped hosts, (fleet.startWallets wiped hosts).AtCancellation EndsThere) ∧
    (∀ wiped, (fleet.restartWallets wiped).AtCancellation EndsThere) ∧
    (∀ hosts, (fleet.writeStakingConfigs hosts).AtCancellation EndsThere) ∧
    (∀ staking?, (fleet.promote staking?).AtCancellation EndsThere) ∧
    (∀ hosts, (fleet.installBinaries hosts).AtCancellation EndsThere) ∧
    (∀ hosts addresses requested?,
      (fleet.transfer hosts addresses requested?).AtCancellation EndsThere) ∧
    (∀ hosts requested?, (fleet.awaitBalance hosts requested?).AtCancellation EndsThere) ∧
    (∀ hosts, (fleet.reboot hosts).AtCancellation EndsThere) ∧
    (∀ hosts, (fleet.openConsoles hosts).AtCancellation EndsThere) ∧
    ∀ wiped requested?,
      (fleet.coldRestart wiped requested?).AtCancellation fun before after report =>
        (∀ host ∈ fleet.roster.all, ∃ e ∈ before, fleet.ShowsStopped host e) ∧
            EndsThere before after report ∨
          fleet.StopsTheRest before after report := by
  exact ⟨fleet.sweep_ends, fleet.stopWallets_ends, fleet.startWallets_ends,
    fleet.restartWallets_ends, fleet.writeStakingConfigs_ends, fleet.promote_ends,
    fleet.installBinaries_ends, fleet.transfer_ends, fleet.awaitBalance_ends, fleet.reboot_ends,
    fleet.openConsoles_ends, fleet.coldRestart_ends⟩

end Fleet

/-- The answers of a fleet on which all goes well, to an operator who has cancelled. -/
def World.cancelled : World Unit
  | .cancelled, s => (true, s)
  | r, s => World.replying (fun _ => Task.agreed) r s

/-- Both hosts of the pair are told to stop although the operator cancels after the first. -/
example :
    let ended := (Fleet.pair.coldRestart false none).run World.cancelled ()
    let log := (Fleet.pair.coldRestart false none).log World.cancelled ()
    ended.1.abortedAt? = some ("stop-all", .cancelled) ∧ log.length = 8 := by
  decide +kernel

end NodeFleet
