import NodeFleet.Proofs.Collateral
import NodeFleet.Proofs.Faults
import NodeFleet.Proofs.Sweeping
import NodeFleet.Proofs.Tallies

/-!
# NodeFleet.Proofs.Outcomes — one result for each target

A procedure on several targets that completes has entered exactly one result for each of them, a
restart two for each host; one that was aborted has entered no result that is not one of these.
Whichever branch enters it, a result marks its host as down exactly when the session to that host
could not be opened.

* `settles_inSession`, `stopHost_settles`, ...: the steps whose results are entered.
* `sweepAll_tallies`, `rebootAll_tallies`, `deriveAddresses_tallies`, ...: the loops that are
  written out, beside `eachHost_tallies`.
* `Program.Tallies`, `Fleet.StopsThenStarts`: what is said of the report of a procedure.
* `Fleet.reports_tally`: the procedures on several targets.
-/

namespace NodeFleet

/-- Whatever is answered, the log and the report of the procedure are such. -/
def Program.Reports (p : Program Report) (Q : Log → Report → Prop) : Prop :=
  ∀ l report, p.Yields l report → Q l report

/-- Whatever is answered, the report has the results of these targets, and marks as down those whose
session was refused. -/
def Program.Tallies (p : Program Report) (targets : List Target) : Prop :=
  p.Reports fun l report => report.Tallied targets l.refusals l

namespace Fleet

variable (fleet : Fleet) {l : Log}

/-! ## The steps on a host -/

/-- A step in a session of its own, where nothing but the host makes it fail. -/
theorem settles_inSession {α : Type} {host : Host} {runs : Command → Prop}
    {writes : String → ByteArray → Prop} {step : Step α}
    (hasks : Leaves (Only (Request.IsOn host runs writes)) step) (hfaults : Faults host step) :
    Settles host (inSession host step) := by
  intro l r h
  obtain ⟨cause, rfl, rfl⟩ | ⟨inner, rfl, hinner⟩ := inSession_cases h
  · exact .down cause refusals_refused
  · have hnone : Log.refusals inner = [] :=
      refusals_eq_nil ((hasks inner r hinner).mono fun _ => Request.IsOn.not_connects)
    refine .up (refusals_session.trans hnone) fun e he => ?_
    subst he
    exact (hfaults inner e hinner).not_down

theorem stopHost_settles (host : Host) : Settles host (fleet.stopHost host) :=
  settles_inSession (fleet.stopSteps_only host) (fleet.stopSteps_faults host)

theorem startHost_settles (wiped : Bool) (host : Host) :
    Settles host (fleet.startHost wiped host) :=
  settles_inSession (fleet.startSteps_only host wiped) (fleet.startSteps_faults host wiped)

theorem startAgain_settles (host : Host) : Settles host (fleet.startAgain host) :=
  settles_inSession (fleet.startDaemon_only host) (fleet.startDaemon_faults host)

theorem configureHost_settles (host : Host) : Settles host (fleet.configureHost host) :=
  settles_inSession (leaves_bind (fleet.configureSteps_only host) fun _ => leaves_pure _)
    (fleet.configureSteps_faults host)

theorem rebootHost_settles (host : Host) : Settles host (fleet.rebootHost host) :=
  settles_inSession (fleet.rebootSteps_only host) (fleet.rebootSteps_faults host)

theorem install_settles (binaries : List Binary) (host : Host) :
    Settles host (fleet.install binaries host) :=
  settles_inSession (fleet.installSteps_only host binaries)
    (fleet.installSteps_faults host binaries)

theorem installMasternode_settles (staking : Host) (key : String) (host : Host) :
    Settles host (fleet.installMasternode staking key host) :=
  settles_inSession (fleet.promoteSteps_only host staking key)
    (fleet.promoteSteps_faults host staking key)

theorem queryToken_settles (host : Host) (command : Command) :
    Settles host (queryToken host command) := by
  have hasks : Leaves (Only (Request.IsOn host (· = command) NoFile)) (expectToken host command) :=
    expectToken_only ⟨rfl, rfl⟩
  exact settles_inSession hasks expectToken_faults

/-- A console is no matter of the host. -/
theorem launch_settles (host : Host) (program : String) (arguments : List String) :
    Settles host (launch program arguments) := by
  intro l r h
  have haside : Request.IsAside (.launch program arguments) := trivial
  have hnone : Only (fun r => ¬ r.Connects) l :=
    launch_leaves (fun _ => only_singleton.mpr haside.not_connects) l r h
  refine .up (refusals_eq_nil hnone) fun e he => ?_
  subst he
  obtain hlaunch | ⟨l₁, l₂, launched, rfl, -, hlast⟩ := Program.yields_bind_error.mp h
  · cases (Program.yields_run_lift.mp hlaunch).choose_spec.2
  · split at hlast
    · cases (Program.yields_run_pure.mp hlast).2
    · cases (Program.yields_run_throw.mp hlast).2
      rfl

theorem settle_opens_none (delay : Duration) :
    Leaves (Only fun r => ¬ r.Connects) (settle delay) :=
  settle_only (Request.IsAside.not_connects trivial) (Request.IsAside.not_connects trivial)

/-! ## Loops over hosts -/

/-- A loop over hosts is a whole procedure. -/
theorem eachHost_reports {α : Type} {procedure : Procedure} {stage : String} {hosts : List Host}
    {step : Host → Step α} {detail : α → Option String} {report : Report}
    (hstep : ∀ host, Settles host (step host))
    (h : (Conduct.conclude procedure (Conduct.eachHost stage hosts step detail)).Yields l report) :
    report.Tallied (hosts.map .host) l.refusals l :=
  (Conduct.eachHost_tallies fun host _ => hstep host).reports h

theorem sweepHost_tallies (host : Host) : (fleet.sweepHost host).TalliesEach [.host host] := by
  intro before l r h
  obtain ⟨l₁, l₂, result, seen, snapshot, rfl, hvisit, hping, rfl⟩ := fleet.sweepHost_ends host h
  have hpinged : Log.refusals l₂ = [] := refusals_eq_nil (fleet.pinged_opens_none host hping)
  have hshows : Log.Shows host (l₁ ++ l₂) result := by
    obtain ⟨-, ⟨cause, rfl, rfl⟩ | ⟨inner, rfl, hasks, -, hfails⟩⟩ := visit_cases hvisit
    · exact .down cause (by rw [refusals_append, hpinged, refusals_refused, List.append_nil])
    · have hnone : Log.refusals inner = [] :=
        refusals_eq_nil (hasks.mono fun _ => Request.IsOn.not_connects)
      refine .up (by rw [refusals_append, hpinged, refusals_session, hnone]; rfl) fun e he => ?_
      obtain ⟨cause, rfl⟩ := hfails e he
      rfl
  exact Conduct.tally_result hshows (Conduct.settled_hosts before result)
    (Conduct.settled_outcome before result) rfl

theorem sweepAll_tallies (hosts : List Host) :
    (fleet.sweepAll hosts).TalliesEach (hosts.map .host) := by
  cases hosts with
  | nil => exact Conduct.each_pure ()
  | cons host rest =>
    refine Conduct.each_bind (fleet.sweepHost_tallies host) fun _ => ?_
    refine Conduct.each_forM fun next _ => ?_
    exact Conduct.each_after (Conduct.each_need (settle_opens_none _)) fun _ =>
      fleet.sweepHost_tallies next

/-- The host that makes the key is no target. -/
theorem makeKey_tallies (staking : Host) : (fleet.makeKey staking).TalliesEach [] := by
  have hrun (command : Command) : ¬ (Request.run staking command).Connects := by
    rintro ⟨_, heq⟩
    cases heq
  have hwrite (path : String) (contents : ByteArray) :
      ¬ (Request.write staking path contents).Connects := by
    rintro ⟨_, heq⟩
    cases heq
  have hconfigured : Leaves (Only fun r => ¬ r.Connects)
      (writeNodeConfig staking fleet.daemon (fleet.keyMakerConfig staking)) :=
    writeConfigFile_only (hrun _) (hwrite _ _)
  refine Conduct.each_after (Conduct.each_need hconfigured) fun _ => ?_
  refine Conduct.each_after (Conduct.each_passed _ _) fun _ => ?_
  refine Conduct.each_after (Conduct.each_attempt (expect_only (hrun _))) fun started => ?_
  refine Conduct.each_after (Conduct.each_enter fun r => ?_) fun _ => ?_
  · cases started <;> exact ⟨rfl, rfl⟩
  refine Conduct.each_after (Conduct.each_need (settle_opens_none _)) fun _ => ?_
  refine Conduct.each_after (Conduct.each_need (expectToken_only (hrun _))) fun key => ?_
  exact Conduct.each_after (Conduct.each_passed _ _) fun _ => Conduct.each_pure key

theorem promote_reports {staking? : Option Host} {report : Report}
    (h : (fleet.promote staking?).Yields l report) :
    report.Tallied (fleet.masternodes.map .host) l.refusals l := by
  refine Conduct.TalliesEach.reports ?_ h
  have hrest : Conduct.TalliesEach (do
      let key ← Conduct.inSession "connect-staking" (staking?.getD fleet.roster.stakingHost)
        (fleet.makeKey (staking?.getD fleet.roster.stakingHost))
      Conduct.eachHost "restart-masternode" fleet.masternodes
        (fleet.installMasternode (staking?.getD fleet.roster.stakingHost) key) fun _ => none)
      (fleet.masternodes.map .host) := by
    refine Conduct.each_after ?_ fun key => ?_
    · exact Conduct.tallies_inSession (fleet.makeKey_tallies _) List.nil_prefix
    · exact Conduct.eachHost_tallies fun host _ => fleet.installMasternode_settles _ key host
  dsimp only
  split
  · exact Conduct.each_after Conduct.each_abort fun _ => hrest
  · exact hrest

theorem installBinaries_reports {hosts : List Host} {report : Report}
    (h : (fleet.installBinaries hosts).Yields l report) :
    report.Tallied (hosts.map .host) l.refusals l := by
  refine Conduct.TalliesEach.reports ?_ h
  refine Conduct.each_after (Conduct.each_need (leaves_mapM fun path _ => ?_)) fun binaries => ?_
  · have haside : Request.IsAside (.load path) := trivial
    exact readBinary_leaves fun _ => only_singleton.mpr haside.not_connects
  · exact Conduct.eachHost_tallies fun host _ => fleet.install_settles binaries host

theorem openConsoles_reports {hosts : List Host} {report : Report}
    (h : (fleet.openConsoles hosts).Yields l report) :
    report.Tallied (hosts.map .host) l.refusals l := by
  refine Conduct.TalliesEach.reports ?_ h
  split
  · split
    · exact Conduct.each_abort
    · exact Conduct.eachHost_tallies fun host _ => launch_settles host _ _
  · exact Conduct.each_abort

/-! ## Reboots -/

/-- A host that could not be told to reboot has its result at once; the others are handed on. -/
theorem rebootAll_tallies (hosts : List Host) :
    (fleet.rebootAll hosts).Tallies
      (fun told s => (s.map Settlement.target ++ told.map Target.host).Perm (hosts.map .host))
      fun _ => False := by
  induction hosts with
  | nil => exact Conduct.tallies_pure (List.Perm.refl [])
  | cons host rest ih =>
    refine Conduct.tallies_asked (fleet.rebootHost_settles host) (fun _ => rfl) (fun _ => ?_)
      fun s hs => ih.mono (fun told s' hs' => ?_) fun _ => id
    · refine Conduct.tallies_entered (fun _ => ⟨rfl, rfl⟩) ?_
      refine Conduct.tallies_bind ih (fun told s hs => Conduct.tallies_pure ?_) fun _ => id
      rw [List.append_nil]
      exact List.perm_middle.trans (hs.cons _)
    · rw [List.map_append, hs, List.append_assoc]
      exact hs'.cons _

theorem reboot_reports {hosts : List Host} {report : Report}
    (h : (fleet.reboot hosts).Yields l report) :
    report.Tallied (hosts.map .host) l.refusals l := by
  have hall : Conduct.Tallies (do
      let told ← fleet.rebootAll hosts
      fleet.startTold told)
      (fun _ s => (s.map Settlement.target).Perm (hosts.map .host))
      fun s => (s.map Settlement.target).Subperm (hosts.map .host) := by
    refine Conduct.tallies_bind (fleet.rebootAll_tallies hosts) (fun told s hs => ?_)
      fun _ => False.elim
    -- where no host was told there is no second phase, and nothing is left to enter
    have hloop : (fleet.startTold told).TalliesEach (told.map .host) := by
      cases told with
      | nil => exact Conduct.each_pure ()
      | cons host rest =>
        refine Conduct.each_after (Conduct.each_need (settle_opens_none _)) fun _ => ?_
        exact Conduct.eachHost_tallies fun host _ => fleet.startAgain_settles host
    refine hloop.mono (fun _ s' hs' => ?_) fun s' hs' => ?_
    · rw [List.map_append, hs']
      exact hs
    · rw [List.map_append]
      exact ((List.subperm_append_left _).mpr hs'.sublist.subperm).trans hs.subperm
  exact hall.reports h

/-! ## Transfers -/

/-- A host that gives no address has its result at once; the others become destinations that are
called what they are called. -/
theorem deriveAddresses_tallies (hosts : List Host) :
    (fleet.deriveAddresses hosts).Tallies
      (fun derived s =>
        (s.map Settlement.target ++ derived.map Destination.target).Perm (hosts.map .host) ∧
          ∀ d ∈ derived, d.label = d.target.label)
      fun _ => False := by
  induction hosts with
  | nil =>
    exact Conduct.tallies_pure ⟨List.Perm.refl [], List.forall_mem_nil _⟩
  | cons host rest ih =>
    refine Conduct.tallies_asked (queryToken_settles host _) (fun _ => rfl) (fun address => ?_)
      fun s hs => ih.mono (fun derived s' hs' => ⟨?_, hs'.2⟩) fun _ => id
    · refine Conduct.tallies_entered (fun _ => ⟨rfl, rfl⟩) ?_
      refine Conduct.tallies_bind ih (fun derived s hs => Conduct.tallies_pure ⟨?_, ?_⟩) fun _ => id
      · rw [List.append_nil]
        exact List.perm_middle.trans (hs.1.cons _)
      · exact List.forall_mem_cons.mpr ⟨rfl, hs.2⟩
    · rw [List.map_append, hs, List.append_assoc]
      exact hs'.1.cons _

/-- Each destination has the result of sending the sum to it. -/
theorem sendAll_tallies {amount : Amount} {destinations : List Destination}
    (hlabels : ∀ d ∈ destinations, d.label = d.target.label) :
    (fleet.sendAll amount destinations).TalliesEach (destinations.map Destination.target) := by
  refine Conduct.each_forM fun d hm before l r h => ?_
  obtain ⟨_, -, hsend⟩ | ⟨l₁, l₂, result, mid, rfl, hsend, hentered⟩ := Conduct.ends_bind_cases h
  · exact absurd hsend Conduct.not_ends_attempt_error
  obtain ⟨hsent, rfl⟩ := Conduct.ends_attempt_ok.mp hsend
  obtain ⟨rfl, rfl⟩ := Conduct.ends_enter.mp hentered
  obtain ⟨answer, rfl, -⟩ := yields_expectToken hsent
  have hup (e : FleetError) (he : result = .error e) : e.isHostDown = false := by
    subst he
    exact (expectToken_faults _ e hsent).not_down
  obtain ⟨hnone, hdown⟩ : (Settlement.of d.target d.address result).unreached? = none ∧
      (Settlement.of d.target d.address result).outcome.hostDown = false :=
    Settlement.unreached?_of_up hup
  have hstands : (Settlement.of d.target d.address result).Stands
      [⟨.run fleet.roster.main (fleet.command (.pay d.address amount)), answer⟩] :=
    ⟨by rw [hnone, hdown]; rfl, .inr List.mem_cons_self⟩
  refine .on [Settlement.of d.target d.address result] ?_ (List.forall_mem_singleton.mpr hstands)
    ?_ ?_ rfl
  · rw [List.map_singleton, Settlement.outcome_of, ← hlabels d hm]
    cases result <;> rfl
  · rw [List.filterMap_cons, hnone]
    rfl
  · cases result <;> rfl

theorem transfer_reports {hosts : List Host} {addresses : List String}
    {requested? : Option Amount} {report : Report}
    (h : (fleet.transfer hosts addresses requested?).Yields l report) :
    report.Tallied (hosts.map .host ++ addresses.map .address) l.refusals l := by
  -- all that comes after the check that there is somebody to pay
  have hrest : Conduct.Tallies (do
      let amount ← Conduct.need "select" (.ofExcept (fleet.amount requested?))
      let derived ← fleet.deriveAddresses hosts
      let destinations := derived ++ addresses.map Destination.given
      unless destinations.isEmpty do
        Conduct.inSession "connect-main" fleet.roster.main
          (fleet.sendAll amount destinations))
      (fun _ s => (s.map Settlement.target).Perm (hosts.map .host ++ addresses.map .address))
      fun s => (s.map Settlement.target).Subperm (hosts.map .host ++ addresses.map .address) := by
    refine Conduct.tallies_after (Conduct.each_need (leaves_ofExcept _)) (fun amount => ?_)
      List.nil_subperm
    refine Conduct.tallies_bind (fleet.deriveAddresses_tallies hosts) (fun derived s hs => ?_)
      fun _ => False.elim
    -- hosts that gave no address have their results by now; `derived` are the others
    obtain ⟨hderived, hlabels⟩ := hs
    have hperm : (s.map Settlement.target ++
        (derived ++ addresses.map Destination.given).map Destination.target).Perm
          (hosts.map .host ++ addresses.map .address) := by
      rw [List.map_append, List.map_map, ← List.append_assoc]
      exact hderived.append_right _
    have hlabels' : ∀ d ∈ derived ++ addresses.map Destination.given, d.label = d.target.label := by
      intro d hm
      rcases List.mem_append.mp hm with hm | hm
      · exact hlabels d hm
      · obtain ⟨address, -, rfl⟩ := List.mem_map.mp hm
        rfl
    dsimp only
    split
    · rename_i hempty
      refine Conduct.tallies_pure ?_
      rw [List.isEmpty_iff.mp hempty] at hperm
      rw [List.append_nil]
      rwa [List.map_nil, List.append_nil] at hperm
    · refine Conduct.Tallies.mono (Conduct.tallies_inSession (fleet.sendAll_tallies hlabels')
        List.nil_prefix) (fun _ s' hs' => ?_) fun s' hs' => ?_
      · rw [List.map_append, hs']
        exact hperm
      · rw [List.map_append]
        exact ((List.subperm_append_left _).mpr hs'.sublist.subperm).trans hperm.subperm
  refine Conduct.Tallies.reports ?_ h
  dsimp only
  split
  · exact Conduct.tallies_after Conduct.each_abort (fun _ => hrest) List.nil_subperm
  · exact hrest

/-! ## Balances -/

theorem funded?_length {amount : Amount} {balances : List (Option Amount)} {held : List Amount}
    (h : funded? amount balances = some held) : held.length = balances.length := by
  unfold funded? at h
  induction balances generalizing held with
  | nil =>
    cases h
    rfl
  | cons balance? rest ih =>
    rw [List.mapM_cons] at h
    obtain ⟨balance, -, h⟩ := Option.bind_eq_some_iff.mp h
    obtain ⟨others, hothers, h⟩ := Option.bind_eq_some_iff.mp h
    cases h
    exact congrArg Nat.succ (ih hothers)

theorem balances_length {hosts : List Host} {balances : List (Option Amount)}
    (h : (hosts.mapM fleet.balanceOf).Yields l balances) : balances.length = hosts.length := by
  induction hosts generalizing l balances with
  | nil =>
    obtain ⟨-, rfl⟩ := Program.yields_pure.mp h
    rfl
  | cons host rest ih =>
    rw [List.mapM_cons] at h
    obtain ⟨l₁, l₂, balance, rfl, -, h⟩ := Program.yields_bind.mp h
    obtain ⟨l₃, l₄, others, rfl, hothers, h⟩ := Program.yields_bind.mp h
    obtain ⟨-, rfl⟩ := Program.yields_pure.mp h
    exact congrArg Nat.succ (ih hothers)

/-- A round that ends the wait has a balance for each host. -/
theorem balanceRound_length {hosts : List Host} {amount : Amount} {held : List Amount}
    (h : (fleet.balanceRound hosts amount).Yields l (some held)) : held.length = hosts.length := by
  obtain ⟨l₁, l₂, balances, rfl, hround, hlast⟩ := Program.yields_bind.mp h
  obtain ⟨-, hfunded⟩ := Program.yields_pure.mp hlast
  rw [funded?_length hfunded.symm, fleet.balances_length hround]

/-- Each host has the result that it holds the sum. -/
theorem enterBalances_tallies {hosts : List Host} {held : List Amount}
    (hlength : held.length = hosts.length) :
    Conduct.TalliesEach ((hosts.zip held).forM fun (host, balance) => enterBalance host balance)
      (hosts.map .host) := by
  have hhosts : (hosts.zip held).map Prod.fst = hosts :=
    List.map_fst_zip (Nat.le_of_eq hlength.symm)
  have htargets : hosts.map Target.host = (hosts.zip held).map fun p => .host p.1 := by
    conv_lhs => rw [← hhosts, List.map_map]
    rfl
  rw [htargets]
  refine Conduct.each_forM fun (host, balance) _ before l r h => ?_
  obtain ⟨rfl, rfl⟩ := Conduct.ends_enter.mp h
  have hshows : Log.Shows host [] (.ok balance) := .up rfl fun _ he => by cases he
  exact Conduct.tally_result hshows rfl rfl rfl

/-- The sessions that were refused while the balances were awaited leave no result. -/
theorem awaitBalance_reports {hosts : List Host} {requested? : Option Amount} {report : Report}
    (h : (fleet.awaitBalance hosts requested?).Yields l report) :
    report.Tallied (hosts.map .host) [] l := by
  obtain ⟨r, hends, rfl⟩ := Conduct.conclude_ends h
  obtain ⟨_, rfl, hneed⟩ | ⟨l₁, l₂, amount, mid, rfl, hneed, hends⟩ := Conduct.ends_bind_cases hends
  · obtain ⟨e, -, rfl⟩ := Conduct.ends_need_error.mp hneed
    exact Report.abort_tallied
  obtain ⟨-, rfl⟩ := Conduct.ends_need_ok.mp hneed
  obtain ⟨_, rfl, hpoll⟩ | ⟨l₃, l₄, ⟨held, attempts⟩, mid, rfl, hpoll, hlast⟩ :=
    Conduct.ends_bind_cases hends
  · obtain ⟨e, -, rfl⟩ := Conduct.ends_need_error.mp hpoll
    exact Report.abort_tallied
  obtain ⟨hpolled, rfl⟩ := Conduct.ends_need_ok.mp hpoll
  obtain ⟨_, _, rfl, hround⟩ := poll_ok hpolled
  have hentered := enterBalances_tallies (fleet.balanceRound_length hround) _ l₄ r hlast
  have hnothing : Only (fun r => ¬ r.Connects) l₄ :=
    (leaves_forM fun _ _ => Conduct.leaves_settled _ _ _ _ : Leaves _ (_ : Conduct Unit)) _ l₄ r
      hlast
  have htallied := hentered.tallied (fun _ hs => .of_eq hs) fun _ hs => hs.sublist.subperm
  rw [refusals_eq_nil hnothing] at htallied
  exact htallied.mono fun e he =>
    List.mem_append_right l₁ (List.mem_append_right _ he)

/-! ## Restarts -/

/-- Once a restart has completed, its report has the results of stopping every host, and after them
those of starting every host. -/
def StopsThenStarts (wiped : Bool) (l : Log) (report : Report) : Prop :=
  report.outcome = .completed →
    ∃ stops starts l₁ l₂, l = l₁ ++ l₂ ∧
      Visits fleet.stopHost stops l₁ ∧ Visits (fleet.startHost wiped) starts l₂ ∧
      stops.map Prod.fst = fleet.roster.all ∧ starts.map Prod.fst = fleet.roster.all ∧
      report.hosts = Conduct.outcomes stops ++ Conduct.outcomes starts

theorem restartWallets_reports {wiped : Bool} {report : Report}
    (h : (fleet.restartWallets wiped).Yields l report) :
    report.Tallied (fleet.roster.all.map .host ++ fleet.roster.all.map .host) l.refusals l := by
  refine Conduct.TalliesEach.reports (Conduct.each_bind ?_ fun _ => ?_) h
  · exact Conduct.eachHost_tallies fun host _ => fleet.stopHost_settles host
  · exact Conduct.eachHost_tallies fun host _ => fleet.startHost_settles wiped host

theorem restartWallets_stopsThenStarts {wiped : Bool} {report : Report}
    (h : (fleet.restartWallets wiped).Yields l report) : fleet.StopsThenStarts wiped l report := by
  intro hcompleted
  obtain ⟨r, hends, rfl⟩ := Conduct.conclude_ends h
  -- neither phase was cut short, as the report has completed
  obtain ⟨last, rfl, hstop⟩ | ⟨l₁, l₂, _, mid, rfl, hstop, hstart⟩ := Conduct.ends_bind_cases hends
  · obtain ⟨_, _, -, -, -, heq, -⟩ | ⟨_, _, _, _, _, -, -, -, -, heq, houtcome, -⟩ :=
      Conduct.eachHost_outcomes hstop
    · cases heq
    · cases heq
      cases houtcome.symm.trans hcompleted
  obtain ⟨stops, _, hstops, hall, -, heq, -, hentered⟩ | ⟨_, _, _, _, _, -, -, -, -, heq, -⟩ :=
    Conduct.eachHost_outcomes hstop
  rotate_left
  · cases heq
  cases heq
  obtain ⟨starts, last, hstarts, hall', -, rfl, -, hentered'⟩ |
    ⟨_, _, _, _, _, -, -, -, -, rfl, houtcome, -⟩ := Conduct.eachHost_outcomes hstart
  · refine ⟨stops, starts, l₁, l₂, rfl, hstops, hstarts, hall, hall', ?_⟩
    show last.hosts = _
    rw [hentered', hentered]
    rfl
  · cases houtcome.symm.trans hcompleted

/-! ## Every procedure on several targets -/

/-- No result is lost and none is entered twice, whatever the targets and the answers.  A procedure
that completes has entered one result for each of its targets, and succeeds exactly when all of them
are good; a restart has two for each host, those of stopping before those of starting.  One that is
aborted has entered some of them, each at most as often as it is due.  A result marks a host as down
exactly when the session to that host was refused, and says so; a wait for balances goes on where a
session is refused, and marks none. -/
theorem reports_tally (fleet : Fleet) :
    (∀ hosts, (fleet.sweep hosts).Tallies (hosts.map .host)) ∧
    (∀ hosts, (fleet.stopWallets hosts).Tallies (hosts.map .host)) ∧
    (∀ wiped hosts, (fleet.startWallets wiped hosts).Tallies (hosts.map .host)) ∧
    (∀ wiped, (fleet.restartWallets wiped).Tallies
        (fleet.roster.all.map .host ++ fleet.roster.all.map .host) ∧
      (fleet.restartWallets wiped).Reports (fleet.StopsThenStarts wiped)) ∧
    (∀ hosts, (fleet.writeStakingConfigs hosts).Tallies (hosts.map .host)) ∧
    (∀ staking?, (fleet.promote staking?).Tallies (fleet.masternodes.map .host)) ∧
    (∀ hosts, (fleet.installBinaries hosts).Tallies (hosts.map .host)) ∧
    (∀ hosts addresses requested?, (fleet.transfer hosts addresses requested?).Tallies
      (hosts.map .host ++ addresses.map .address)) ∧
    (∀ hosts requested?, (fleet.awaitBalance hosts requested?).Reports
      (Report.Tallied (hosts.map .host) [])) ∧
    (∀ hosts, (fleet.reboot hosts).Tallies (hosts.map .host)) ∧
    ∀ hosts, (fleet.openConsoles hosts).Tallies (hosts.map .host) := by
  refine ⟨?sweep, ?stop, ?start, ?restart, ?configure, ?promote, ?install, ?transfer, ?await,
    ?reboot, ?consoles⟩
  case sweep => exact fun hosts l report h => (fleet.sweepAll_tallies hosts).reports h
  case stop => exact fun hosts l report h => eachHost_reports fleet.stopHost_settles h
  case start =>
    exact fun wiped hosts l report h => eachHost_reports (fleet.startHost_settles wiped) h
  case restart =>
    exact fun wiped => ⟨fun l report h => fleet.restartWallets_reports h,
      fun l report h => fleet.restartWallets_stopsThenStarts h⟩
  case configure => exact fun hosts l report h => eachHost_reports fleet.configureHost_settles h
  case promote => exact fun staking? l report h => fleet.promote_reports h
  case install => exact fun hosts l report h => fleet.installBinaries_reports h
  case transfer =>
    exact fun hosts addresses requested? l report h => fleet.transfer_reports h
  case await => exact fun hosts requested? l report h => fleet.awaitBalance_reports h
  case reboot => exact fun hosts l report h => fleet.reboot_reports h
  case consoles => exact fun hosts l report h => fleet.openConsoles_reports h

end Fleet

end NodeFleet
