import NodeFleet.Proofs.Attempts
import NodeFleet.Proofs.Funding
import NodeFleet.Proofs.Outcomes
import NodeFleet.Proofs.Preflight
import NodeFleet.Proofs.Resolving

/-!
# NodeFleet.Proofs.Subjects — a success without a subject

A report has succeeded when its procedure came to the end and every result in it is good.  That says
nothing where there is no result, so each procedure has to see to it that it has targets.  The
default targets of most orders have the main host among them, tokens select at least one host or are
refused, and a transfer and a promotion are refused without targets.  A wait for a sum is not: by
default it is for the masternodes, and where there is none it ends at once, as a success.

* `Program.HasSubjects`: a success of the procedure has a result.
* `program_hasSubjects`: so it is with every order that is no cold restart, if its wait is for
  somebody.
* `awaitBalance_nobody`: what a wait for nobody asks, and how it ends.
* `Desk.success_without_subject_iff`: both, for every order, desk and world.
-/

namespace NodeFleet

variable {l : Log} {report : Report}

/-! ## Targets -/

/-- A success of the procedure has a result. -/
def Program.HasSubjects (p : Program Report) : Prop :=
  p.Reports fun _ report => report.succeeded = true → report.hosts ≠ []

theorem Report.completed_of_succeeded (h : report.succeeded = true) :
    report.outcome = .completed := by
  unfold succeeded at h
  exact eq_of_beq (Bool.and_eq_true_iff.mp h).1

/-- A success on targets has as many results as targets. -/
theorem Report.Tallied.hosts_length {targets : List Target}
    {refused : List (Host × RemoteError)} (h : report.Tallied targets refused l)
    (hsucceeded : report.succeeded = true) : report.hosts.length = targets.length := by
  have hcompleted := completed_of_succeeded hsucceeded
  obtain ⟨settled, hhosts, -, ⟨-, hperm, -⟩ | ⟨⟨_, _, _, haborted⟩, -⟩⟩ := h
  · rw [hhosts, List.length_map, ← List.length_map (f := Settlement.target), hperm.length_eq]
  · cases haborted.symm.trans hcompleted

theorem Report.Tallied.hosts_ne_nil {targets : List Target}
    {refused : List (Host × RemoteError)} (h : report.Tallied targets refused l)
    (htargets : targets ≠ []) (hsucceeded : report.succeeded = true) : report.hosts ≠ [] := by
  rw [← List.length_pos_iff, h.hosts_length hsucceeded]
  exact List.length_pos_iff.mpr htargets

/-- A procedure that was refused has not succeeded. -/
theorem Report.Answers.not_succeeded {refusal : String × ErrorKind}
    (h : report.Answers (some refusal) l) : report.succeeded = false := by
  refine Bool.eq_false_iff.mpr fun hsucceeded => ?_
  have haborted := h.1
  unfold abortedAt? at haborted
  rw [completed_of_succeeded hsucceeded] at haborted
  cases haborted

namespace Roster

variable {r : Roster} {tokens : List String} {default hosts : List Host}

/-- A choice of hosts is empty only where there are no tokens and the default is empty. -/
theorem select_eq_ok_nil (h : r.select tokens default = .ok []) : tokens = [] ∧ default = [] := by
  obtain ⟨rfl, rfl⟩ | ⟨hsome, hfree, hnone⟩ := select_eq_ok.mp h
  · exact ⟨rfl, rfl⟩
  · -- tokens that select nothing are free
    rw [resolve_free] at hfree
    have hall := resolve_hosts_eq_nil.mp hnone.symm
    rw [List.filter_eq_self.mpr (List.all_eq_true.mp hall)] at hfree
    exact absurd hfree hsome

theorem all_ne_nil (r : Roster) : r.all ≠ [] := by
  unfold all entries
  rw [ne_eq, foldl_addHost_eq_nil]
  exact fun h => List.cons_ne_nil _ _ h.1

theorem stakers_ne_nil (r : Roster) : r.stakers ≠ [] := by
  unfold stakers
  refine List.foldlRecOn (motive := (· ≠ [])) _ _ (List.cons_ne_nil _ _) fun hosts h host _ => ?_
  split
  · exact h
  · exact List.append_ne_nil_of_right_ne_nil _ (List.cons_ne_nil _ _)

end Roster

namespace Fleet

variable {fleet : Fleet}

/-! ## Orders with targets -/

/-- An order on targets has subjects where its procedure has, if its default is not empty. -/
theorem onTargets_hasSubjects {procedure : Procedure} {tokens : List String} {default : List Host}
    {run : List Host → Program Report} (hdefault : tokens = [] → default ≠ [])
    (hrun : ∀ hosts, hosts ≠ [] → (run hosts).HasSubjects) :
    (fleet.onTargets procedure tokens default run).HasSubjects := by
  intro l report h
  unfold onTargets at h
  split at h
  · rename_i hosts hselect
    refine hrun hosts (fun hnil => ?_) l report h
    obtain ⟨htokens, hnone⟩ := Roster.select_eq_ok_nil (hnil ▸ hselect)
    exact hdefault htokens hnone
  · obtain ⟨rfl, rfl⟩ := Program.yields_pure.mp h
    exact fun hsucceeded => absurd hsucceeded (by simp [Report.succeeded, Report.abort])

/-- A procedure on hosts has subjects if there are hosts. -/
theorem hasSubjects_of_hosts {run : List Host → Program Report}
    (h : ∀ hosts l report, (run hosts).Yields l report →
      ∃ refused, report.Tallied (hosts.map .host) refused l) :
    ∀ hosts, hosts ≠ [] → (run hosts).HasSubjects := by
  intro hosts hne l report hyields hsucceeded
  obtain ⟨refused, htallied⟩ := h hosts l report hyields
  exact htallied.hosts_ne_nil (mt List.map_eq_nil_iff.mp hne) hsucceeded

/-- A promotion without a masternode is refused. -/
theorem promote_hasSubjects (staking? : Option Host) : (fleet.promote staking?).HasSubjects := by
  intro l report h hsucceeded
  have hanswers := promote_answers h
  rw [← byRole_isEmpty] at hanswers
  by_cases hnone : (fleet.roster.byRole .masternode).isEmpty = true
  · rw [if_pos hnone] at hanswers
    exact absurd hsucceeded (Bool.eq_false_iff.mp hanswers.not_succeeded)
  · refine (fleet.promote_reports h).hosts_ne_nil ?_ hsucceeded
    exact mt List.map_eq_nil_iff.mp fun hnil => hnone (List.isEmpty_iff.mpr hnil)

/-- A transfer without a destination is refused. -/
theorem transfer_hasSubjects (hosts : List Host) (addresses : List String)
    (requested? : Option Amount) : (fleet.transfer hosts addresses requested?).HasSubjects := by
  intro l report h hsucceeded
  have hanswers := transfer_answers h
  by_cases hnone : (hosts.isEmpty && addresses.isEmpty) = true
  · rw [if_pos hnone] at hanswers
    exact absurd hsucceeded (Bool.eq_false_iff.mp hanswers.not_succeeded)
  · refine (fleet.transfer_reports h).hosts_ne_nil (fun hnil => hnone ?_) hsucceeded
    obtain ⟨hhosts, haddresses⟩ := List.append_eq_nil_iff.mp hnil
    rw [List.map_eq_nil_iff.mp hhosts, List.map_eq_nil_iff.mp haddresses]
    rfl

/-- The order waits for a sum by default, where there is no masternode to wait for, and a wait can
begin. -/
def AwaitsNobody (fleet : Fleet) (order : Order) : Prop :=
  ∃ amount?, order = .awaitBalance [] amount? ∧ fleet.masternodes = [] ∧
    (amount?.getD fleet.config.collateral).isPositive = true ∧
    0 < fleet.config.timing.poll.policy.bound

/-- Every order has subjects, except a cold restart, which enters no results, and a wait for
nobody. -/
theorem program_hasSubjects {order : Order}
    (hcold : ∀ wiped amount?, order ≠ .coldRestart wiped amount?)
    (hwait : ∀ amount?, order = .awaitBalance [] amount? → fleet.masternodes ≠ []) :
    (fleet.program order).HasSubjects := by
  -- without tokens an order is for all hosts, and there is at least the main one
  have hall {tokens : List String} (_ : tokens = []) := fleet.roster.all_ne_nil
  cases order with
  | coldRestart wiped amount? => exact absurd rfl (hcold wiped amount?)
  | sweep targets =>
    refine onTargets_hasSubjects hall (hasSubjects_of_hosts fun hosts l report h => ?_)
    exact ⟨_, (fleet.sweepAll_tallies hosts).reports h⟩
  | stop targets =>
    refine onTargets_hasSubjects hall (hasSubjects_of_hosts fun hosts l report h => ?_)
    exact ⟨_, eachHost_reports fleet.stopHost_settles h⟩
  | start targets wiped =>
    refine onTargets_hasSubjects hall (hasSubjects_of_hosts fun hosts l report h => ?_)
    exact ⟨_, eachHost_reports (fleet.startHost_settles wiped) h⟩
  | restart wiped =>
    intro l report h
    refine (fleet.restartWallets_reports h).hosts_ne_nil fun hnil => ?_
    exact fleet.roster.all_ne_nil (List.map_eq_nil_iff.mp (List.append_eq_nil_iff.mp hnil).1)
  | writeStakingConfigs targets =>
    refine onTargets_hasSubjects (fun _ => fleet.roster.stakers_ne_nil)
      (hasSubjects_of_hosts fun hosts l report h => ?_)
    exact ⟨_, eachHost_reports fleet.configureHost_settles h⟩
  | promote staking? =>
    cases staking? with
    | none => exact promote_hasSubjects none
    | some token => exact onTargets_hasSubjects nofun fun hosts _ => promote_hasSubjects hosts.head?
  | installBinaries targets =>
    refine onTargets_hasSubjects hall (hasSubjects_of_hosts fun hosts l report h => ?_)
    exact ⟨_, fleet.installBinaries_reports h⟩
  | transfer tokens amount? => exact transfer_hasSubjects _ _ _
  | awaitBalance targets amount? =>
    refine onTargets_hasSubjects (fun htargets => hwait amount? (htargets ▸ rfl))
      (hasSubjects_of_hosts fun hosts l report h => ?_)
    exact ⟨_, fleet.awaitBalance_reports h⟩
  | reboot targets =>
    refine onTargets_hasSubjects hall (hasSubjects_of_hosts fun hosts l report h => ?_)
    exact ⟨_, fleet.reboot_reports h⟩
  | openConsoles targets =>
    refine onTargets_hasSubjects hall (hasSubjects_of_hosts fun hosts l report h => ?_)
    exact ⟨_, fleet.openConsoles_reports h⟩

/-! ## A wait for nobody -/

/-- How a wait for nobody ends: at once, by a cancellation, for want of an attempt, or well. -/
inductive NobodyAwaited (fleet : Fleet) : Log → Report → Prop
  | cancelled {now : Duration} :
    NobodyAwaited fleet [⟨.clock, now⟩, ⟨.cancelled, true⟩]
      ((Report.new .awaitBalance).abort "await-balance" .cancelled)
  | exhausted {now : Duration} {amount : Amount}
    (hspent : fleet.config.timing.poll.policy.bound = 0) :
    NobodyAwaited fleet [⟨.clock, now⟩, ⟨.cancelled, false⟩]
      ((Report.new .awaitBalance).abort "await-balance"
        (.unconfirmed ("balance of " ++ amount.toText) 0))
  | succeeded {now : Duration} (hleft : 0 < fleet.config.timing.poll.policy.bound) :
    NobodyAwaited fleet [⟨.clock, now⟩, ⟨.cancelled, false⟩] (fundedReport [] [])

theorem awaitBalance_nobody {requested? : Option Amount} {amount : Amount}
    (hamount : fleet.amount requested? = .ok amount)
    (h : (fleet.awaitBalance [] requested?).Yields l report) : fleet.NobodyAwaited l report := by
  obtain ⟨result, hpoll, rfl⟩ := awaitBalance_poll hamount h
  obtain ⟨l₁, l₂, polled, rfl, huntil, rfl, rfl⟩ := Program.yields_bind.mp hpoll
  unfold pollUntil Poller.start at huntil
  rw [Program.run_lift_bind, Program.yields_bind] at huntil
  obtain ⟨l₃, l₄, poller, rfl, hstart, hask⟩ := huntil
  obtain ⟨l₅, l₆, now, rfl, hread, rfl, rfl⟩ := Program.yields_bind.mp hstart
  obtain rfl := Program.yields_request.mp hread
  unfold Poller.askUntil at hask
  rw [ExceptT.run_bind, Program.yields_bind] at hask
  obtain ⟨l₇, l₈, granted, rfl, hnext, hask⟩ := hask
  obtain ⟨hattempt, -⟩ := Poller.next_attempt hnext
  cases granted with
  | error e =>
    obtain ⟨rfl, rfl⟩ := Program.yields_pure.mp hask
    cases hattempt with
    | cancelled => exact .cancelled
    | exhausted hspent => exact .exhausted (Nat.le_zero.mp hspent)
    | cutShort hsome | late hsome => exact absurd rfl hsome
  | ok later =>
    -- the round asks nobody, and is one in which all hold the sum
    obtain ⟨rfl, rfl⟩ := Program.yields_pure.mp hask
    generalize hcount : Except.map Poller.attempts (.ok later) = count at hattempt
    cases hattempt with
    | first _ hleft => exact .succeeded hleft
    | later hsome => exact absurd rfl hsome
    | _ => cases hcount

theorem NobodyAwaited.log_eq (h : fleet.NobodyAwaited l report) :
    ∃ now fired, l = [⟨.clock, now⟩, ⟨.cancelled, fired⟩] := by
  cases h with
  | cancelled => exact ⟨_, true, rfl⟩
  | exhausted _ => exact ⟨_, false, rfl⟩
  | succeeded _ => exact ⟨_, false, rfl⟩

/-- A wait for nobody succeeds unless there is no attempt or it is cancelled. -/
theorem NobodyAwaited.succeeds_iff (h : fleet.NobodyAwaited l report) :
    report.succeeded = true ∧ report.hosts = [] ↔
      0 < fleet.config.timing.poll.policy.bound ∧ Calm l := by
  cases h with
  | cancelled =>
    refine iff_of_false (fun h => Bool.false_ne_true h.1) fun h => ?_
    have hfired : true = false := h.2 ⟨.cancelled, true⟩ (by simp)
    cases hfired
  | exhausted hspent => exact iff_of_false (fun h => Bool.false_ne_true h.1) fun h => by omega
  | succeeded hleft =>
    refine iff_of_true ⟨rfl, rfl⟩ ⟨hleft, ?_⟩
    exact List.forall_mem_cons.mpr ⟨trivial, List.forall_mem_singleton.mpr rfl⟩

/-- A wait for the masternodes, where there is none. -/
theorem program_nobody {amount? : Option Amount} (hnone : fleet.masternodes = [])
    (h : (fleet.program (.awaitBalance [] amount?)).Yields l report) :
    (fleet.awaitBalance [] amount?).Yields l report := by
  rwa [program, onTargets, Roster.select, if_pos List.isEmpty_nil, hnone] at h

/-- An order has succeeded without a result exactly when it waits for nobody and is not
cancelled. -/
theorem succeeds_idly_iff {order : Order}
    (hcold : ∀ wiped amount?, order ≠ .coldRestart wiped amount?)
    (h : (fleet.program order).Yields l report) :
    report.succeeded = true ∧ report.hosts = [] ↔ fleet.AwaitsNobody order ∧ Calm l := by
  -- only the wait for nobody can succeed without a result
  by_cases hwait : ∀ amount?, order = .awaitBalance [] amount? → fleet.masternodes ≠ []
  · refine iff_of_false ?_ ?_
    · rintro ⟨hsucceeded, hnone⟩
      exact program_hasSubjects hcold hwait l report h hsucceeded hnone
    · rintro ⟨⟨amount?, rfl, hnone, -⟩, -⟩
      exact hwait amount? rfl hnone
  simp only [not_forall, not_not] at hwait
  obtain ⟨amount?, rfl, hnone⟩ := hwait
  have hasked := program_nobody hnone h
  by_cases hpositive : (amount?.getD fleet.config.collateral).isPositive = true
  · have hends := awaitBalance_nobody (amount_eq_ok.mpr ⟨rfl, hpositive⟩) hasked
    rw [hends.succeeds_iff]
    constructor
    · rintro ⟨hleft, hcalm⟩
      exact ⟨⟨amount?, rfl, hnone, hpositive, hleft⟩, hcalm⟩
    · rintro ⟨⟨_, -, -, -, hleft⟩, hcalm⟩
      exact ⟨hleft, hcalm⟩
  · have hanswers := awaitBalance_answers hasked
    rw [Bool.eq_false_iff.mpr hpositive] at hanswers
    refine iff_of_false (fun h => ?_) ?_
    · exact absurd h.1 (Bool.eq_false_iff.mp hanswers.not_succeeded)
    · rintro ⟨⟨_, heq, -, hsum, -⟩, -⟩
      cases heq
      exact hpositive hsum

end Fleet

/-- The description of a main host alone, with no waits. -/
def Config.lone : Config :=
  { Config.ofMain (.plain "stake" "10.0.0.1") with
    password? := some "word"
    timing := .immediate }

/-- The main host. -/
def Roster.lone : Roster := ⟨Roster.pair.main, []⟩

theorem Roster.ofConfig_lone : Roster.ofConfig .lone = .ok .lone :=
  Roster.ofConfig_ok (by decide +kernel) rfl rfl rfl rfl rfl

/-- A main host alone. -/
def Fleet.lone : Fleet := ⟨.lone, .lone, false, Roster.ofConfig_lone⟩

namespace Desk

/-- Other than by a cold restart, whose report has no results, an order succeeds without a result
exactly when it waits for a sum on the masternodes, there are none, the sum is positive, an attempt
is granted, and the operator does not cancel.  Then nothing is asked of any host. -/
theorem success_without_subject_iff {σ : Type} (desk : Desk) (world : World σ) (s : σ)
    (order : Order) (hcold : ∀ wiped amount?, order ≠ .coldRestart wiped amount?) :
    let report := ((desk.carryOut order).run world s).1.1
    let log := (desk.carryOut order).log world s
    (report.succeeded = true ∧ report.hosts = [] ↔ desk.fleet.AwaitsNobody order ∧ Calm log) ∧
      (desk.fleet.AwaitsNobody order →
        ∃ now fired, log = [⟨.clock, now⟩, ⟨.cancelled, fired⟩]) := by
  intro report log
  obtain ⟨hprogram, -⟩ := carryOut_cases (Program.yields_log world (desk.carryOut order) s)
  refine ⟨Fleet.succeeds_idly_iff hcold hprogram, ?_⟩
  rintro ⟨amount?, rfl, hnone, hpositive, -⟩
  have hasked := Fleet.program_nobody hnone hprogram
  exact (Fleet.awaitBalance_nobody (Fleet.amount_eq_ok.mpr ⟨rfl, hpositive⟩) hasked).log_eq

/-- A wait for the masternodes of a fleet that has none, and its report: completed, without a result
for any host. -/
theorem success_without_subject_lone :
    let ended := (Desk.carryOut (.new .lone) (.awaitBalance [] (some (.ofNat 10)))).run
      (World.replying fun _ => Task.agreed) ()
    ended.1.1.succeeded = true ∧ ended.1.1.hosts = [] ∧ ended.1.1.stages = [] := by
  decide +kernel

/-- The same order, where there is a masternode, has it as its subject. -/
theorem success_without_subject_iff_pair :
    (∀ wiped amount?, Order.awaitBalance [] none ≠ .coldRestart wiped amount?) ∧
    let report := ((Desk.carryOut (.new .pair) (.awaitBalance [] none)).run
      (World.replying fun _ _ => "1000000") ()).1.1
    report.succeeded = true ∧ report.hosts ≠ [] := by
  obtain ⟨hiff, -⟩ := success_without_subject_iff (.new .pair) (World.replying fun _ _ => "1000000")
    () (.awaitBalance [] none) nofun
  have hsucceeded : ((Desk.carryOut (.new .pair) (.awaitBalance [] none)).run
      (World.replying fun _ _ => "1000000") ()).1.1.succeeded = true := by decide +kernel
  refine ⟨nofun, hsucceeded, fun hnone => ?_⟩
  obtain ⟨⟨_, -, hnobody, -⟩, -⟩ := hiff.mp ⟨hsucceeded, hnone⟩
  cases hnobody

end Desk

end NodeFleet
