import NodeFleet.Proofs.Budgets
import NodeFleet.Proofs.ColdLine
import NodeFleet.Proofs.Rounds
import NodeFleet.Proofs.Selecting
import NodeFleet.Proofs.Sightings

/-!
# NodeFleet.Proofs.Endings — every message is answered after so many requests

Each message has a budget, which depends on the hosts that are meant, and for the two procedures
that poll on the number of attempts that a poll is allowed; how long the waits are plays no part.
Where the number of attempts is not limited, it is the operator who ends a poll.

* `Log.Quiet`, `Log.Around`: a log that does not poll, and one that polls in one stretch.
* `Line.quiet_stage`, `Line.around_stage`, `Line.around_polls`: the rules for lines of stages.
* `Fleet.coldRestart_around`, `Fleet.awaitBalance_polled`: the two procedures that poll.
* `Budget`, `Order.budget`: what an order may cost.  `Fleet.program_costs`: what it does cost.
* `Desk.every_message_ends`: all messages.
-/

namespace NodeFleet

/-! ## Logs that poll in one stretch -/

/-- A bounded log in which no time is read, and so nothing is polled. -/
structure Log.Quiet (c n : Nat) (l : Log) : Prop where
  costs : Costs c n l
  timeless : Only (· ≠ .clock) l

/-- A log with a stretch of polls, which may be empty; the rest is bounded and does not poll. -/
def Log.Around (polls : Log → Prop) (c n : Nat) (l : Log) : Prop :=
  ∃ early stretch late, l = early ++ (stretch ++ late) ∧ Log.Quiet c n (early ++ late) ∧
    (stretch = [] ∨ polls stretch)

section Logs

variable {polls : Log → Prop} {c c' n n' : Nat} {l l₁ l₂ : Log}

theorem Log.Quiet.append (h₁ : Log.Quiet c n l₁) (h₂ : Log.Quiet c' n' l₂) :
    Log.Quiet (c + c') (n + n') (l₁ ++ l₂) :=
  ⟨h₁.costs.append h₂.costs, Composes.append h₁.timeless h₂.timeless⟩

theorem Log.Quiet.mono (h : Log.Quiet c n l) (hc : c ≤ c') (hn : n ≤ n') : Log.Quiet c' n' l :=
  ⟨h.costs.mono hc hn, h.timeless⟩

theorem Log.Quiet.nil : Log.Quiet c n [] := ⟨Costs.nil, Composes.nil⟩

theorem Log.Quiet.around (h : Log.Quiet c n l) : Log.Around polls c n l :=
  ⟨l, [], [], by simp, by rwa [List.append_nil], .inl rfl⟩

theorem Log.Around.mono (h : Log.Around polls c n l) (hc : c ≤ c') (hn : n ≤ n') :
    Log.Around polls c' n' l := by
  obtain ⟨early, stretch, late, hl, hquiet, hpolls⟩ := h
  exact ⟨early, stretch, late, hl, hquiet.mono hc hn, hpolls⟩

/-- What does not poll may come before, -/
theorem Log.Around.before (h₁ : Log.Quiet c n l₁) (h₂ : Log.Around polls c' n' l₂) :
    Log.Around polls (c + c') (n + n') (l₁ ++ l₂) := by
  obtain ⟨early, stretch, late, rfl, hquiet, hpolls⟩ := h₂
  refine ⟨l₁ ++ early, stretch, late, (List.append_assoc _ _ _).symm, ?_, hpolls⟩
  rw [List.append_assoc]
  exact h₁.append hquiet

/-- and after. -/
theorem Log.Around.after (h₁ : polls l₁) (h₂ : Log.Quiet c n l₂) :
    Log.Around polls c n (l₁ ++ l₂) := ⟨[], l₁, l₂, rfl, h₂, .inr h₁⟩

/-- The stretch of polls is all that costs more. -/
theorem Log.Around.costs (h : Log.Around polls c n l) (hpolls : ∀ l, polls l → Costs c' n' l) :
    Costs (c + c') (n + n') l := by
  obtain ⟨early, stretch, late, rfl, hquiet, hstretch⟩ := h
  have hstretch : Costs c' n' stretch := by
    obtain rfl | hpoll := hstretch
    · exact Costs.nil
    · exact hpolls stretch hpoll
  have hc := hquiet.costs.connections
  have hn := hquiet.costs.requests
  rw [connections_append, List.length_append] at hc
  rw [List.length_append] at hn
  constructor
  · rw [connections_append, connections_append, List.length_append, List.length_append]
    have := hstretch.connections
    omega
  · rw [List.length_append, List.length_append]
    have := hstretch.requests
    omega

end Logs

/-! ## Steps that do not poll -/

section Steps

variable {α : Type} {c n : Nat} {host : Host} {step : Step α}

/-- What is asked in a session is no question for the time. -/
theorem timeless_of_isOn {runs : Command → Prop} {writes : String → ByteArray → Prop}
    (h : Leaves (Only (Request.IsOn host runs writes)) step) : Leaves (Only (· ≠ .clock)) step := by
  refine leaves_mono (fun l hl => hl.mono fun request hr => ?_) h
  rintro rfl
  exact hr

/-- Opening and closing a session reads no time. -/
theorem quiet_inSession (htimeless : Leaves (Only (· ≠ .clock)) step)
    (hcosts : Leaves (Costs c n) (inSession host step)) :
    Leaves (Log.Quiet c n) (inSession host step) := by
  have hsession : Leaves (Only (· ≠ .clock)) (inSession host step) :=
    leaves_inSession (fun _ => only_singleton.mpr nofun) htimeless (only_singleton.mpr nofun)
  exact fun l r h => ⟨hcosts l r h, hsession l r h⟩

theorem query_quiet {command : Command} {kind : ReplyKind} :
    Leaves (Log.Quiet 1 3) (query host command kind) :=
  quiet_inSession (expect_only nofun) query_costs

theorem queryToken_quiet {command : Command} :
    Leaves (Log.Quiet 1 3) (queryToken host command) :=
  quiet_inSession (expectToken_only nofun) queryToken_costs

theorem settle_quiet (delay : Duration) : Leaves (Log.Quiet 0 2) (settle delay) := by
  have htimeless : Leaves (Only (· ≠ .clock)) (settle delay) := settle_only nofun nofun
  exact fun l r h => ⟨settle_costs l r h, htimeless l r h⟩

end Steps

/-! ## Stages and lines -/

section Lines

variable {α : Type} {polls : Log → Prop} {name : String} {c c' n n' : Nat} {s : Stage α}
  {next : α → Line}

theorem Visits.quiet {step : Host → Step α} {visits : List (Host × Except FleetError α)} {l : Log}
    (h : Visits step visits l) (hstep : ∀ host, Leaves (Log.Quiet c n) (step host)) :
    Log.Quiet (visits.length * c) (visits.length * n) l where
  costs := h.costs fun host => leaves_mono (fun _ hl => hl.costs) (hstep host)
  timeless := h.only fun v _ => leaves_mono (fun _ hl => hl.timeless) (hstep v.1)

theorem Stage.quiet_collected {hosts : List Host} {step : Host → Step α}
    (h : ∀ host, Leaves (Log.Quiet c n) (step host)) :
    (Stage.collected name hosts step).Logs (Log.Quiet (hosts.length * c) (hosts.length * n)) where
  passes := by
    rintro l records _ ⟨visits, hv, rfl, -⟩
    rw [List.length_map]
    exact hv.quiet h
  fails := by
    rintro l records e ⟨visits, hv, rfl, -⟩
    rw [List.length_map]
    exact hv.quiet h

theorem Stage.quiet_inTurn {hosts : List Host} {step : Host → Step α}
    (h : ∀ host, Leaves (Log.Quiet c n) (step host)) :
    (Stage.inTurn name hosts step).Logs (Log.Quiet (hosts.length * c) (hosts.length * n)) where
  passes := by
    rintro l records _ ⟨visits, hv, rfl, -⟩
    rw [List.length_map]
    exact hv.quiet h
  fails := by
    rintro l records e ⟨visits, host, rest, l₁, l₂, hv, rfl, -, hlast, rfl, -⟩
    have hfew (k : Nat) : visits.length * k + k ≤
        (visits.map Prod.fst ++ host :: rest).length * k := by
      rw [← Nat.succ_mul]
      refine Nat.mul_le_mul_right k ?_
      rw [List.length_append, List.length_map, List.length_cons]
      omega
    exact ((hv.quiet h).append (h host l₂ _ hlast)).mono (hfew c) (hfew n)

theorem Line.quiet_finished : Line.finished.Logs (Log.Quiet 0 0) := by
  intro l records end? h
  cases h
  exact Log.Quiet.nil

theorem Line.quiet_stage (hs : s.Logs (Log.Quiet c n))
    (hnext : ∀ a, (next a).Logs (Log.Quiet c' n')) :
    (Line.stage s next).Logs (Log.Quiet (c + c') (n + n')) :=
  Line.logs_stage hs hnext
    (fun _ hl => hl.mono (Nat.le_add_right c c') (Nat.le_add_right n n')) fun _ _ => .append

/-- A stage that does not poll, before a line that polls. -/
theorem Line.around_stage (hs : s.Logs (Log.Quiet c n))
    (hnext : ∀ a, (next a).Logs (Log.Around polls c' n')) :
    (Line.stage s next).Logs (Log.Around polls (c + c') (n + n')) :=
  Line.logs_stage hs hnext
    (fun _ hl => (hl.mono (Nat.le_add_right c c') (Nat.le_add_right n n')).around)
    fun _ _ => .before

/-- The stage that polls, before a line that does not. -/
theorem Line.around_polls (hs : s.Logs polls) (hnext : ∀ a, (next a).Logs (Log.Quiet c n)) :
    (Line.stage s next).Logs (Log.Around polls c n) :=
  Line.logs_stage hs hnext (fun l hl => List.append_nil l ▸ .after hl .nil) fun _ _ => .after

end Lines

namespace Fleet

variable (fleet : Fleet)

/-! ## A cold restart -/

theorem stopHost_quiet (host : Host) : Leaves (Log.Quiet 1 5) (fleet.stopHost host) :=
  quiet_inSession (timeless_of_isOn (fleet.stopSteps_only host)) (fleet.stopHost_costs host)

theorem startHost_quiet (host : Host) : Leaves (Log.Quiet 1 9) (fleet.startHost false host) :=
  quiet_inSession (timeless_of_isOn (fleet.startSteps_only host false))
    (fleet.startHost_costs host false)

theorem cycleControl_quiet : Leaves (Log.Quiet 2 14) fleet.cycleControl :=
  leaves_seq Log.Quiet.nil (fun _ _ => .append) (fleet.stopHost_quiet _) fun _ =>
    fleet.startHost_quiet _

theorem wipe_quiet (host : Host) : Leaves (Log.Quiet 1 3) (inSession host (fleet.wipe host)) :=
  quiet_inSession (leaves_bind (expect_only nofun) fun _ => leaves_pure _)
    (costs_inSession (fleet.wipe_costs host))

theorem writeMasternodeList_quiet (line : String) :
    Leaves (Log.Quiet 1 4) (fleet.writeMasternodeList line) :=
  quiet_inSession (writeConfigFile_only nofun nofun) (costs_inSession writeConfigFile_costs)

theorem startMasternode_quiet (masternode : Host) (key : String) :
    Leaves (Log.Quiet 1 7) (fleet.startMasternode masternode key) :=
  quiet_inSession
    (leaves_bind (writeConfigFile_only nofun nofun) fun _ =>
      timeless_of_isOn (fleet.startDaemon_only masternode))
    (fleet.startMasternode_costs masternode key)

theorem startLine_quiet (masternode : Host) (key : String) :
    (fleet.startLine masternode key).Logs (Log.Quiet 3 13) :=
  Line.quiet_stage (Stage.logs_on (fleet.startMasternode_quiet masternode key)) fun _ =>
    Line.quiet_stage (Stage.logs_on query_quiet) fun _ =>
      Line.quiet_stage (Stage.logs_on query_quiet) fun _ => Line.quiet_finished

/-- The log of a wait until the control wallet lists a transaction. -/
def Confirms (l : Log) : Prop :=
  ∃ hash r, (fleet.awaitConfirmation fleet.control hash).run.Yields l r

theorem listLine_around (amount : Amount) (masternode : Host) :
    (fleet.listLine amount masternode).Logs (Log.Around fleet.Confirms 7 26) :=
  Line.around_stage (Stage.logs_on queryToken_quiet) fun key =>
    Line.around_stage (Stage.logs_on queryToken_quiet) fun _ =>
      Line.around_stage (Stage.logs_on queryToken_quiet) fun hash =>
        Line.around_polls (Stage.logs_on fun _ r h => ⟨hash, r, h⟩) fun _ =>
          Line.quiet_stage (Stage.logs_on (fleet.writeMasternodeList_quiet _)) fun _ =>
            fleet.startLine_quiet masternode key

theorem controlLine_around (amount : Amount) (masternode : Host) :
    (fleet.controlLine amount masternode).Logs (Log.Around fleet.Confirms 9 40) := by
  have hlist := fleet.listLine_around amount masternode
  unfold controlLine
  split
  · exact Line.around_stage (Stage.logs_on fleet.cycleControl_quiet) fun _ => hlist
  · exact fun l records end? h => (hlist l records end? h).mono (by decide) (by decide)

theorem mainLine_around (amount : Amount) (masternode : Host) :
    (fleet.mainLine amount masternode).Logs (Log.Around fleet.Confirms 10 51) :=
  Line.around_stage (Stage.logs_on (fleet.startHost_quiet _)) fun _ =>
    Line.around_stage (Stage.logs_silent (settle_quiet _)) fun _ =>
      fleet.controlLine_around amount masternode

theorem wipeLine_around (wiped : Bool) (amount : Amount) (masternode : Host) :
    (fleet.wipeLine wiped amount masternode).Logs (Log.Around fleet.Confirms
      (fleet.roster.all.length * 1 + 10) (fleet.roster.all.length * 3 + 51)) := by
  have hmain := fleet.mainLine_around amount masternode
  unfold wipeLine
  split
  · exact Line.around_stage (Stage.quiet_inTurn fleet.wipe_quiet) fun _ => hmain
  · exact fun l records end? h =>
      (hmain l records end? h).mono (Nat.le_add_left _ _) (Nat.le_add_left _ _)

theorem coldLine_around (wiped : Bool) (requested? : Option Amount) :
    (fleet.coldLine wiped requested?).Logs (Log.Around fleet.Confirms
      (2 * fleet.roster.all.length + 10) (8 * fleet.roster.all.length + 51)) := by
  intro l records end? h
  obtain rfl | ⟨amount, -, h⟩ := runs_known h
  · exact Log.Quiet.nil.around
  obtain rfl | ⟨masternode, -, h⟩ := runs_known h
  · exact Log.Quiet.nil.around
  refine (Line.around_stage (Stage.quiet_collected fleet.stopHost_quiet)
    (fun _ => fleet.wipeLine_around wiped amount masternode) l records end? h).mono ?_ ?_
  · omega
  · omega

/-- A cold restart polls in one stretch of its log. -/
theorem coldRestart_around (wiped : Bool) (requested? : Option Amount) :
    Leaves (Log.Around fleet.Confirms (2 * fleet.roster.all.length + 10)
      (8 * fleet.roster.all.length + 51)) (fleet.coldRestart wiped requested?) := by
  intro l report h
  obtain ⟨records, end?, hruns, -⟩ := (fleet.coldRestart_follows wiped requested?).concludes h
  exact fleet.coldLine_around wiped requested? l records end? hruns

/-- A wait for a transaction is a poll that asks whether it is listed. -/
theorem awaitConfirmation_polled {host : Host} {hash : String} {l : Log}
    {r : Except FleetError Nat} (h : (fleet.awaitConfirmation host hash).run.Yields l r) :
    ∃ attempts, Polled (fleet.lists host hash) attempts l ∧
      attempts.length ≤ fleet.config.timing.poll.policy.bound := by
  unfold awaitConfirmation at h
  rw [ExceptT.run_bind, Program.yields_bind] at h
  obtain ⟨l₁, l₂, polled, rfl, hpoll, hrest⟩ := h
  obtain rfl : l₂ = [] := by
    cases polled with
    | ok answer => exact (Program.yields_run_pure.mp hrest).1
    | error e => exact (Program.yields_pure.mp hrest).1
  rw [List.append_nil]
  exact poll_polled hpoll

/-! ## The wait for a balance -/

/-- The log of a wait for a balance is that of one poll, which asks every host in each round. -/
theorem awaitBalance_polled {hosts : List Host} {requested? : Option Amount} {l : Log}
    {report : Report} (h : (fleet.awaitBalance hosts requested?).Yields l report) :
    l = [] ∨ ∃ amount attempts, fleet.amount requested? = .ok amount ∧
      Polled (fleet.balanceRound hosts amount) attempts l ∧
      attempts.length ≤ fleet.config.timing.poll.policy.bound := by
  obtain ⟨r, hends, -⟩ := Conduct.conclude_ends h
  obtain ⟨_, -, hselect⟩ | ⟨l₁, l₂, amount, mid, rfl, hselect, hwait⟩ :=
    Conduct.ends_bind_cases hends
  · obtain ⟨e, hfailed, -⟩ := Conduct.ends_need_error.mp hselect
    exact .inl (yields_ofExcept.mp hfailed).1
  obtain ⟨hchosen, rfl⟩ := Conduct.ends_need_ok.mp hselect
  obtain ⟨rfl, hamount⟩ := yields_ofExcept.mp hchosen
  refine .inr ⟨amount, ?_⟩
  obtain ⟨_, -, hpoll⟩ | ⟨l₃, l₄, answer, mid, rfl, hpoll, hrest⟩ := Conduct.ends_bind_cases hwait
  · obtain ⟨e, hpoll, -⟩ := Conduct.ends_need_error.mp hpoll
    obtain ⟨attempts, hpolled⟩ := poll_polled hpoll
    exact ⟨attempts, hamount.symm, hpolled⟩
  · obtain ⟨hpoll, -⟩ := Conduct.ends_need_ok.mp hpoll
    obtain ⟨attempts, hpolled⟩ := poll_polled hpoll
    -- what is entered at the end asks nothing
    have hfree : Leaves (Costs 0 0) ((hosts.zip answer.1).forM fun entry =>
        enterBalance entry.1 entry.2) := leaves_forM fun _ _ => Conduct.leaves_settled _ _ _ _
    have hnone : l₄ = [] :=
      List.length_eq_zero_iff.mp (Nat.le_zero.mp (hfree mid l₄ r hrest).requests)
    rw [hnone, List.nil_append, List.append_nil]
    exact ⟨attempts, hamount.symm, hpolled⟩

/-! ## What the two procedures cost -/

theorem lists_costs (host : Host) (hash : String) : Leaves (Costs 1 3) (fleet.lists host hash) := by
  refine costs_then (m := Program) (leaves_run.mpr query_costs) fun result => ?_
  split
  · exact leaves_pure _
  · exact leaves_pure _

/-- A round asks each host in a session of its own. -/
theorem balanceRound_costs (hosts : List Host) (amount : Amount) :
    Leaves (Costs hosts.length (3 * hosts.length)) (fleet.balanceRound hosts amount) := by
  have hbalance (host : Host) : Leaves (Costs 1 3) (fleet.balanceOf host) := by
    refine costs_then (m := Program) (leaves_run.mpr query_costs) fun result => ?_
    split
    · exact leaves_pure _
    · exact leaves_pure _
  refine costs_mono (costs_then (costs_mapM hbalance) fun _ => leaves_pure _) ?_ ?_
  · omega
  · omega

variable {fleet} {polls : Nat} (hpolls : fleet.config.timing.poll.policy.bound ≤ polls)
include hpolls

theorem coldRestart_costs (wiped : Bool) (requested? : Option Amount) :
    Leaves (Costs (2 * fleet.roster.all.length + 10 + polls)
      (8 * fleet.roster.all.length + 55 + 6 * polls)) (fleet.coldRestart wiped requested?) := by
  intro l report h
  have hstretch (stretch : Log) (h : fleet.Confirms stretch) :
      Costs polls (6 * polls + 4) stretch := by
    obtain ⟨hash, r, hpoll⟩ := h
    obtain ⟨attempts, hpolled, hmost⟩ := fleet.awaitConfirmation_polled hpoll
    refine (hpolled.costs (fleet.lists_costs _ hash)).mono ?_ ?_
    · omega
    · omega
  refine ((fleet.coldRestart_around wiped requested? l report h).costs hstretch).mono ?_ ?_
  · exact Nat.le_refl _
  · omega

theorem awaitBalance_costs (hosts : List Host) (requested? : Option Amount) :
    Leaves (Costs (polls * hosts.length) (polls * (3 * hosts.length + 3) + 4))
      (fleet.awaitBalance hosts requested?) := by
  intro l report h
  obtain rfl | ⟨amount, attempts, -, hpolled, hmost⟩ := fleet.awaitBalance_polled h
  · exact Costs.nil
  · have hfew := Nat.le_trans hmost hpolls
    refine (hpolled.costs (fleet.balanceRound_costs hosts amount)).mono ?_ ?_
    · exact Nat.mul_le_mul_right _ hfew
    · exact Nat.add_le_add_right (Nat.mul_le_mul_right _ hfew) 4

end Fleet

/-! ## Budgets -/

/-- How many sessions may be tried, and how many requests made. -/
structure Budget where
  sessions : Nat
  requests : Nat
  deriving DecidableEq, Repr, Inhabited

/-- A session with so many requests for each host. -/
def Budget.each (hosts requests : Nat) : Budget := ⟨hosts, hosts * requests⟩

/-- The log keeps within the budget. -/
def Log.Within (budget : Budget) (l : Log) : Prop := Costs budget.sessions budget.requests l

/-- How many hosts tokens select; none where they name a host that there is not. -/
def Roster.count (r : Roster) (tokens : List String) (default : List Host) : Nat :=
  match r.select tokens default with
  | .ok hosts => hosts.length
  | .error _ => 0

/-- What an order may cost in a fleet of these hosts, with so many services on the main host and so
many binaries, if a poll may take so many attempts. -/
def Order.budget (roster : Roster) (services binaries polls : Nat) : Order → Budget
  | .sweep targets => .each (roster.count targets roster.all) (services + 8)
  | .stop targets => .each (roster.count targets roster.all) 5
  | .start targets _ => .each (roster.count targets roster.all) 9
  | .restart _ => ⟨2 * roster.all.length, 14 * roster.all.length⟩
  | .coldRestart _ _ =>
    ⟨2 * roster.all.length + 10 + polls, 8 * roster.all.length + 55 + 6 * polls⟩
  | .writeStakingConfigs targets => .each (roster.count targets roster.stakers) 4
  | .promote _ =>
    let masternodes := (roster.byRole .masternode).length
    ⟨1 + masternodes, 8 + 10 * masternodes⟩
  | .installBinaries targets =>
    let hosts := roster.count targets roster.all
    ⟨hosts, binaries + hosts * (2 * binaries + 2)⟩
  | .transfer tokens _ =>
    let resolution := roster.resolve tokens
    ⟨resolution.hosts.length + 1, 4 * resolution.hosts.length + resolution.free.length + 2⟩
  | .awaitBalance targets _ =>
    let hosts := roster.count targets (roster.byRole .masternode)
    ⟨polls * hosts, polls * (3 * hosts + 3) + 4⟩
  | .reboot targets =>
    let hosts := roster.count targets roster.all
    ⟨2 * hosts, 8 * hosts + 2⟩
  | .openConsoles targets => ⟨0, roster.count targets roster.all⟩

/-- Orders whose procedures poll. -/
def Order.Polls : Order → Prop
  | .coldRestart _ _ | .awaitBalance _ _ => True
  | _ => False

/-- Questions cost nothing. -/
def Message.budget (roster : Roster) (services binaries polls : Nat) : Message → Budget
  | .order o => o.budget roster services binaries polls
  | .observed | .resolve _ => ⟨0, 0⟩

/-- Messages whose procedures poll. -/
def Message.Polls : Message → Prop
  | .order o => o.Polls
  | .observed | .resolve _ => False

namespace Fleet

variable (fleet : Fleet)

/-- What a message may cost in this fleet. -/
def budget (polls : Nat) (message : Message) : Budget :=
  message.budget fleet.roster fleet.config.mainServices.length fleet.config.binaries.length polls

/-- A procedure runs on the hosts that the tokens select, or asks nothing. -/
theorem onTargets_cases {procedure : Procedure} {tokens : List String} {default : List Host}
    {run : List Host → Program Report} {l : Log} {report : Report}
    (h : (fleet.onTargets procedure tokens default run).Yields l report) :
    l = [] ∨ ∃ hosts, fleet.roster.select tokens default = .ok hosts ∧
      (run hosts).Yields l report := by
  unfold onTargets at h
  split at h
  · exact .inr ⟨_, ‹_›, h⟩
  · exact .inl (Program.yields_pure.mp h).1

/-- Where the tokens select no hosts, nothing is asked. -/
theorem onTargets_within {procedure : Procedure} {tokens : List String} {default : List Host}
    {run : List Host → Program Report} (b : Nat → Budget)
    (h : ∀ hosts, Leaves (Log.Within (b hosts.length)) (run hosts)) :
    Leaves (Log.Within (b (fleet.roster.count tokens default)))
      (fleet.onTargets procedure tokens default run) := by
  unfold onTargets Roster.count
  cases fleet.roster.select tokens default with
  | ok hosts => exact h hosts
  | error e => exact leaves_end (m := Program) Costs.nil _

/-- An order keeps within its budget, if a poll may take as many attempts as its policy allows. -/
theorem program_within {polls : Nat} (order : Order)
    (hpolls : order.Polls → fleet.config.timing.poll.policy.bound ≤ polls) :
    Leaves (Log.Within (fleet.budget polls (.order order))) (fleet.program order) := by
  -- order by order, each within the budget that is stated for it
  cases order with
  | sweep targets => exact fleet.onTargets_within (.each · _) fleet.sweep_costs
  | stop targets => exact fleet.onTargets_within (.each · _) fleet.stopWallets_costs
  | start targets wiped =>
    exact fleet.onTargets_within (.each · _) fun hosts => fleet.startWallets_costs hosts wiped
  | restart wiped => exact fleet.restartWallets_costs wiped
  | coldRestart wiped amount? => exact coldRestart_costs (hpolls trivial) wiped amount?
  | writeStakingConfigs targets =>
    exact fleet.onTargets_within (.each · _) fleet.writeStakingConfigs_costs
  | promote staking? =>
    cases staking? with
    | none => exact fleet.promote_costs none
    | some token =>
      exact fleet.onTargets_within (fun _ => _) fun hosts => fleet.promote_costs hosts.head?
  | installBinaries targets =>
    exact fleet.onTargets_within (fun hosts => ⟨hosts, _ + hosts * _⟩) fleet.installBinaries_costs
  | transfer tokens amount? =>
    refine costs_mono (fleet.transfer_costs _ _ _) (Nat.le_refl _) ?_
    have hfew := List.length_filter_le isRawAddress (fleet.roster.resolve tokens).free
    rw [Payment.ofTokens_addresses]
    dsimp only [Fleet.budget, Message.budget, Order.budget]
    omega
  | awaitBalance targets amount? =>
    exact fleet.onTargets_within (fun hosts => ⟨polls * hosts, polls * (3 * hosts + 3) + 4⟩)
      fun hosts => awaitBalance_costs (hpolls trivial) hosts amount?
  | reboot targets =>
    exact fleet.onTargets_within (fun hosts => ⟨2 * hosts, 8 * hosts + 2⟩) fleet.reboot_costs
  | openConsoles targets =>
    exact fleet.onTargets_within (fun hosts => ⟨0, hosts⟩) fleet.openConsoles_costs

end Fleet

namespace Desk

/-- An order asks of the fleet what its program asks. -/
theorem answer_log {σ : Type} (desk : Desk) (order : Order) (world : World σ) (s : σ) :
    (desk.answer (.order order)).log world s = (desk.fleet.program order).log world s := by
  obtain ⟨kept, -, heq⟩ := desk.answer_order order
  rw [heq, Program.log_andThen]
  exact List.append_nil _

/-- A message is answered within its budget, if a poll may take as many attempts as its policy
allows. -/
theorem answer_within {σ : Type} (desk : Desk) {polls : Nat} (message : Message)
    (hpolls : message.Polls → desk.fleet.config.timing.poll.policy.bound ≤ polls)
    (world : World σ) (s : σ) :
    Log.Within (desk.fleet.budget polls message) ((desk.answer message).log world s) := by
  cases message with
  | order order =>
    rw [desk.answer_log]
    exact desk.fleet.program_within order hpolls _ _ (Program.yields_log world _ s)
  | observed => exact Costs.nil
  | resolve tokens => exact Costs.nil

/-- Every message is answered, in any world:

* one that does not poll, within a budget that no policy of polls has a part in;
* any message, within its budget for `most` attempts, if the policy allows a poll so many;
* whatever the policy is, a cold restart polls in one stretch of its log, and is otherwise bounded,
  and that stretch halts once the operator has cancelled;
* and so does a wait for a balance, which is one poll as a whole, each attempt of which is a round
  that asks every host. -/
theorem every_message_ends {σ : Type} (desk : Desk) (world : World σ) (s : σ) :
    (∀ message, ¬ message.Polls →
      Log.Within (desk.fleet.budget 0 message) ((desk.answer message).log world s)) ∧
    (∀ most message, desk.fleet.config.timing.poll.maxAttempts? = some most →
      Log.Within (desk.fleet.budget most message) ((desk.answer message).log world s)) ∧
    (∀ wiped amount?, ∃ early stretch late,
      (desk.answer (.order (.coldRestart wiped amount?))).log world s =
        early ++ (stretch ++ late) ∧
      Log.Quiet (2 * desk.fleet.roster.all.length + 10) (8 * desk.fleet.roster.all.length + 51)
        (early ++ late) ∧
      (stretch = [] ∨ ∃ hash r,
        (desk.fleet.awaitConfirmation desk.fleet.control hash).run.Yields stretch r ∧
        HaltsOnceFired (desk.fleet.lists desk.fleet.control hash) stretch)) ∧
    ∀ targets amount?,
      (desk.answer (.order (.awaitBalance targets amount?))).log world s = [] ∨
      ∃ hosts amount,
        desk.fleet.roster.select targets desk.fleet.masternodes = .ok hosts ∧
        desk.fleet.amount amount? = .ok amount ∧
        HaltsOnceFired (desk.fleet.balanceRound hosts amount)
          ((desk.answer (.order (.awaitBalance targets amount?))).log world s) := by
  refine ⟨?_, ?_, ?_, ?_⟩
  · exact fun message hnot => desk.answer_within message (fun h => absurd h hnot) world s
  · intro most message hmost
    refine desk.answer_within message (fun _ => ?_) world s
    exact Nat.le_of_eq (congrArg (Option.getD · PollPolicy.mostAttempts) hmost)
  · intro wiped amount?
    rw [desk.answer_log]
    obtain ⟨early, stretch, late, hl, hquiet, hstretch⟩ :=
      desk.fleet.coldRestart_around wiped amount? _ _ (Program.yields_log world _ s)
    refine ⟨early, stretch, late, hl, hquiet, hstretch.imp id ?_⟩
    rintro ⟨hash, r, hpoll⟩
    obtain ⟨attempts, hpolled, -⟩ := desk.fleet.awaitConfirmation_polled hpoll
    exact ⟨hash, r, hpoll, hpolled.halts⟩
  · intro targets amount?
    rw [desk.answer_log]
    have hyields := Program.yields_log world (desk.fleet.program (.awaitBalance targets amount?)) s
    -- refused before the wait, or the whole log is the wait
    obtain hrefused | ⟨hosts, hselect, hran⟩ := desk.fleet.onTargets_cases hyields
    · exact .inl hrefused
    obtain hnone | ⟨amount, attempts, hamount, hpolled, -⟩ := desk.fleet.awaitBalance_polled hran
    · exact .inl hnone
    · exact .inr ⟨hosts, amount, hselect, hamount, hpolled.halts⟩

end Desk

end NodeFleet
