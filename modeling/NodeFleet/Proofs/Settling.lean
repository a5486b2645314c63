import NodeFleet.Proofs.Orders
import NodeFleet.Proofs.Timing
import NodeFleet.Proofs.Uncancelled

/-!
# NodeFleet.Proofs.Settling — after a daemon is started or stopped, the procedure waits

Whatever accepts a start or a stop, whether in a session of its own or among other steps of one,
asks for nothing else before the wait that belongs to it, unless the operator cancels.

* `Event.Accepts`: an answer that does not refuse its command.
* `Log.WaitsAfter`: after each event of a kind the log waits.
* `Fleet.Honours`: the law for starts and for stops.  `honours_idle`: what neither starts nor stops
  a daemon.
* `startDaemon_honours`, `stopSteps_honours`, `makeKey_honours`, ...: the steps that do.
* `Fleet.Undertakes`, `honours_undertaking`: all procedures.
-/

namespace NodeFleet

/-- The event is an answer to this command that does not refuse it. -/
def Event.Accepts (command : Command) (kind : ReplyKind) : Event → Prop
  | ⟨.run _ c, .ok reply⟩ => c = command ∧ (kind.read reply).refusal? = none
  | _ => False

instance (command : Command) (kind : ReplyKind) (e : Event) : Decidable (e.Accepts command kind) :=
  match e with
  | ⟨.run _ c, .ok reply⟩ =>
    inferInstanceAs (Decidable (c = command ∧ (kind.read reply).refusal? = none))
  | ⟨.run _ _, .error _⟩ | ⟨.connect _, _⟩ | ⟨.write _ _ _, _⟩ | ⟨.close _, _⟩ | ⟨.cancelled, _⟩
  | ⟨.sleep _, _⟩ | ⟨.clock, _⟩ | ⟨.ping _, _⟩ | ⟨.launch _ _, _⟩ | ⟨.load _, _⟩ => .isFalse id

/-- After each event of a kind the log waits, before anything else. -/
def Log.WaitsAfter (kind : Event → Prop) (delay : Duration) (l : Log) : Prop :=
  ∀ before e after, l = before ++ e :: after → kind e → Log.Gap delay (before ++ [e]) after

section Waits

variable {kind : Event → Prop} {delay : Duration} {l : Log}

instance : Composes (Log.WaitsAfter kind delay) where
  nil := by
    intro before e after h
    exact absurd h.symm (by simp)
  append {l₁ l₂} h₁ h₂ := by
    intro before e after h he
    obtain ⟨mid, rfl, hl⟩ | ⟨rest, rfl, rfl⟩ := split_append h
    · rw [List.append_assoc]
      exact (h₂ mid e after hl he).append_left l₁
    · exact (h₁ before e rest rfl he).append_right l₂

theorem waitsAfter_of_none (h : ∀ e ∈ l, ¬ kind e) : Log.WaitsAfter kind delay l := by
  rintro before e after rfl he
  exact absurd he (h e (by simp))

/-- An event, and the wait that follows it. -/
theorem waitsAfter_wait {e : Event} (hkind : ∀ e, kind e → e.request.IsPrompt) (hwait : l.IsWait)
    (hd : kind e → delay.millis ≤ l.waited) : Log.WaitsAfter kind delay (e :: l) := by
  intro before e' after h he'
  obtain ⟨rfl, heq⟩ | ⟨rest, rfl, rfl⟩ := List.cons_eq_append_iff.mp h
  · obtain ⟨rfl, rfl⟩ := List.cons.inj heq
    rw [← List.append_nil after]
    exact gap_of_wait hwait (hd he')
  · exact absurd (hkind e' he') (hwait e' (by simp))

end Waits

section Steps

variable {host : Host} {command : Command} {kind : ReplyKind} {l : Log}

theorem Event.Accepts.run {e : Event} (h : e.Accepts command kind) :
    ∃ host, e.request = .run host command := by
  match e, h with
  | ⟨.run host _, .ok _⟩, h => exact ⟨host, congrArg _ h.1⟩

theorem Event.Accepts.prompt {e : Event} (h : e.Accepts command kind) : e.request.IsPrompt := by
  obtain ⟨host, hrun⟩ := h.run
  rw [hrun]
  trivial

/-- A command is sent once, and an answer that accepts it is no failure. -/
theorem expect_accepts {r : Except FleetError Reading}
    (h : (expect host command kind).run.Yields l r) :
    ∃ e : Event, l = [e] ∧ e.request = .run host command ∧
      (e.Accepts command kind → ∃ reading, r = .ok reading) := by
  cases r with
  | ok reading =>
    obtain ⟨reply, rfl, -⟩ := yields_expect_ok.mp h
    exact ⟨_, rfl, rfl, fun _ => ⟨reading, rfl⟩⟩
  | error e =>
    obtain ⟨cause, rfl, -⟩ | ⟨reply, reason, rfl, hrefused, -⟩ := yields_expect_error.mp h
    · exact ⟨_, rfl, rfl, fun haccepts => absurd haccepts id⟩
    · refine ⟨_, rfl, rfl, fun haccepts => ?_⟩
      cases hrefused.symm.trans haccepts.2

/-- A wait that goes well has taken its time. -/
theorem settle_waits {delay : Duration} (h : (settle delay).run.Yields l (.ok ())) :
    l.IsWait ∧ delay.millis ≤ l.waited := by
  have hlisten : Log.IsWait [⟨.cancelled, false⟩] := only_singleton.mpr id
  obtain ⟨-, heq⟩ | ⟨rfl, rfl, -⟩ | ⟨ended, rfl, -, heq⟩ := settle_cases h
  · cases heq
  · exact ⟨hlisten, Nat.zero_le _⟩
  · cases ended with
    | false => cases heq
    | true =>
      refine ⟨Composes.append (P := Only _) hlisten (only_singleton.mpr id), ?_⟩
      simp [Log.waited, Event.waited]

/-- A wait that is not cut short takes its time. -/
theorem settle_calm_waits {delay : Duration} {r : Except FleetError Unit}
    (h : (settle delay).run.Yields l r) (hcalm : Calm l) : delay.millis ≤ l.waited := by
  rw [settle_calm hcalm h] at h
  exact (settle_waits h).2

theorem settle_isWait {delay : Duration} {r : Except FleetError Unit}
    (h : (settle delay).run.Yields l r) : l.IsWait := settle_only id id l r h

end Steps

namespace Fleet

variable (fleet : Fleet) {host : Host} {l : Log}

/-- The wait that belongs to an accepted start. -/
def startDelay : Duration := .ofSeconds fleet.config.timing.daemonSettle

/-- The wait that belongs to an accepted stop. -/
def stopDelay : Duration := .ofSeconds fleet.config.timing.stopSettle

/-- A daemon is started. -/
def Starts : Event → Prop := Event.Accepts (fleet.command .start) .start

instance : DecidablePred fleet.Starts := fun e =>
  inferInstanceAs (Decidable (e.Accepts (fleet.command .start) .start))

/-- A daemon that was up is stopped. -/
def Stops : Event → Prop := Event.Accepts (fleet.command .stop) .stop

/-- Unless the operator cancels, the log waits after every start and every stop. -/
def Honours (l : Log) : Prop :=
  Calm l → l.WaitsAfter fleet.Starts fleet.startDelay ∧ l.WaitsAfter fleet.Stops fleet.stopDelay

instance : Composes fleet.Honours where
  nil _ := ⟨Composes.nil, Composes.nil⟩
  append h₁ h₂ hcalm := by
    obtain ⟨hcalm₁, hcalm₂⟩ := calm_append.mp hcalm
    exact ⟨Composes.append (h₁ hcalm₁).1 (h₂ hcalm₂).1, Composes.append (h₁ hcalm₁).2 (h₂ hcalm₂).2⟩

/-- Some host is given this task. -/
def Calls (task : Task) (r : Request) : Prop := ∃ host, r = .run host (fleet.command task)

theorem not_calls_of_not_run {task : Task} {r : Request}
    (h : ∀ host command, r ≠ .run host command) : ¬ fleet.Calls task r := by
  rintro ⟨host, hr⟩
  exact h host _ hr

theorem not_calls_run {task other : Task} (h : other ≠ task) :
    ¬ fleet.Calls task (.run host (fleet.command other)) := by
  rintro ⟨_, heq⟩
  cases heq
  exact h rfl

/-- Commands and files on a host, none of which is this task. -/
theorem not_calls_of_isOn {task : Task} {runs : Command → Prop}
    {writes : String → ByteArray → Prop} {r : Request} (h : r.IsOn host runs writes)
    (hruns : ∀ command, runs command → ∃ other, command = fleet.command other ∧ other ≠ task) :
    ¬ fleet.Calls task r := by
  rintro ⟨_, rfl⟩
  obtain ⟨other, hcommand, hne⟩ := hruns _ h.2
  cases hcommand
  exact hne rfl

/-- Sessions in which no host is given this task. -/
theorem not_calls_sessions (task : Task) :
    HoldsOfSessions (fun _ r => ¬ fleet.Calls task r) (Only fun r => ¬ fleet.Calls task r) := by
  refine holdsOfSessions_only (fun r hr => fleet.not_calls_of_not_run fun _ _ => ?_) ?_ ?_
  · rintro rfl
    exact hr
  · exact fun _ => fleet.not_calls_of_not_run fun _ _ => Request.noConfusion
  · exact fun _ => fleet.not_calls_of_not_run fun _ _ => Request.noConfusion

/-- A request that neither starts nor stops a daemon. -/
def IsIdle (r : Request) : Prop := ¬ fleet.Calls .start r ∧ ¬ fleet.Calls .stop r

theorem honours_idle (h : Only fleet.IsIdle l) : fleet.Honours l := fun _ =>
  ⟨waitsAfter_of_none fun e he hstarts => (h e he).1 hstarts.run,
    waitsAfter_of_none fun e he hstops => (h e he).2 hstops.run⟩

theorem isIdle_of_not_run {r : Request} (h : ∀ host command, r ≠ .run host command) :
    fleet.IsIdle r := ⟨fleet.not_calls_of_not_run h, fleet.not_calls_of_not_run h⟩

theorem isIdle_run {task : Task} (hstart : task ≠ .start) (hstop : task ≠ .stop) :
    fleet.IsIdle (.run host (fleet.command task)) :=
  ⟨fleet.not_calls_run hstart, fleet.not_calls_run hstop⟩

/-- Commands and files on a host, none of which is a start or a stop. -/
theorem isIdle_of_isOn {runs : Command → Prop} {writes : String → ByteArray → Prop} {r : Request}
    (h : r.IsOn host runs writes)
    (hruns : ∀ command, runs command →
      ∃ task, command = fleet.command task ∧ task ≠ .start ∧ task ≠ .stop) : fleet.IsIdle r := by
  constructor
  · refine fleet.not_calls_of_isOn h fun command hc => ?_
    obtain ⟨task, rfl, hstart, -⟩ := hruns command hc
    exact ⟨task, rfl, hstart⟩
  · refine fleet.not_calls_of_isOn h fun command hc => ?_
    obtain ⟨task, rfl, -, hstop⟩ := hruns command hc
    exact ⟨task, rfl, hstop⟩

/-- Sessions in which no daemon is started or stopped. -/
theorem idle_sessions : HoldsOfSessions (fun _ => fleet.IsIdle) (Only fleet.IsIdle) := by
  refine holdsOfSessions_only (fun r hr => fleet.isIdle_of_not_run fun _ _ => ?_) (fun _ => ?_) ?_
  · rintro rfl
    exact hr
  · exact fleet.isIdle_of_not_run fun _ _ => Request.noConfusion
  · exact fun _ => fleet.isIdle_of_not_run fun _ _ => Request.noConfusion

/-- What starts and stops no daemon honours the waits. -/
theorem honours_of_idle {m : Type → Type} [Monad m] [Logging m] {α : Type} {x : m α}
    (h : Leaves (Only fleet.IsIdle) x) : Leaves fleet.Honours x :=
  leaves_mono (fun _ => fleet.honours_idle) h

/-- A start, and the wait that follows an accepted one. -/
theorem honours_start {e : Event} (he : e.request = .run host (fleet.command .start))
    (hwait : l.IsWait) (hd : Calm l → fleet.Starts e → fleet.startDelay.millis ≤ l.waited) :
    fleet.Honours (e :: l) := by
  intro hcalm
  have hrest : Calm l := fun e' h => hcalm e' (List.mem_cons_of_mem _ h)
  refine ⟨waitsAfter_wait (fun _ => Event.Accepts.prompt) hwait (hd hrest), ?_⟩
  refine waitsAfter_wait (fun _ => Event.Accepts.prompt) hwait fun hstops => ?_
  obtain ⟨other, hrun⟩ := hstops.run
  cases he.symm.trans hrun

/-- A stop, and the wait that follows an accepted one. -/
theorem honours_stop {e : Event} (he : e.request = .run host (fleet.command .stop))
    (hwait : l.IsWait) (hd : Calm l → fleet.Stops e → fleet.stopDelay.millis ≤ l.waited) :
    fleet.Honours (e :: l) := by
  intro hcalm
  have hrest : Calm l := fun e' h => hcalm e' (List.mem_cons_of_mem _ h)
  refine ⟨?_, waitsAfter_wait (fun _ => Event.Accepts.prompt) hwait (hd hrest)⟩
  refine waitsAfter_wait (fun _ => Event.Accepts.prompt) hwait fun hstarts => ?_
  obtain ⟨other, hrun⟩ := hstarts.run
  cases he.symm.trans hrun

/-! ## The steps on a host -/

theorem startDaemon_honours (host : Host) : Leaves fleet.Honours (fleet.startDaemon host) := by
  intro l r h
  unfold startDaemon at h
  rw [ExceptT.run_bind] at h
  obtain ⟨l₁, l₂, result, rfl, hsent, hrest⟩ := Program.yields_bind.mp h
  obtain ⟨e, rfl, he, haccepts⟩ := expect_accepts hsent
  cases result with
  | ok reading =>
    exact fleet.honours_start he (settle_isWait hrest) fun hcalm _ => settle_calm_waits hrest hcalm
  | error cause =>
    obtain ⟨rfl, -⟩ := Program.yields_pure.mp hrest
    refine fleet.honours_start he (fun _ h => absurd h List.not_mem_nil) fun _ hstarts => ?_
    obtain ⟨reading, heq⟩ := haccepts hstarts
    cases heq

/-- A stop that is accepted is one of a daemon that was up. -/
theorem stopDaemon_accepts {r : Except FleetError Stopped}
    (h : (fleet.stopDaemon host).run.Yields l r) :
    ∃ e : Event, l = [e] ∧ e.request = .run host (fleet.command .stop) ∧
      (fleet.Stops e → r = .ok .now) := by
  unfold stopDaemon at h
  rw [ExceptT.run_bind] at h
  obtain ⟨l₁, l₂, caught, rfl, hcaught, hrest⟩ := Program.yields_bind.mp h
  obtain ⟨result, hresult, rfl⟩ := yields_caught.mp hcaught
  obtain ⟨e, rfl, he, haccepts⟩ := expect_accepts hresult
  cases result with
  | ok reading =>
    obtain ⟨rfl, rfl⟩ := Program.yields_run_pure.mp hrest
    exact ⟨e, rfl, he, fun _ => rfl⟩
  | error cause =>
    -- what a refusal is taken for asks nothing more
    have hnothing : l₂ = [] := by
      dsimp only at hrest
      split at hrest
      · split at hrest
        · exact (Program.yields_run_pure.mp hrest).1
        · exact (Program.yields_run_throw.mp hrest).1
      · exact (Program.yields_run_throw.mp hrest).1
    refine ⟨e, by rw [hnothing]; rfl, he, fun hstops => ?_⟩
    obtain ⟨reading, heq⟩ := haccepts hstops
    cases heq

theorem stopSteps_honours (host : Host) : Leaves fleet.Honours (fleet.stopSteps host) := by
  intro l r h
  unfold stopSteps at h
  rw [ExceptT.run_bind] at h
  obtain ⟨l₁, l₂, result, rfl, hstop, hrest⟩ := Program.yields_bind.mp h
  obtain ⟨e, rfl, he, haccepts⟩ := fleet.stopDaemon_accepts hstop
  -- the wait of a daemon that was up is all that may come after
  have hwait : l₂.IsWait ∧ (Calm l₂ → result = .ok .now → fleet.stopDelay.millis ≤ l₂.waited) := by
    match result, hrest with
    | .ok .now, hrest =>
      obtain ⟨l₃, l₄, waited, rfl, hwait, hlast⟩ := Program.yields_bind.mp hrest
      have hnothing : l₄ = [] := by
        cases waited with
        | ok _ => exact (Program.yields_run_pure.mp hlast).1
        | error _ => exact (Program.yields_pure.mp hlast).1
      rw [hnothing, List.append_nil]
      exact ⟨settle_isWait hwait, fun hcalm _ => settle_calm_waits hwait hcalm⟩
    | .ok .before, hrest =>
      obtain ⟨rfl, -⟩ := Program.yields_run_pure.mp hrest
      exact ⟨fun _ h => absurd h List.not_mem_nil, fun _ heq => by cases heq⟩
    | .error cause, hrest =>
      obtain ⟨rfl, -⟩ := Program.yields_pure.mp hrest
      exact ⟨fun _ h => absurd h List.not_mem_nil, fun _ heq => by cases heq⟩
  exact fleet.honours_stop he hwait.1 fun hcalm hstops => hwait.2 hcalm (haccepts hstops)

theorem stopOrGoOn_honours (masternode : Host) :
    Leaves fleet.Honours (fleet.stopOrGoOn masternode) := by
  intro l r h
  unfold stopOrGoOn at h
  rw [ExceptT.run_bind] at h
  obtain ⟨l₁, l₂, caught, rfl, hcaught, hrest⟩ := Program.yields_bind.mp h
  obtain ⟨result, hresult, rfl⟩ := yields_caught.mp hcaught
  obtain ⟨e, rfl, he, haccepts⟩ := expect_accepts hresult
  cases result with
  | ok reading =>
    exact fleet.honours_stop he (settle_isWait hrest) fun hcalm _ => settle_calm_waits hrest hcalm
  | error cause =>
    have hnothing : l₂ = [] := by
      dsimp only at hrest
      split at hrest
      · cases ‹Except.error _ = Except.ok _›
      · exact (Program.yields_run_pure.mp hrest).1
      · exact (Program.yields_run_throw.mp hrest).1
    rw [hnothing]
    refine fleet.honours_stop he (fun _ h => absurd h List.not_mem_nil) fun _ hstops => ?_
    obtain ⟨reading, heq⟩ := haccepts hstops
    cases heq

/-- What honours the waits does so in a session. -/
theorem withSession_honours {α : Type} {body : Program α} (h : Leaves fleet.Honours body) :
    Leaves fleet.Honours (withSession host body) := by
  refine leaves_withSession (fun _ => ?_) h ?_
  all_goals
    refine fleet.honours_idle (only_singleton.mpr ?_)
    exact fleet.isIdle_of_not_run fun _ _ => Request.noConfusion

theorem inSession_honours {α : Type} {step : Step α} (h : Leaves fleet.Honours step) :
    Leaves fleet.Honours (inSession host step) :=
  leaves_bind (fleet.withSession_honours (leaves_run.mpr h)) fun result => leaves_ofExcept result

theorem stopHost_honours (host : Host) : Leaves fleet.Honours (fleet.stopHost host) :=
  fleet.inSession_honours (fleet.stopSteps_honours host)

theorem writeConfigFile_idle (host : Host) (path contents : String) :
    Leaves (Only fleet.IsIdle) (writeConfigFile host fleet.daemon path contents) :=
  writeConfigFile_only (fleet.isIdle_run (by simp) (by simp))
    (fleet.isIdle_of_not_run fun _ _ => Request.noConfusion)

theorem startSteps_honours (wiped : Bool) (host : Host) :
    Leaves fleet.Honours (fleet.startSteps wiped host) := by
  have hwipe : Leaves (Only fleet.IsIdle) (fleet.wipe host) :=
    leaves_bind (expect_only (fleet.isIdle_run (by simp) (by simp))) fun _ => leaves_pure _
  have hgenerate : Leaves (Only fleet.IsIdle) (fleet.enableGeneration host) :=
    leaves_bind (expect_only (fleet.isIdle_run (by simp) (by simp))) fun _ => leaves_pure _
  have hstart : Leaves fleet.Honours (do
      fleet.startDaemon host
      if host.role = Role.main then fleet.enableGeneration host) := by
    refine leaves_bind (fleet.startDaemon_honours host) fun _ => ?_
    exact leaves_ite (fun _ => fleet.honours_of_idle hgenerate) fun _ => leaves_pure _
  have hconfigured : Leaves fleet.Honours (do
      if host.role ≠ Role.masternode then fleet.writeStakingConfig host
      fleet.startDaemon host
      if host.role = Role.main then fleet.enableGeneration host) := by
    refine leaves_ite (fun _ => leaves_bind ?_ fun _ => hstart) fun _ => hstart
    exact fleet.honours_of_idle (fleet.writeConfigFile_idle host _ _)
  exact leaves_ite (fun _ => leaves_bind (fleet.honours_of_idle hwipe) fun _ => hconfigured)
    fun _ => hconfigured

theorem startHost_honours (wiped : Bool) (host : Host) :
    Leaves fleet.Honours (fleet.startHost wiped host) :=
  fleet.inSession_honours (fleet.startSteps_honours wiped host)

theorem installMasternode_honours (staking : Host) (key : String) (masternode : Host) :
    Leaves fleet.Honours (fleet.installMasternode staking key masternode) := by
  refine fleet.inSession_honours (leaves_bind ?_ fun _ => ?_)
  · exact fleet.honours_of_idle (fleet.writeConfigFile_idle masternode _ _)
  · exact leaves_bind (fleet.stopOrGoOn_honours masternode) fun _ =>
      fleet.startDaemon_honours masternode

/-- A start whose failure is only noted, and the wait after it, which comes all the same. -/
theorem startNoted_honours {α : Type} {stage : String} {f : Unit → Conduct α}
    {change : Except FleetError Reading → Report → Report} (hf : ∀ u, Leaves fleet.Honours (f u)) :
    Leaves fleet.Honours (do
      let started ← Conduct.attempt (expect host (fleet.command .start) .start)
      Conduct.enter (change started)
      let u ← Conduct.need stage (settle fleet.startDelay)
      f u) := by
  intro before l r h
  obtain ⟨_, -, hnone⟩ | ⟨l₁, l₂, started, mid, rfl, hstart, hnext⟩ := Conduct.ends_bind_cases h
  · exact absurd hnone Conduct.not_ends_attempt_error
  obtain ⟨hsent, rfl⟩ := Conduct.ends_attempt_ok.mp hstart
  obtain ⟨e, rfl, he, -⟩ := expect_accepts hsent
  rw [Conduct.ends_enter_bind] at hnext
  obtain ⟨last, rfl, hwait⟩ | ⟨wait, l₃, u, mid', rfl, hwait, hrest⟩ :=
    Conduct.ends_bind_cases hnext
  · obtain ⟨cause, hwait, -⟩ := Conduct.ends_need_error.mp hwait
    exact fleet.honours_start he (settle_isWait hwait) fun hcalm _ => settle_calm_waits hwait hcalm
  · obtain ⟨hwait, -⟩ := Conduct.ends_need_ok.mp hwait
    have hstarted : fleet.Honours (e :: wait) :=
      fleet.honours_start he (settle_isWait hwait) fun hcalm _ => settle_calm_waits hwait hcalm
    have hall : fleet.Honours ((e :: wait) ++ l₃) :=
      Composes.append hstarted (hf u mid' l₃ r hrest)
    exact hall

theorem makeKey_honours (staking : Host) : Leaves fleet.Honours (fleet.makeKey staking) := by
  refine leaves_bind (Conduct.leaves_need ?_) fun _ => ?_
  · exact fleet.honours_of_idle (fleet.writeConfigFile_idle staking _ _)
  refine leaves_bind (Conduct.leaves_passed _ _ _) fun _ => fleet.startNoted_honours fun _ => ?_
  refine leaves_bind (Conduct.leaves_need (fleet.honours_of_idle ?_)) fun key => ?_
  · exact expectToken_only (fleet.isIdle_run (by simp) (by simp))
  · exact leaves_bind (Conduct.leaves_passed _ _ _) fun _ => leaves_pure _

theorem startMasternode_honours (masternode : Host) (key : String) :
    Leaves fleet.Honours (fleet.startMasternode masternode key) := by
  refine fleet.inSession_honours (leaves_bind ?_ fun _ => fleet.startDaemon_honours masternode)
  exact fleet.honours_of_idle (fleet.writeConfigFile_idle masternode _ _)

theorem stopStage_honours (hosts : List Host) : Leaves fleet.Honours (fleet.stopStage hosts) :=
  Conduct.leaves_eachHost fun host _ => fleet.stopHost_honours host

theorem startStage_honours (wiped : Bool) (hosts : List Host) :
    Leaves fleet.Honours (fleet.startStage wiped hosts) :=
  Conduct.leaves_eachHost fun host _ => fleet.startHost_honours wiped host

/-! ## The stages of a cold restart -/

theorem stopAll_honours : Leaves fleet.Honours fleet.stopAll := by
  refine leaves_bind (leaves_mapM fun host _ => ?_) fun results => ?_
  · refine leaves_bind (Conduct.leaves_attempt (fleet.stopHost_honours host)) fun _ => ?_
    exact leaves_bind (Conduct.leaves_enter _) fun _ => leaves_pure _
  · split
    · exact Conduct.leaves_abort _ _
    · exact leaves_pure _

theorem wipeAll_idle : Leaves (Only fleet.IsIdle) fleet.wipeAll := by
  refine leaves_forM fun host _ => leaves_bind (Conduct.leaves_need ?_) fun _ => ?_
  · exact fleet.wipe_leaves fleet.idle_sessions (fleet.isIdle_run (by simp) (by simp))
  · exact Conduct.leaves_passed _ _ _

theorem restartControl_honours : Leaves fleet.Honours fleet.restartControl := by
  refine leaves_ite (fun _ => ?_) fun _ => leaves_pure _
  refine leaves_bind (Conduct.leaves_need (fleet.stopHost_honours _)) fun _ => ?_
  refine leaves_bind (Conduct.leaves_need (fleet.startHost_honours _ _)) fun _ => ?_
  exact Conduct.leaves_passed _ _ _

/-- Asking for a word, with its entry. -/
theorem word_idle {α : Type} {stage : String} {task : Task} (hstart : task ≠ .start)
    (hstop : task ≠ .stop) {f : String → Conduct α} (hf : ∀ w, Leaves (Only fleet.IsIdle) (f w)) :
    Leaves (Only fleet.IsIdle)
      (Conduct.need stage (queryToken host (fleet.command task)) >>= f) :=
  leaves_bind (Conduct.leaves_need
    (fleet.idle_sessions.queryToken (fleet.isIdle_run hstart hstop))) hf

theorem provision_idle (amount : Amount) :
    Leaves (Only fleet.IsIdle) (fleet.provision amount) := by
  have hsend (address : String) :
      Leaves (Only fleet.IsIdle) (fleet.sendCollateral address amount) := by
    refine fleet.word_idle (by simp) (by simp) fun hash => ?_
    refine leaves_bind (Conduct.leaves_passed _ _ _) fun _ => ?_
    exact leaves_bind (Conduct.leaves_enter _) fun _ => leaves_pure _
  refine fleet.word_idle (by simp) (by simp) fun key => ?_
  refine leaves_bind (Conduct.leaves_passed _ _ _) fun _ => ?_
  refine fleet.word_idle (by simp) (by simp) fun address => ?_
  refine leaves_bind (Conduct.leaves_passed _ _ _) fun _ => ?_
  refine leaves_bind (hsend address) fun hash => leaves_bind (Conduct.leaves_need ?_) fun _ => ?_
  · exact fleet.awaitConfirmation_leaves fleet.idle_sessions
      (fleet.isIdle_run (by simp) (by simp)) hash
  · exact leaves_bind (Conduct.leaves_passed _ _ _) fun _ => leaves_pure _

theorem listMasternode_idle (masternode : Host) (amount : Amount) :
    Leaves (Only fleet.IsIdle) (fleet.listMasternode masternode amount) := by
  refine leaves_bind (fleet.provision_idle amount) fun (provisioning, hash, attempts) => ?_
  dsimp only
  split
  · exact Conduct.leaves_abort _ _
  · refine leaves_bind (Conduct.leaves_need ?_) fun _ => ?_
    · exact fleet.writeMasternodeList_leaves fleet.idle_sessions
        (fleet.isIdle_run (by simp) (by simp))
        (fleet.isIdle_of_not_run fun _ _ => Request.noConfusion)
    · exact leaves_bind (Conduct.leaves_passed _ _ _) fun _ => leaves_pure _

theorem startListed_honours (masternode : Host) (provisioning : Provisioning) :
    Leaves fleet.Honours (fleet.startListed masternode provisioning) := by
  have hquery {stage : String} {host : Host} {task : Task} (hstart : task ≠ .start)
      (hstop : task ≠ .stop) : Leaves fleet.Honours
        (Conduct.need stage (query host (fleet.command task) .startMasternode)) :=
    fleet.honours_of_idle (Conduct.leaves_need
      (fleet.idle_sessions.query (fleet.isIdle_run hstart hstop)))
  refine leaves_bind (Conduct.leaves_need (fleet.startMasternode_honours _ _)) fun _ => ?_
  refine leaves_bind (Conduct.leaves_passed _ _ _) fun _ => ?_
  refine leaves_bind (hquery (by simp) (by simp)) fun _ => ?_
  refine leaves_bind (Conduct.leaves_passed _ _ _) fun _ => ?_
  refine leaves_bind (hquery (by simp) (by simp)) fun _ => ?_
  exact Conduct.leaves_passed _ _ _

theorem coldStages_honours (wiped : Bool) (amount : Amount) (masternode : Host) :
    Leaves fleet.Honours (fleet.coldStages wiped amount masternode) := by
  have hmain : Leaves fleet.Honours (do
      Conduct.need "start-main" (fleet.startHost false fleet.roster.main)
      Conduct.passed "start-main" fleet.roster.main none
      Conduct.need "bootstrap-settle" (settle (.ofSeconds fleet.config.timing.bootstrapSettle))
      fleet.restartControl
      let provisioning ← fleet.listMasternode masternode amount
      fleet.startListed masternode provisioning) := by
    refine leaves_bind (Conduct.leaves_need (fleet.startHost_honours _ _)) fun _ => ?_
    refine leaves_bind (Conduct.leaves_passed _ _ _) fun _ => ?_
    refine leaves_bind (Conduct.leaves_need ?_) fun _ => ?_
    · exact fleet.honours_of_idle (fleet.idle_sessions.settle _)
    refine leaves_bind fleet.restartControl_honours fun _ => ?_
    refine leaves_bind (fleet.honours_of_idle (fleet.listMasternode_idle _ _)) fun _ => ?_
    exact fleet.startListed_honours _ _
  refine leaves_bind fleet.stopAll_honours fun _ => ?_
  exact leaves_ite (fun _ => leaves_bind (fleet.honours_of_idle fleet.wipeAll_idle) fun _ => hmain)
    fun _ => hmain

/-! ## Every procedure -/

/-- The procedures of the fleet, each on whatever hosts, addresses and sums; one that is refused
asks nothing. -/
inductive Undertakes : Program Report → Prop
  | refused (report : Report) : Undertakes (pure report)
  | sweep (hosts : List Host) : Undertakes (fleet.sweep hosts)
  | stop (hosts : List Host) : Undertakes (fleet.stopWallets hosts)
  | start (wiped : Bool) (hosts : List Host) : Undertakes (fleet.startWallets wiped hosts)
  | restart (wiped : Bool) : Undertakes (fleet.restartWallets wiped)
  | coldRestart (wiped : Bool) (requested? : Option Amount) :
    Undertakes (fleet.coldRestart wiped requested?)
  | writeStakingConfigs (hosts : List Host) : Undertakes (fleet.writeStakingConfigs hosts)
  | promote (staking? : Option Host) : Undertakes (fleet.promote staking?)
  | installBinaries (hosts : List Host) : Undertakes (fleet.installBinaries hosts)
  | transfer (hosts : List Host) (addresses : List String) (requested? : Option Amount) :
    Undertakes (fleet.transfer hosts addresses requested?)
  | awaitBalance (hosts : List Host) (requested? : Option Amount) :
    Undertakes (fleet.awaitBalance hosts requested?)
  | reboot (hosts : List Host) : Undertakes (fleet.reboot hosts)
  | openConsoles (hosts : List Host) : Undertakes (fleet.openConsoles hosts)

/-- An order calls for one of these procedures. -/
theorem program_undertakes (order : Order) : fleet.Undertakes (fleet.program order) := by
  have htargets {procedure : Procedure} {tokens : List String} {default : List Host}
      {run : List Host → Program Report} (h : ∀ hosts, fleet.Undertakes (run hosts)) :
      fleet.Undertakes (fleet.onTargets procedure tokens default run) := by
    unfold onTargets
    split
    · exact h _
    · exact .refused _
  cases order with
  | sweep targets => exact htargets .sweep
  | stop targets => exact htargets .stop
  | start targets wiped => exact htargets (.start wiped)
  | restart wiped => exact .restart wiped
  | coldRestart wiped amount? => exact .coldRestart wiped amount?
  | writeStakingConfigs targets => exact htargets .writeStakingConfigs
  | promote staking? =>
    cases staking? with
    | none => exact .promote none
    | some token => exact htargets fun hosts => .promote hosts.head?
  | installBinaries targets => exact htargets .installBinaries
  | transfer tokens amount? => exact .transfer _ _ _
  | awaitBalance targets amount? => exact htargets fun hosts => .awaitBalance hosts amount?
  | reboot targets => exact htargets .reboot
  | openConsoles targets => exact htargets .openConsoles

theorem sweep_idle (hosts : List Host) : Leaves (Only fleet.IsIdle) (fleet.sweep hosts) := by
  refine Conduct.leaves_conclude (fleet.sweepAll_leaves fleet.idle_sessions fun host _ r hr => ?_)
  refine fleet.isIdle_of_isOn hr fun command hc => ?_
  rcases hc with rfl | ⟨name, -, rfl⟩ | rfl | rfl | rfl
  all_goals exact ⟨_, rfl, by simp, by simp⟩

theorem writeStakingConfigs_idle (hosts : List Host) :
    Leaves (Only fleet.IsIdle) (fleet.writeStakingConfigs hosts) := by
  refine Conduct.leaves_conclude (Conduct.leaves_eachHost fun host _ => ?_)
  refine fleet.configureHost_leaves fleet.idle_sessions fun r hr => ?_
  exact fleet.isIdle_of_isOn hr fun command hc => ⟨_, hc, by simp, by simp⟩

theorem installBinaries_idle (hosts : List Host) :
    Leaves (Only fleet.IsIdle) (fleet.installBinaries hosts) := by
  refine fleet.installBinaries_leaves fleet.idle_sessions fun host _ binaries _ r hr => ?_
  refine fleet.isIdle_of_isOn hr ?_
  rintro command ⟨b, -, rfl⟩
  exact ⟨_, rfl, by simp, by simp⟩

theorem transfer_idle (hosts : List Host) (addresses : List String) (requested? : Option Amount) :
    Leaves (Only fleet.IsIdle) (fleet.transfer hosts addresses requested?) := by
  refine fleet.transfer_leaves fleet.idle_sessions (fun host _ => ?_) ?_
  · exact fleet.isIdle_run (by simp) (by simp)
  · intro amount destinations r hr
    refine fleet.isIdle_of_isOn hr ?_
    rintro command ⟨d, -, rfl⟩
    exact ⟨_, rfl, by simp, by simp⟩

theorem promote_honours (staking? : Option Host) :
    Leaves fleet.Honours (fleet.promote staking?) := by
  have hrest (staking : Host) : Leaves fleet.Honours (do
      let key ← Conduct.inSession "connect-staking" staking (fleet.makeKey staking)
      Conduct.eachHost "restart-masternode" fleet.masternodes
        (fleet.installMasternode staking key) fun _ => none) := by
    refine leaves_bind (Conduct.leaves_inSession fun begun => ?_) fun key => ?_
    · exact fleet.withSession_honours (fleet.makeKey_honours staking begun)
    · exact Conduct.leaves_eachHost fun host _ => fleet.installMasternode_honours _ _ host
  refine Conduct.leaves_conclude ?_
  refine leaves_ite (fun _ => leaves_bind (Conduct.leaves_abort _ _) fun _ => ?_) fun _ => ?_
  all_goals exact hrest _

theorem reboot_honours (hosts : List Host) : Leaves fleet.Honours (fleet.reboot hosts) := by
  refine Conduct.leaves_conclude (leaves_bind ?_ fun told => ?_)
  · refine fleet.honours_of_idle (fleet.rebootAll_leaves fleet.idle_sessions fun host _ r hr => ?_)
    exact fleet.isIdle_of_isOn hr fun command hc => ⟨_, hc, by simp, by simp⟩
  · refine leaves_ite (fun _ => leaves_pure _) fun _ => leaves_bind (Conduct.leaves_need ?_) ?_
    · exact fleet.honours_of_idle (fleet.idle_sessions.settle _)
    · exact fun _ => Conduct.leaves_eachHost fun host _ =>
        fleet.inSession_honours (fleet.startDaemon_honours host)

theorem coldRestart_honours (wiped : Bool) (requested? : Option Amount) :
    Leaves fleet.Honours (fleet.coldRestart wiped requested?) := by
  refine Conduct.leaves_conclude ?_
  refine leaves_bind (Conduct.leaves_need (leaves_ofExcept _)) fun amount => ?_
  split
  · exact Conduct.leaves_abort _ _
  · exact fleet.coldStages_honours wiped amount _

/-- Whatever the procedure, it waits after every accepted start and after every accepted stop. -/
theorem undertaking_honours {p : Program Report} (h : fleet.Undertakes p) :
    Leaves fleet.Honours p := by
  -- an idle procedure starts and stops nothing, so there is nothing to wait for
  cases h with
  | refused report => exact leaves_pure _
  | sweep hosts => exact fleet.honours_of_idle (fleet.sweep_idle hosts)
  | stop hosts => exact Conduct.leaves_conclude (fleet.stopStage_honours hosts)
  | start wiped hosts => exact Conduct.leaves_conclude (fleet.startStage_honours wiped hosts)
  | restart wiped =>
    exact Conduct.leaves_conclude (leaves_bind (fleet.stopStage_honours _) fun _ =>
      fleet.startStage_honours wiped _)
  | coldRestart wiped requested? => exact fleet.coldRestart_honours wiped requested?
  | writeStakingConfigs hosts =>
    exact fleet.honours_of_idle (fleet.writeStakingConfigs_idle hosts)
  | promote staking? => exact fleet.promote_honours staking?
  | installBinaries hosts => exact fleet.honours_of_idle (fleet.installBinaries_idle hosts)
  | transfer hosts addresses requested? =>
    exact fleet.honours_of_idle (fleet.transfer_idle hosts addresses requested?)
  | awaitBalance hosts requested? =>
    exact fleet.honours_of_idle (fleet.awaitBalance_leaves fleet.idle_sessions fun _ _ =>
      fleet.isIdle_run (by simp) (by simp))
  | reboot hosts => exact fleet.reboot_honours hosts
  | openConsoles hosts =>
    exact fleet.honours_of_idle (fleet.openConsoles_leaves fleet.idle_sessions hosts)

end Fleet

end NodeFleet
