import Mathlib.Data.List.Forall2
import NodeFleet.Proofs.Delays
import NodeFleet.Proofs.Namesakes
import NodeFleet.Proofs.Restarting

/-!
# NodeFleet.Proofs.Phases — procedures of two phases, and what stands between them

A restart stops every host before it touches any; a reboot tells every host before it waits, and
waits before it starts the daemon of any.  In both, a phase goes through its hosts in their order,
each at most once, and only a cancellation cuts it short.

* `Visits.connections`, `Visits.segments`: visits that connect once each, and their logs.
* `Conduct.eachHost_visits`: a loop over hosts, with what it enters when it is not cut short.
* `Fleet.RestartPhases`, `restartWallets_phases`: restarts.
* `Fleet.Telling`, `rebootAll_tells`: the first phase of a reboot, and which hosts it hands on.
* `Fleet.RebootPhases`, `reboot_phases`: reboots.
* `Fleet.phases_keep_barrier`: both, with hosts as orders select them.
-/

namespace NodeFleet

/-- The host that a request is sent to, in a session or to open or close one. -/
def Request.host? : Request → Option Host
  | .connect host | .run host _ | .write host _ _ | .close host => some host
  | _ => none

theorem Request.host?_of_concerns {host other : Host} {r : Request} (h : r.Concerns host)
    (hother : r.host? = some other) : other = host := by
  cases r with
  | connect _ | run _ _ | write _ _ _ | close _ =>
    cases hother
    exact h
  | _ => cases hother

theorem outcomeOf_ok {name address : String} {result : Except FleetError Unit} :
    (Report.outcomeOf name address result).ok = true ↔ result = .ok () := by
  cases result with
  | ok _ => simp [Report.outcomeOf]
  | error _ => simp [Report.outcomeOf]

/-! ## Visits -/

section Visiting

variable {α : Type} {step : Host → Step α} {visits : List (Host × Except FleetError α)} {l : Log}
  {host : Host}

/-- A step in a session of its own connects once. -/
theorem inSession_connections {step : Step α} {asks : Request → Prop} {r : Except FleetError α}
    (honly : Leaves (Only asks) step) (hnone : ∀ r, asks r → ¬ r.Connects)
    (h : (inSession host step).run.Yields l r) : l.connections = [host] := by
  obtain ⟨cause, rfl, -⟩ | ⟨inner, rfl, hinner⟩ := inSession_cases h
  · rfl
  · exact connections_session fun e he => hnone _ (honly inner r hinner e he)

/-- Visits that connect once each connect to the hosts in their order. -/
theorem Visits.connections (h : Visits step visits l)
    (hone : ∀ host l r, (step host).run.Yields l r → l.connections = [host]) :
    l.connections = visits.map Prod.fst := by
  induction h with
  | nil => rfl
  | cons hv _ ih =>
    rw [connections_append, hone _ _ _ hv, ih]
    rfl

/-- The log of visits falls into the logs of the visits. -/
theorem Visits.segments (h : Visits step visits l) :
    ∃ logs : List Log, l = logs.flatten ∧
      List.Forall₂ (fun v log => (step v.1).run.Yields log v.2) visits logs := by
  induction h with
  | nil => exact ⟨[], rfl, .nil⟩
  | @cons _ _ _ l₁ _ hv _ ih =>
    obtain ⟨logs, rfl, hall⟩ := ih
    exact ⟨l₁ :: logs, rfl, .cons hv hall⟩

/-- As long as the operator does not cancel, no visit is cancelled. -/
theorem Visits.uncancelled (h : Visits step visits l) (hcalm : Calm l)
    (hstep : ∀ host, Uncancelled (step host)) : ∀ v ∈ visits, wasCancelled v.2 = false := by
  rintro ⟨host, result⟩ hv
  obtain ⟨l₁, l₂, l₃, rfl, hvisit⟩ := h.of_mem hv
  have hquiet : Calm l₂ := (calm_append.mp (calm_append.mp hcalm).2).1
  match result with
  | .ok _ => rfl
  | .error e =>
    by_cases he : e = .cancelled
    · subst he
      exact absurd hvisit (hstep host l₂ hquiet)
    · cases e with
      | cancelled => exact absurd rfl he
      | _ => rfl

/-- Visits that cover hosts go through them in their order, -/
theorem Covers.prefix {hosts : List Host} (h : Covers hosts visits) :
    visits.map Prod.fst <+: hosts := by
  obtain ⟨rfl, -⟩ | ⟨before, last, after, rfl, rfl, -⟩ := h
  · exact List.prefix_rfl
  · exact ⟨after, by simp⟩

/-- and to their end if none was cancelled. -/
theorem Covers.all {hosts : List Host} (h : Covers hosts visits)
    (hnone : ∀ v ∈ visits, wasCancelled v.2 = false) : visits.map Prod.fst = hosts := by
  obtain ⟨hall, -⟩ | ⟨before, last, after, rfl, -, -, hcut⟩ := h
  · exact hall.symm
  · have hlast := hnone last (List.mem_append_right before List.mem_cons_self)
    rw [hcut] at hlast
    cases hlast

/-- A loop over hosts goes through them in their order; as long as the operator does not cancel it
goes through all of them, and enters what came of it. -/
theorem Conduct.eachHost_visits {stage : String} {hosts : List Host} {detail : α → Option String}
    {before : Report} {r : Except Report (Unit × Report)}
    (hstep : ∀ host, Uncancelled (step host))
    (h : (eachHost stage hosts step detail).Ends before l r) :
    ∃ visits, Visits step visits l ∧ visits.map Prod.fst <+: hosts ∧
      (Calm l → visits.map Prod.fst = hosts ∧
        (finalReport r).hosts = before.hosts ++ outcomes visits) := by
  obtain ⟨visits, after, hv, rfl, -, rfl, -, hhosts⟩ |
    ⟨done, host, result, rest, final, hv, rfl, -, hcut, -⟩ := eachHost_outcomes h
  · exact ⟨visits, hv, List.prefix_rfl, fun _ => ⟨rfl, hhosts⟩⟩
  · refine ⟨_, hv, ⟨rest, by simp⟩, fun hcalm => ?_⟩
    have hnone := hv.uncancelled hcalm hstep (host, result) (by simp)
    rw [hcut] at hnone
    cases hnone

end Visiting

namespace Fleet

variable (fleet : Fleet) {l : Log}

/-! ## Restarts -/

/-- The two phases of a restart.  Every session of the first is a stop, and every session of the
second a start; each phase goes through all hosts in their order, and only a cancellation cuts it
short; in the first phase a host that is reached is told to stop before anything else, and nothing
is touched; nothing comes after a first phase that was cut short. -/
structure RestartPhases (wiped : Bool) (first second : Log) : Prop where
  stops : ∃ visits, Visits fleet.stopHost visits first
  starts : ∃ visits, Visits (fleet.startHost wiped) visits second
  told : ∀ before host after, first = before ++ ⟨.connect host, .ok ()⟩ :: after →
    ∃ answer rest, after = ⟨.run host (fleet.command .stop), answer⟩ :: rest
  untouched : Only (fun r => ∀ host, ¬ r.Touches fleet.daemon host) first
  first_order : first.connections <+: fleet.roster.all
  second_order : second.connections <+: fleet.roster.all
  barrier : second = [] ∨ first.connections = fleet.roster.all
  complete : Calm (first ++ second) →
    first.connections = fleet.roster.all ∧ second.connections = fleet.roster.all

theorem stopHost_connections {host : Host} {r : Except FleetError Stopped}
    (h : (fleet.stopHost host).run.Yields l r) : l.connections = [host] :=
  inSession_connections (fleet.stopSteps_only host) (fun _ => Request.IsOn.not_connects) h

theorem startHost_connections {wiped : Bool} {host : Host} {r : Except FleetError Unit}
    (h : (fleet.startHost wiped host).run.Yields l r) : l.connections = [host] :=
  inSession_connections (fleet.startSteps_only host wiped) (fun _ => Request.IsOn.not_connects) h

/-- A restart has two phases. -/
theorem restartWallets_phases {wiped : Bool} {report : Report}
    (h : (fleet.restartWallets wiped).Yields l report) :
    ∃ first second, l = first ++ second ∧ fleet.RestartPhases wiped first second := by
  obtain ⟨stops, starts, first, second, rfl, hstops, hstarts, hcovers, hnext⟩ :=
    fleet.restartWallets_visits h
  have hfirst := hstops.connections fun _ _ _ => fleet.stopHost_connections
  have hsecond := hstarts.connections fun _ _ _ => fleet.startHost_connections
  refine ⟨first, second, rfl, ⟨stops, hstops⟩, ⟨starts, hstarts⟩, ?_, ?_, ?_, ?_, ?_, ?_⟩
  -- what follows an open session in the first phase is the order to stop
  · intro before host after hl
    obtain ⟨-, _, _, -, _, l₂, l₃, l₄, -, -, rfl, -, hvisit, -⟩ := hstops.split hl
    obtain ⟨answer, rest, rfl⟩ := fleet.stopHost_opens hvisit
    exact ⟨answer, rest ++ l₄, rfl⟩
  · exact fun e he host => fleet.stops_not_touching hstops e he
  · exact hfirst ▸ hcovers.prefix
  · rw [hsecond]
    split at hnext
    · exact hnext.prefix
    · rw [hnext]
      exact List.nil_prefix
  · split at hnext
    · rename_i hnone
      exact .inr (hfirst.trans (hcovers.all hnone))
    · subst hnext
      cases hstarts
      exact .inl rfl
  · intro hcalm
    obtain ⟨hcalm₁, hcalm₂⟩ := calm_append.mp hcalm
    have hnone := hstops.uncancelled hcalm₁ fleet.stopHost_uncancelled
    rw [if_pos hnone] at hnext
    have hnone' := hstarts.uncancelled hcalm₂ fun host => fleet.startHost_uncancelled host wiped
    exact ⟨hfirst.trans (hcovers.all hnone), hsecond.trans (hnext.all hnone')⟩

/-! ## The first phase of a reboot -/

/-- A host that was to be told to reboot, with the failure of its connection, or with what came of
the command; a session that breaks is as good as an answer. -/
abbrev Telling : Type := Host × Except RemoteError (Except RemoteError Reply)

namespace Telling

/-- The host, if its connection did not fail. -/
def told? : Telling → Option Host
  | (host, .ok _) => some host
  | (_, .error _) => none

/-- The result of a host whose connection failed. -/
def outcome? : Telling → Option HostOutcome
  | (_, .ok _) => none
  | (host, .error cause) =>
    some (Report.outcomeOf host.name host.address
      (.error (.connectFailure host.name cause) : Except FleetError Unit))

end Telling

/-- What is asked of a host that is to be told to reboot. -/
def tellLog : Telling → Log
  | (host, .error cause) => Log.refused host cause
  | (host, .ok answer) =>
    Log.session host [⟨.run host (fleet.command fleet.rebootTask), answer⟩]

/-- A host is told to reboot when its session is opened; what then comes of it does not matter. -/
theorem rebootHost_cases {host : Host} {r : Except FleetError Unit}
    (h : (fleet.rebootHost host).run.Yields l r) :
    (∃ cause, l = fleet.tellLog (host, .error cause) ∧
        r = .error (.connectFailure host.name cause)) ∨
      ∃ answer, l = fleet.tellLog (host, .ok answer) ∧ r = .ok () := by
  obtain ⟨cause, rfl, rfl⟩ | ⟨inner, rfl, hinner⟩ := inSession_cases h
  · exact .inl ⟨cause, rfl, rfl⟩
  · rw [ExceptT.run_bind] at hinner
    obtain ⟨l₁, l₂, _, rfl, hasked, hrest⟩ := Program.yields_bind.mp hinner
    obtain ⟨result, hsent, rfl⟩ := yields_caught.mp hasked
    obtain ⟨answer, rfl, rfl⟩ := yields_exchange.mp hsent
    have hend : l₂ = [] ∧ r = .ok () := by
      cases answer with
      | ok _ => exact Program.yields_run_pure.mp hrest
      | error _ => exact Program.yields_run_pure.mp hrest
    obtain ⟨rfl, rfl⟩ := hend
    exact .inr ⟨answer, rfl, rfl⟩

/-- One host of the first phase is handed on, or has its result. -/
theorem tell_ends {host : Host} {before : Report} {r : Except Report (List Host × Report)}
    (h : (fleet.tell host).Ends before l r) :
    ∃ (telling : Telling) (after : Report), telling.1 = host ∧ l = fleet.tellLog telling ∧
      r = .ok (telling.told?.toList, after) ∧
      after.hosts = before.hosts ++ telling.outcome?.toList ∧ after.outcome = before.outcome := by
  obtain ⟨_, -, hnone⟩ | ⟨l₁, l₂, result, _, rfl, htold, hnext⟩ := Conduct.ends_bind_cases h
  · exact absurd hnone Conduct.not_ends_attempt_error
  obtain ⟨hattempt, rfl⟩ := Conduct.ends_attempt_ok.mp htold
  obtain ⟨cause, rfl, rfl⟩ | ⟨answer, rfl, rfl⟩ := fleet.rebootHost_cases hattempt
  · -- the failure is entered
    obtain ⟨rfl, rfl⟩ : l₂ = [] ∧ r = _ := hnext
    exact ⟨(host, .error cause), _, rfl, List.append_nil _, rfl, rfl, rfl⟩
  · obtain ⟨rfl, rfl⟩ : l₂ = [] ∧ r = _ := hnext
    exact ⟨(host, .ok answer), _, rfl, List.append_nil _, rfl, (List.append_nil _).symm, rfl⟩

/-- The first phase of a reboot: the hosts are told in their order, those that were told are handed
on, and the others have their results. -/
theorem rebootAll_tells {hosts : List Host} {before : Report}
    {r : Except Report (List Host × Report)} (h : (fleet.rebootAll hosts).Ends before l r) :
    ∃ (tellings : List Telling) (after : Report), tellings.map Prod.fst = hosts ∧
      l = tellings.flatMap fleet.tellLog ∧ r = .ok (tellings.filterMap Telling.told?, after) ∧
      after.hosts = before.hosts ++ tellings.filterMap Telling.outcome? ∧
      after.outcome = before.outcome := by
  -- host by host; telling one never ends the phase
  induction hosts generalizing before l r with
  | nil =>
    obtain ⟨rfl, rfl⟩ := Conduct.ends_pure.mp h
    exact ⟨[], before, rfl, rfl, rfl, (List.append_nil _).symm, rfl⟩
  | cons host rest ih =>
    rw [fleet.rebootAll_cons] at h
    obtain ⟨_, -, htold⟩ | ⟨l₁, l₂, _, _, rfl, htold, h⟩ := Conduct.ends_bind_cases h
    · obtain ⟨_, _, -, -, heq, -⟩ := fleet.tell_ends htold
      cases heq
    obtain ⟨telling, mid, rfl, rfl, heq, hfirst, hgoes⟩ := fleet.tell_ends htold
    cases heq
    obtain ⟨_, -, hothers⟩ | ⟨l₃, l₄, _, _, rfl, hothers, hlast⟩ := Conduct.ends_bind_cases h
    · obtain ⟨_, _, -, -, heq, -⟩ := ih hothers
      cases heq
    obtain ⟨tellings, after, rfl, rfl, heq, hhosts, hgoes'⟩ := ih hothers
    cases heq
    obtain ⟨rfl, rfl⟩ := Conduct.ends_pure.mp hlast
    refine ⟨telling :: tellings, _, rfl, ?_, ?_, ?_, hgoes'.trans hgoes⟩
    · rw [List.append_nil]
      rfl
    · rw [List.filterMap_cons]
      cases telling.told? <;> rfl
    · rw [hhosts, hfirst, List.append_assoc, List.filterMap_cons]
      cases telling.outcome? <;> rfl

/-! ## The second phase of a reboot -/

/-- Starting the daemon of a host again: it is connected to once, no other host is asked anything,
and as long as the operator does not cancel it counts as started exactly when its session is opened
and the start is accepted. -/
structure StartedAgain (host : Host) (result : Except FleetError Unit) (log : Log) : Prop where
  connects : log.connections = [host]
  stays : ∀ e ∈ log, ∀ other, e.request.host? = some other → other = host
  idle : Only (fun r => ¬ fleet.Calls fleet.rebootTask r) log
  ok_iff : Calm log → ((Report.outcomeOf host.name host.address result).ok = true ↔
    (⟨.connect host, .ok ()⟩ : Event) ∈ log ∧ ∃ e ∈ log, fleet.AcceptsStart host e)

/-- A daemon is started when its command is accepted, unless the operator cancels the wait. -/
theorem startDaemon_ok_iff {host : Host} {r : Except FleetError Unit} (hcalm : Calm l)
    (h : (fleet.startDaemon host).run.Yields l r) :
    r = .ok () ↔ ∃ e ∈ l, fleet.AcceptsStart host e := by
  unfold startDaemon at h
  rw [ExceptT.run_bind] at h
  obtain ⟨l₁, l₂, result, rfl, hsent, hrest⟩ := Program.yields_bind.mp h
  -- an accepted start is waited for, and without a cancellation the wait ends well
  cases result with
  | ok reading =>
    obtain ⟨reply, rfl, rfl, haccepted⟩ := yields_expect_ok.mp hsent
    have hwaited := settle_calm (calm_append.mp hcalm).2 hrest
    exact ⟨fun _ => ⟨_, List.mem_append_left l₂ List.mem_cons_self, rfl, rfl, haccepted⟩,
      fun _ => hwaited⟩
  | error e =>
    obtain ⟨rfl, rfl⟩ := Program.yields_pure.mp hrest
    refine iff_of_false (by simp) ?_
    rintro ⟨e', he', haccepts⟩
    rw [List.append_nil] at he'
    obtain ⟨cause, rfl, -⟩ | ⟨reply, reason, rfl, hrefused, -⟩ := yields_expect_error.mp hsent
    · obtain rfl := List.mem_singleton.mp he'
      exact haccepts
    · obtain rfl := List.mem_singleton.mp he'
      obtain ⟨-, -, hnone⟩ := haccepts
      rw [hrefused] at hnone
      cases hnone

theorem startAgain_started {host : Host} {r : Except FleetError Unit}
    (h : (fleet.startAgain host).run.Yields l r) : fleet.StartedAgain host r l where
  connects :=
    inSession_connections (fleet.startDaemon_only host) (fun _ => Request.IsOn.not_connects) h
  stays e he other hother := by
    have hconcerns := (inSession_only (fleet.startDaemon_only host) l r h e he).concerns
    exact Request.host?_of_concerns hconcerns hother
  idle := by
    refine
      fleet.startAgain_leaves (fleet.not_calls_sessions fleet.rebootTask) (fun r hr => ?_) l r h
    exact fleet.not_calls_of_isOn hr fun command hc => ⟨_, hc, by simp [rebootTask]⟩
  ok_iff hcalm := by
    obtain ⟨cause, rfl, rfl⟩ | ⟨inner, rfl, hinner⟩ := inSession_cases h
    · refine iff_of_false (by simp [Report.outcomeOf]) ?_
      rintro ⟨hopened, -⟩
      cases List.mem_singleton.mp hopened
    · have hok := fleet.startDaemon_ok_iff (calm_session.mp hcalm) hinner
      rw [outcomeOf_ok, hok]
      constructor
      · rintro ⟨e, he, haccepts⟩
        exact ⟨List.mem_cons_self, e, mem_session.mpr (.inr (.inl he)), haccepts⟩
      · rintro ⟨-, e, he, haccepts⟩
        rcases mem_session.mp he with rfl | he | rfl
        · exact absurd haccepts id
        · exact ⟨e, he, haccepts⟩
        · exact absurd haccepts id

/-- The two phases of a reboot, with a wait in between.  In the first, each host is told to reboot,
in order, unless its connection fails; in the second the daemons of those that were told are
started, in their order, and only a cancellation cuts that short; the results are those of the hosts
that could not be told, and then those of the others. -/
structure RebootPhases (hosts : List Host) (l : Log) (report : Report) (tellings : List Telling)
    (wait : Log) (starts : List (Host × Except FleetError Unit)) (logs : List Log) : Prop where
  log_eq : l = tellings.flatMap fleet.tellLog ++ (wait ++ logs.flatten)
  tells : tellings.map Prod.fst = hosts
  waits : wait.IsWait
  waits_out : starts = [] ∨
    Duration.millis (.ofSeconds fleet.config.timing.rebootSettle) ≤ wait.waited
  started : List.Forall₂ (fun start log => fleet.StartedAgain start.1 start.2 log) starts logs
  order : starts.map Prod.fst <+: tellings.filterMap Telling.told?
  complete : Calm l → starts.map Prod.fst = tellings.filterMap Telling.told? ∧
    report.hosts = tellings.filterMap Telling.outcome? ++ Conduct.outcomes starts

/-- A reboot has two phases. -/
theorem reboot_phases {hosts : List Host} {report : Report}
    (h : (fleet.reboot hosts).Yields l report) :
    ∃ tellings wait starts logs, fleet.RebootPhases hosts l report tellings wait starts logs := by
  obtain ⟨r, hends, rfl⟩ := Conduct.conclude_ends h
  obtain ⟨_, -, htells⟩ | ⟨l₁, l₂, told, mid, rfl, htells, hrest⟩ := Conduct.ends_bind_cases hends
  · obtain ⟨_, _, -, -, heq, -⟩ := fleet.rebootAll_tells htells
    cases heq
  obtain ⟨tellings, _, htold, rfl, heq, hhosts, -⟩ := fleet.rebootAll_tells htells
  cases heq
  split at hrest
  · -- nobody was told, and nothing more is asked
    rename_i hnone
    obtain ⟨rfl, rfl⟩ := Conduct.ends_pure.mp hrest
    have hempty : tellings.filterMap Telling.told? = [] := List.isEmpty_iff.mp hnone
    refine ⟨tellings, [], [], [], rfl, htold, fun _ h => absurd h List.not_mem_nil, .inl rfl, .nil,
      ?_, fun _ => ⟨?_, ?_⟩⟩
    · exact List.nil_prefix
    · exact hempty.symm
    · exact hhosts.trans (List.append_nil _).symm
  · obtain ⟨last, rfl, hwait⟩ | ⟨wait, l₃, _, _, rfl, hwait, hstarts⟩ :=
      Conduct.ends_bind_cases hrest
    · -- the wait was cut short
      obtain ⟨e, hwait, -⟩ := Conduct.ends_need_error.mp hwait
      refine ⟨tellings, l₂, [], [], ?_, htold, settle_isWait hwait, .inl rfl, .nil, ?_, ?_⟩
      · rw [List.flatten_nil, List.append_nil]
      · exact List.nil_prefix
      · exact fun hcalm => nomatch settle_calm (calm_append.mp hcalm).2 hwait
    · obtain ⟨hwaited, rfl⟩ := Conduct.ends_need_ok.mp hwait
      obtain ⟨starts, hv, horder, hall⟩ :=
        Conduct.eachHost_visits fleet.startAgain_uncancelled hstarts
      obtain ⟨logs, rfl, hlogs⟩ := hv.segments
      refine ⟨tellings, wait, starts, logs, rfl, htold, settle_isWait hwaited,
        .inr (settle_waits hwaited).2, ?_, horder, fun hcalm => ?_⟩
      · exact hlogs.imp fun start log => fleet.startAgain_started
      · obtain ⟨hstarted, hresults⟩ := hall (calm_append.mp (calm_append.mp hcalm).2).2
        exact ⟨hstarted, hresults.trans (congrArg (· ++ _) hhosts)⟩

/-! ## What stands before a phase, and what does not come after -/

variable {fleet} {hosts : List Host} {report : Report} {tellings : List Telling} {wait : Log}
  {starts : List (Host × Except FleetError Unit)} {logs : List Log} {before after : Log} {e : Event}

/-- A host is touched only after the whole first phase, in which every host was attempted. -/
theorem RestartPhases.touches_late {wiped : Bool} {first second : Log} {host : Host}
    (h : fleet.RestartPhases wiped first second) (hl : first ++ second = before ++ e :: after)
    (htouches : e.request.Touches fleet.daemon host) :
    first <+: before ∧ first.connections = fleet.roster.all := by
  refine ⟨h.untouched.prefix_before (fun hnone => hnone host htouches) hl, ?_⟩
  obtain rfl | hall := h.barrier
  · rw [List.append_nil] at hl
    exact absurd htouches (h.untouched e (by simp [hl]) host)
  · exact hall

theorem host?_of_mem_tellLog {telling : Telling} (he : e ∈ fleet.tellLog telling) :
    e.request.host? = some telling.1 := by
  obtain ⟨host, cause | answer⟩ := telling
  · obtain rfl := List.mem_singleton.mp he
    rfl
  · rcases mem_session.mp he with rfl | he | rfl
    · rfl
    · obtain rfl := List.mem_singleton.mp he
      rfl
    · rfl

theorem tells_connections (tellings : List Telling) :
    Log.connections (tellings.flatMap fleet.tellLog) = tellings.map Prod.fst := by
  induction tellings with
  | nil => rfl
  | cons telling rest ih =>
    rw [List.flatMap_cons, connections_append, ih]
    obtain ⟨host, cause | answer⟩ := telling
    · rfl
    · rfl

/-- A connection of the first phase that failed is all that was asked of its host in that turn. -/
theorem tells_refused {host : Host} {cause : RemoteError}
    (hl : tellings.flatMap fleet.tellLog = before ++ ⟨.connect host, .error cause⟩ :: after) :
    ∃ early rest, tellings = early ++ (host, .error cause) :: rest ∧
      after = rest.flatMap fleet.tellLog := by
  induction tellings generalizing before with
  | nil => exact absurd hl.symm (by simp)
  | cons telling rest ih =>
    rw [List.flatMap_cons] at hl
    obtain ⟨mid, rfl, hrest⟩ | ⟨inner, hturn, rfl⟩ := split_append hl
    · obtain ⟨early, late, rfl, rfl⟩ := ih hrest
      exact ⟨telling :: early, late, rfl, rfl⟩
    · obtain ⟨other, cause' | answer⟩ := telling
      · obtain ⟨rfl, heq⟩ | ⟨_, -, hnone⟩ := List.cons_eq_append_iff.mp hturn
        · cases heq
          exact ⟨[], rest, rfl, rfl⟩
        · exact absurd hnone (by simp)
      · -- in a session no connection fails
        have hmem : (⟨.connect host, .error cause⟩ : Event) ∈
            fleet.tellLog (other, .ok answer) := by rw [hturn]; simp
        rcases mem_session.mp hmem with heq | hm | heq
        · cases heq
        · cases List.mem_singleton.mp hm
        · cases heq

/-- Hosts of which daemons are started again have been told to reboot. -/
theorem mem_of_told {host : Host} (h : host ∈ tellings.filterMap Telling.told?) :
    ∃ answer, (host, .ok answer) ∈ tellings := by
  obtain ⟨⟨other, cause | answer⟩, hm, htold⟩ := List.mem_filterMap.mp h
  · cases htold
  · cases htold
    exact ⟨answer, hm⟩

theorem started_hosts
    (h : List.Forall₂ (fun start log => fleet.StartedAgain start.1 start.2 log) starts logs)
    (he : e ∈ logs.flatten) {host : Host} (hhost : e.request.host? = some host) :
    host ∈ starts.map Prod.fst := by
  induction h with
  | nil => exact absurd he List.not_mem_nil
  | cons hone _ ih =>
    rcases List.mem_append.mp he with he | he
    · exact List.mem_cons.mpr (.inl (hone.stays e he host hhost))
    · exact List.mem_cons_of_mem _ (ih he)

namespace RebootPhases

variable {l : Log} (h : fleet.RebootPhases hosts l report tellings wait starts logs)
include h

/-- A daemon is started only after all hosts have had their turn, and after the wait. -/
theorem starts_late (hl : l = before ++ e :: after) (hstart : fleet.Calls .start e.request) :
    tellings.flatMap fleet.tellLog ++ wait <+: before := by
  have hidle : Only (fun r => ¬ fleet.Calls .start r) (tellings.flatMap fleet.tellLog ++ wait) := by
    refine Composes.append (P := Only _) (fun e he => ?_) fun e he => ?_
    · obtain ⟨⟨host, cause | answer⟩, -, he⟩ := List.mem_flatMap.mp he
      · obtain rfl := List.mem_singleton.mp he
        exact fleet.not_calls_of_not_run fun _ _ => Request.noConfusion
      · rcases mem_session.mp he with rfl | he | rfl
        · exact fleet.not_calls_of_not_run fun _ _ => Request.noConfusion
        · obtain rfl := List.mem_singleton.mp he
          rintro ⟨_, heq⟩
          cases heq
        · exact fleet.not_calls_of_not_run fun _ _ => Request.noConfusion
    · rintro ⟨_, hrun⟩
      exact h.waits e he (hrun ▸ trivial)
  have hsplit : tellings.flatMap fleet.tellLog ++ wait ++ logs.flatten = before ++ e :: after := by
    rw [List.append_assoc, ← h.log_eq, hl]
  exact hidle.prefix_before (not_not.mpr hstart) hsplit

/-- What is asked of a host after the wait is asked of one that was told to reboot. -/
theorem told_of_started (he : e ∈ wait ++ logs.flatten) {host : Host}
    (hhost : e.request.host? = some host) : ∃ answer, (host, .ok answer) ∈ tellings := by
  rcases List.mem_append.mp he with he | he
  · have hwait := h.waits e he
    cases hr : e.request with
    | cancelled => cases hr ▸ hhost
    | sleep _ => cases hr ▸ hhost
    | _ => exact absurd (hr ▸ trivial) hwait
  · exact mem_of_told (h.order.subset (started_hosts h.started he hhost))

/-- A host whose first connection failed is asked nothing more, if it is meant once. -/
theorem refused_once (hnodup : hosts.Nodup) {host : Host} {cause : RemoteError}
    (hl : l = before ++ ⟨.connect host, .error cause⟩ :: after)
    (hfirst : host ∉ before.connections) : ∀ e ∈ after, e.request.host? ≠ some host := by
  have hunique : (tellings.map Prod.fst).Nodup := h.tells.symm ▸ hnodup
  rw [h.log_eq] at hl
  obtain ⟨mid, rfl, hlate⟩ | ⟨inner, hturn, rfl⟩ := split_append hl
  · -- it would be started again, so it was connected to before
    refine absurd ?_ hfirst
    have hevent : (⟨.connect host, .error cause⟩ : Event) ∈ wait ++ logs.flatten := by
      rw [hlate]
      simp
    obtain ⟨answer, htold⟩ := h.told_of_started hevent rfl
    rw [connections_append, tells_connections]
    exact List.mem_append_left _ (List.mem_map.mpr ⟨_, htold, rfl⟩)
  · obtain ⟨early, rest, rfl, rfl⟩ := tells_refused hturn
    intro e he hhost
    rcases List.mem_append.mp he with he | he
    · obtain ⟨telling, hm, he⟩ := List.mem_flatMap.mp he
      have hsame : telling.1 = host := by
        have htelling := host?_of_mem_tellLog he
        rw [hhost] at htelling
        exact (Option.some.inj htelling).symm
      rw [List.map_append, List.map_cons, List.nodup_append] at hunique
      exact (List.nodup_cons.mp hunique.2.1).1 (List.mem_map.mpr ⟨telling, hm, hsame⟩)
    · obtain ⟨answer, htold⟩ := h.told_of_started he hhost
      have hrefused : ((host, .error cause) : Telling) ∈ early ++ (host, .error cause) :: rest := by
        simp
      cases List.inj_on_of_nodup_map hunique htold hrefused rfl

end RebootPhases

/-! ## Hosts as orders select them -/

theorem nodup_of_pairwise_entries {hosts : List Host}
    (h : hosts.Pairwise fun a b => ¬ a.sameEntry b = true) : hosts.Nodup := by
  refine List.nodup_iff_pairwise_ne.mpr (h.imp fun hdifferent heq => hdifferent ?_)
  exact Host.sameEntry_iff.mpr ⟨congrArg Host.name heq, congrArg Host.address heq⟩

theorem resolve_nodup (r : Roster) (tokens : List String) : (r.resolve tokens).hosts.Nodup := by
  have hfold (res : Resolution) (h : res.hosts.Pairwise fun a b => ¬ a.sameEntry b = true) :
      (tokens.foldl r.resolveStep res).hosts.Pairwise fun a b => ¬ a.sameEntry b = true := by
    induction tokens generalizing res with
    | nil => exact h
    | cons token rest ih =>
      refine ih _ ?_
      unfold Roster.resolveStep
      split
      · exact h
      · exact pairwise_foldl_addHost h
  exact nodup_of_pairwise_entries (hfold ⟨[], []⟩ .nil)

/-- Selected hosts are selected once. -/
theorem select_nodup {r : Roster} {tokens : List String} {hosts : List Host}
    (h : r.select tokens r.all = .ok hosts) : hosts.Nodup := by
  unfold Roster.select at h
  split at h
  · cases h
    exact nodup_of_pairwise_entries Roster.all_pairwise
  · dsimp only at h
    split at h
    · cases h
    · cases h
      exact resolve_nodup r tokens

theorem all_head? (r : Roster) : r.all.head? = some r.main := by
  have hkept (more hosts : List Host) : ∃ rest, more.foldl addHost (r.main :: hosts) =
      r.main :: rest := by
    induction more generalizing hosts with
    | nil => exact ⟨hosts, rfl⟩
    | cons host more ih =>
      unfold List.foldl addHost
      split
      · exact ih hosts
      · exact ih (hosts ++ [host])
  obtain ⟨rest, hall⟩ := hkept r.others []
  exact congrArg List.head? hall

end Fleet

end NodeFleet
