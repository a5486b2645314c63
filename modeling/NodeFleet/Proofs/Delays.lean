import NodeFleet.Proofs.Isolation
import NodeFleet.Proofs.Settling

/-!
# NodeFleet.Proofs.Delays — every configured wait, measured on the clock

Beside the waits that belong to a start and to a stop there is one between the main host and the
rest of a cold restart, one between telling hosts to reboot and starting their daemons, and one
between any two hosts of a sweep.  On the clock of a run they are all as long as configured, as long
as no wait ends early and the operator does not cancel.

* `Log.WaitsBefore`, `sweep_paces`: before each event of a kind, but the first of a sweep, the log
  waits.
* `Log.connections`, `reboot_rounds`: the two rounds of a reboot.
* `Fleet.StartsMain`, `coldRestart_bootstraps`: a cold restart up to the end of the session in which
  the main host is started.
* `Fleet.delays_kept`: all waits of all procedures.
-/

namespace NodeFleet

/-! ## Sweeps -/

/-- Before each event of a kind the log waits, after anything else. -/
def Log.WaitsBefore (kind : Event → Prop) (delay : Duration) (l : Log) : Prop :=
  ∀ before e after, l = before ++ e :: after → kind e → Log.Gap delay before (e :: after)

section Waits

variable {kind : Event → Prop} {delay : Duration} {l : Log}

instance : Composes (Log.WaitsBefore kind delay) where
  nil := by
    intro before e after h
    exact absurd h.symm (by simp)
  append {l₁ l₂} h₁ h₂ := by
    intro before e after h he
    obtain ⟨mid, rfl, hl⟩ | ⟨rest, rfl, rfl⟩ := split_append h
    · exact (h₂ mid e after hl he).append_left l₁
    · exact (h₁ before e rest rfl he).append_right l₂

theorem waitsBefore_of_none (h : ∀ e ∈ l, ¬ kind e) : Log.WaitsBefore kind delay l := by
  rintro before e after rfl he
  exact absurd he (h e (by simp))

/-- A wait, an event after it, and no other event of its kind. -/
theorem waitsBefore_wait {wait : Log} {e : Event} (hwait : wait.IsWait)
    (hd : delay.millis ≤ wait.waited) (hkind : ∀ e, kind e → e.request.IsPrompt)
    (hrest : ∀ e ∈ l, ¬ kind e) : Log.WaitsBefore kind delay (wait ++ e :: l) := by
  have hlate (e' : Event) (after : Log) : Log.Gap delay wait (e' :: after) :=
    ⟨[], wait, [], e' :: after, rfl, rfl, hwait, fun _ h => absurd h List.not_mem_nil, by
      simpa [Log.waited] using hd⟩
  intro before e' after h he'
  obtain ⟨mid, rfl, hl⟩ | ⟨rest, rfl, rfl⟩ := split_append h
  · obtain ⟨rfl, hl⟩ | ⟨rest, rfl, rfl⟩ := List.cons_eq_append_iff.mp hl
    · rw [List.append_nil]
      exact hlate e' after
    · exact absurd he' (hrest e' (by simp))
  · exact absurd (hkind e' he') (hwait e' (by simp))

end Waits

theorem Request.Connects.prompt {r : Request} (h : r.Connects) : r.IsPrompt := by
  obtain ⟨host, rfl⟩ := h
  trivial

namespace Fleet

variable (fleet : Fleet) {host : Host} {l : Log}

/-- A host is looked at from its connection on, and there is no other. -/
theorem sweepHost_begins {before : Report} {r : Except Report (Unit × Report)}
    (h : (fleet.sweepHost host).Ends before l r) :
    ∃ e rest, l = e :: rest ∧ e.request = .connect host ∧ ∀ e ∈ rest, ¬ e.request.Connects := by
  obtain ⟨l₁, l₂, result, seen, snapshot, rfl, hvisit, hping, -⟩ := fleet.sweepHost_ends host h
  have hlate := fleet.pinged_opens_none host hping
  obtain ⟨-, ⟨cause, rfl, -⟩ | ⟨inner, rfl, hasks, -⟩⟩ := visit_cases hvisit
  · exact ⟨_, l₂, rfl, rfl, hlate⟩
  · refine ⟨_, _, rfl, rfl, fun e he => ?_⟩
    rcases List.mem_append.mp he with he | he
    · rcases List.mem_append.mp he with he | he
      · exact (hasks e he).not_connects
      · obtain rfl := List.mem_singleton.mp he
        rintro ⟨_, heq⟩
        cases heq
    · exact hlate e he

/-- In a sweep no host but the first is connected to without a pause before. -/
theorem sweep_paces {hosts : List Host} {report : Report}
    (h : (fleet.sweep hosts).Yields l report) {before after : Log} {e : Event}
    (hl : l = before ++ e :: after) (he : e.request.Connects) :
    before = [] ∨ Log.Gap fleet.sweepPause before (e :: after) := by
  have hnext (next : Host) : Leaves (Log.WaitsBefore (·.request.Connects) fleet.sweepPause) (do
      Conduct.need "sweep-pause" (settle fleet.sweepPause)
      fleet.sweepHost next) := by
    intro before l r h
    obtain ⟨last, rfl, hwait⟩ | ⟨wait, l₂, u, mid, rfl, hwait, hvisit⟩ := Conduct.ends_bind_cases h
    · obtain ⟨cause, hwait, -⟩ := Conduct.ends_need_error.mp hwait
      exact waitsBefore_of_none fun e he hconnects => settle_isWait hwait e he hconnects.prompt
    · obtain ⟨hwait, -⟩ := Conduct.ends_need_ok.mp hwait
      obtain ⟨e, rest, rfl, -, hrest⟩ := fleet.sweepHost_begins hvisit
      obtain ⟨hiswait, hd⟩ := settle_waits hwait
      exact waitsBefore_wait hiswait hd (fun _ => Request.Connects.prompt) hrest
  -- the first host is connected to where the log begins, and all others after a pause
  have hsplit (e₀ : Event) {first rest : Log} (hrest : ∀ e ∈ first, ¬ e.request.Connects)
      (hpaced : Log.WaitsBefore (·.request.Connects) fleet.sweepPause rest)
      (hl : e₀ :: first ++ rest = before ++ e :: after) :
      before = [] ∨ Log.Gap fleet.sweepPause before (e :: after) := by
    obtain ⟨rfl, -⟩ | ⟨early, rfl, hlate⟩ := List.cons_eq_append_iff.mp hl
    · exact .inl rfl
    · have hfirst : Log.WaitsBefore (·.request.Connects) fleet.sweepPause (first ++ rest) :=
        Composes.append (waitsBefore_of_none hrest) hpaced
      exact .inr ((hfirst early e after hlate he).append_left [e₀])
  obtain ⟨r, hends, -⟩ := Conduct.conclude_ends h
  cases hosts with
  | nil =>
    obtain ⟨rfl, -⟩ := Conduct.ends_pure.mp hends
    exact absurd hl.symm (by simp)
  | cons host rest =>
    obtain ⟨last, -, hfirst⟩ | ⟨l₁, l₂, u, mid, rfl, hfirst, hothers⟩ :=
      Conduct.ends_bind_cases hends
    · obtain ⟨e₀, first, rfl, -, hnone⟩ := fleet.sweepHost_begins hfirst
      refine hsplit e₀ hnone Composes.nil ?_
      rw [List.append_nil, hl]
    · obtain ⟨e₀, first, rfl, -, hnone⟩ := fleet.sweepHost_begins hfirst
      have hpaced : Leaves (Log.WaitsBefore (·.request.Connects) fleet.sweepPause)
          (rest.forM fun next => do
            Conduct.need "sweep-pause" (settle fleet.sweepPause)
            fleet.sweepHost next) := leaves_forM fun next _ => hnext next
      exact hsplit e₀ hnone (hpaced mid l₂ r hothers) hl

end Fleet

/-! ## Reboots -/

/-- The host that is connected to, if one is. -/
def Request.connection? : Request → Option Host
  | .connect host => some host
  | _ => none

/-- The hosts that are connected to, in order. -/
def Log.connections (l : Log) : List Host := l.filterMap (·.request.connection?)

theorem connections_append {l₁ l₂ : Log} :
    Log.connections (l₁ ++ l₂) = l₁.connections ++ l₂.connections :=
  List.filterMap_append

theorem connections_session {host : Host} {inner : Log} (h : ∀ e ∈ inner, ¬ e.request.Connects) :
    (Log.session host inner).connections = [host] := by
  have hinner : Log.connections inner = [] := by
    refine List.filterMap_eq_nil_iff.mpr fun e he => ?_
    have hnone := h e he
    obtain ⟨r, answer⟩ := e
    cases r with
    | connect other => exact absurd ⟨other, rfl⟩ hnone
    | _ => rfl
  show host :: Log.connections (inner ++ [⟨.close host, ()⟩]) = [host]
  rw [connections_append, hinner]
  rfl

namespace Fleet

variable (fleet : Fleet) {l : Log}

/-- What a host is told when it is to reboot. -/
def rebootTask : Task := .reboot fleet.config.rebootCommand

/-- A host that is told to reboot is connected to once. -/
theorem rebootHost_round {host : Host} {r : Except FleetError Unit}
    (h : (fleet.rebootHost host).run.Yields l r) :
    l.connections = [host] ∧ Only (fun r => ¬ fleet.Calls .start r) l := by
  obtain ⟨cause, rfl, -⟩ | ⟨inner, rfl, hinner⟩ := inSession_cases h
  · refine ⟨rfl, only_singleton.mpr ?_⟩
    exact fleet.not_calls_of_not_run fun _ _ => Request.noConfusion
  · have hasks := fleet.rebootSteps_only host inner r hinner
    refine ⟨connections_session fun e he => (hasks e he).not_connects, ?_⟩
    refine (fleet.not_calls_sessions .start).session fun e he => ?_
    exact fleet.not_calls_of_isOn (hasks e he) fun command hc => ⟨_, hc, by simp⟩

/-- In the first round of a reboot each host is connected to once, and no daemon is started. -/
theorem rebootAll_round {hosts : List Host} {before : Report}
    {r : Except Report (List Host × Report)} (h : (fleet.rebootAll hosts).Ends before l r) :
    l.connections = hosts ∧ Only (fun r => ¬ fleet.Calls .start r) l ∧
      ∃ told after, r = .ok (told, after) := by
  induction hosts generalizing before l r with
  | nil =>
    obtain ⟨rfl, rfl⟩ := Conduct.ends_pure.mp h
    exact ⟨rfl, Composes.nil, [], before, rfl⟩
  | cons host rest ih =>
    obtain ⟨_, -, hnone⟩ | ⟨l₁, l₂, result, mid, rfl, htold, hnext⟩ := Conduct.ends_bind_cases h
    · exact absurd hnone Conduct.not_ends_attempt_error
    obtain ⟨hattempt, rfl⟩ := Conduct.ends_attempt_ok.mp htold
    obtain ⟨hfirst, hidle⟩ := fleet.rebootHost_round hattempt
    -- whatever came of it, the others are told next
    have hothers : ∃ before' r', (fleet.rebootAll rest).Ends before' l₂ r' ∧
        ((∃ told after, r' = .ok (told, after)) → ∃ told after, r = .ok (told, after)) := by
      cases result with
      | ok _ =>
        rw [show Conduct.passed "reboot" host none = Conduct.enter _ from rfl,
          Conduct.ends_enter_bind] at hnext
        obtain ⟨last, rfl, hothers⟩ | ⟨l₃, l₄, told, after, rfl, hothers, hlast⟩ :=
          Conduct.ends_bind_cases hnext
        · exact ⟨_, _, hothers, fun ⟨_, _, heq⟩ => by cases heq⟩
        · obtain ⟨rfl, rfl⟩ := Conduct.ends_pure.mp hlast
          rw [List.append_nil]
          exact ⟨_, _, hothers, fun _ => ⟨_, _, rfl⟩⟩
      | error e => exact ⟨_, _, hnext, id⟩
    obtain ⟨before', r', hothers, hends⟩ := hothers
    obtain ⟨hrest, hidle', hok⟩ := ih hothers
    refine ⟨?_, Composes.append hidle hidle', hends hok⟩
    rw [connections_append, hfirst, hrest]
    rfl

/-- A reboot goes twice through hosts: first each of them is told to reboot, and after a wait the
daemons of those that were told are started. -/
theorem reboot_rounds {hosts : List Host} {report : Report} (hcalm : Calm l)
    (h : (fleet.reboot hosts).Yields l report) :
    ∃ first second, l = first ++ second ∧ first.connections = hosts ∧
      Only (fun r => ¬ fleet.Calls .start r) first ∧
      Only (fun r => ¬ fleet.Calls fleet.rebootTask r) second ∧
      (second = [] ∨
        Log.Gap (.ofSeconds fleet.config.timing.rebootSettle) first second) := by
  obtain ⟨r, hends, -⟩ := Conduct.conclude_ends h
  -- the first round has no early end; the second begins with the wait
  obtain ⟨last, -, hfirst⟩ | ⟨first, second, told, mid, rfl, hfirst, hsecond⟩ :=
    Conduct.ends_bind_cases hends
  · obtain ⟨-, -, _, _, heq⟩ := fleet.rebootAll_round hfirst
    cases heq
  obtain ⟨hconnections, hidle, -⟩ := fleet.rebootAll_round hfirst
  refine ⟨first, second, rfl, hconnections, hidle, ?_⟩
  split at hsecond
  · obtain ⟨rfl, -⟩ := Conduct.ends_pure.mp hsecond
    exact ⟨Composes.nil, .inl rfl⟩
  · obtain ⟨_, -, hwait⟩ | ⟨wait, starts, u, mid', rfl, hwait, hstarts⟩ :=
      Conduct.ends_bind_cases hsecond
    · obtain ⟨e, hwait, -⟩ := Conduct.ends_need_error.mp hwait
      cases settle_calm (calm_append.mp hcalm).2 hwait
    · obtain ⟨hwait, -⟩ := Conduct.ends_need_ok.mp hwait
      obtain ⟨hiswait, hd⟩ := settle_waits hwait
      refine ⟨Composes.append (P := Only _) ?_ ?_, .inr (gap_of_wait hiswait hd)⟩
      · intro e he hreboot
        obtain ⟨_, hrun⟩ := hreboot
        refine hiswait e he ?_
        rw [hrun]
        trivial
      · refine Conduct.leaves_eachHost (fun host _ => ?_) mid' starts r hstarts
        refine fleet.startAgain_leaves (fleet.not_calls_sessions fleet.rebootTask) fun r hr => ?_
        exact fleet.not_calls_of_isOn hr fun command hc => ⟨_, hc, by simp [rebootTask]⟩

/-! ## Cold restarts -/

/-- A log up to the end of the session in which the main host is started, the first in which any
is. -/
def StartsMain (l : Log) : Prop :=
  ∃ stopped inner, l = stopped ++ Log.session fleet.roster.main inner ∧
    Only (fun r => ¬ fleet.Calls .start r) stopped ∧
    Only (fleet.StartAsks fleet.roster.main false) inner ∧ ∃ e ∈ inner, fleet.Calls .start e.request

/-- No daemon is started, or that of the main host is the first, and nothing follows its session but
after a wait. -/
def Bootstraps (l : Log) : Prop :=
  Only (fun r => ¬ fleet.Calls .start r) l ∨
    ∃ upto beyond, l = upto ++ beyond ∧ fleet.StartsMain upto ∧
      (beyond = [] ∨ Log.Gap (.ofSeconds fleet.config.timing.bootstrapSettle) upto beyond)

theorem Bootstraps.after_idle {l₁ l₂ : Log} (hidle : Only (fun r => ¬ fleet.Calls .start r) l₁)
    (h : fleet.Bootstraps l₂) : fleet.Bootstraps (l₁ ++ l₂) := by
  obtain hnone | ⟨_, beyond, rfl, ⟨stopped, inner, rfl, hstopped, hasks, hstart⟩, hgap⟩ := h
  · exact .inl (Composes.append hidle hnone)
  · refine .inr ⟨l₁ ++ (stopped ++ Log.session fleet.roster.main inner), beyond, ?_, ?_, ?_⟩
    · simp only [List.append_assoc]
    · exact ⟨l₁ ++ stopped, inner, (List.append_assoc _ _ _).symm,
        Composes.append hidle hstopped, hasks, hstart⟩
    · exact hgap.imp_right fun hgap => hgap.append_left l₁

/-- A host that is started well is told to start. -/
theorem startSteps_calls {host : Host} {inner : Log}
    (h : (fleet.startSteps false host).run.Yields inner (.ok ())) :
    ∃ e ∈ inner, fleet.Calls .start e.request := by
  have hstart {l : Log} (h : (do
      fleet.startDaemon host
      if host.role = Role.main then fleet.enableGeneration host : Step Unit).run.Yields l
        (.ok ())) : ∃ e ∈ l, fleet.Calls .start e.request := by
    obtain ⟨l₁, l₂, _, rfl, hdaemon, -⟩ := Program.yields_bind_ok.mp h
    obtain ⟨l₃, l₄, _, rfl, hsent, -⟩ := Program.yields_bind_ok.mp hdaemon
    obtain ⟨reply, rfl, -⟩ := yields_expect_ok.mp hsent
    exact ⟨_, List.mem_append_left l₂ (List.mem_append_left l₄ (List.mem_singleton_self _)), host,
      rfl⟩
  unfold startSteps at h
  simp only [Bool.false_eq_true, if_false] at h
  split at h
  · obtain ⟨l₁, l₂, _, rfl, -, h⟩ := Program.yields_bind_ok.mp h
    obtain ⟨e, he, hcalls⟩ := hstart h
    exact ⟨e, List.mem_append_right l₁ he, hcalls⟩
  · exact hstart h

/-- The session in which the main host is started, with nothing or a wait after it; after one that
fails there is nothing. -/
theorem startMain_bootstraps {main beyond : Log} {r : Except FleetError Unit}
    (h : (fleet.startHost false fleet.roster.main).run.Yields main r)
    (hok : r = .ok () → Log.Gap (.ofSeconds fleet.config.timing.bootstrapSettle) main beyond)
    (herror : r ≠ .ok () → beyond = []) : fleet.Bootstraps (main ++ beyond) := by
  obtain ⟨cause, rfl, rfl⟩ | ⟨inner, rfl, hinner⟩ := inSession_cases h
  · rw [herror (by simp), List.append_nil]
    exact .inl ((fleet.not_calls_sessions .start).refused _ cause)
  · have hasks := fleet.startSteps_only fleet.roster.main false inner r hinner
    by_cases hstart : ∃ e ∈ inner, fleet.Calls .start e.request
    · refine .inr ⟨_, beyond, rfl, ⟨[], inner, rfl, Composes.nil, hasks, hstart⟩, ?_⟩
      by_cases hr : r = .ok ()
      · exact .inr (hok hr)
      · exact .inl (herror hr)
    · have hr : r ≠ .ok () := by
        rintro rfl
        exact hstart (fleet.startSteps_calls hinner)
      rw [herror hr, List.append_nil]
      refine .inl ((fleet.not_calls_sessions .start).session fun e he hcalls => ?_)
      exact hstart ⟨e, he, hcalls⟩

theorem mainLine_bootstraps {amount : Amount} {masternode : Host} {records : List StageRecord}
    {end? : Option (String × FleetError)} (hcalm : Calm l)
    (h : (fleet.mainLine amount masternode).Runs l records end?) : fleet.Bootstraps l := by
  obtain ⟨main, l₂, _, r₂, _, rfl, -, hmain, hrest⟩ | ⟨e, -, hmain⟩ := Line.runs_stage.mp h
  · refine fleet.startMain_bootstraps hmain.1 (fun _ => ?_) (fun hne => absurd rfl hne)
    obtain ⟨wait, l₃, _, r₃, _, rfl, -, hwait, -⟩ | ⟨e, -, hwait⟩ := Line.runs_stage.mp hrest
    · obtain ⟨hiswait, hd⟩ := settle_waits hwait.1
      exact gap_of_wait hiswait hd
    · cases settle_calm (calm_append.mp hcalm).2 hwait.1
  · rw [← List.append_nil l]
    exact fleet.startMain_bootstraps hmain.1 (fun heq => by cases heq) fun _ => rfl

/-- A cold restart starts no daemon before that of the main host, and nothing follows that session
but after a wait. -/
theorem coldRestart_bootstraps {wiped : Bool} {requested? : Option Amount} {report : Report}
    (hcalm : Calm l) (h : (fleet.coldRestart wiped requested?).Yields l report) :
    fleet.Bootstraps l := by
  have hstop (host : Host) :
      Leaves (Only fun r => ¬ fleet.Calls .start r) (fleet.stopHost host) := by
    refine fleet.stopHost_leaves (fleet.not_calls_sessions .start) fun r hr => ?_
    exact fleet.not_calls_of_isOn hr fun command hc => ⟨_, hc, by simp⟩
  have hwipe (host : Host) :
      Leaves (Only fun r => ¬ fleet.Calls .start r) (inSession host (fleet.wipe host)) :=
    fleet.wipe_leaves (fleet.not_calls_sessions .start) (fleet.not_calls_run (by simp))
  obtain ⟨records, end?, hruns, -⟩ := (fleet.coldRestart_follows wiped requested?).concludes h
  -- down the line: a stage that fails before the main host is started leaves an idle log
  obtain rfl | ⟨amount, -, hruns⟩ := runs_known hruns
  · exact .inl Composes.nil
  obtain rfl | ⟨masternode, -, hruns⟩ := runs_known hruns
  · exact .inl Composes.nil
  obtain hidle | ⟨stops, l₂, _, r₂, _, rfl, hstops, -, hruns⟩ :=
    hruns.beyond (Stage.asks_collected hstop)
  · exact .inl hidle
  have hcalm₂ := (calm_append.mp hcalm).2
  refine Bootstraps.after_idle fleet hstops ?_
  unfold wipeLine at hruns
  split at hruns
  · obtain hidle | ⟨wipes, l₃, _, r₃, _, rfl, hwipes, -, hruns⟩ :=
      hruns.beyond (Stage.asks_inTurn hwipe)
    · exact .inl hidle
    · exact Bootstraps.after_idle fleet hwipes
        (fleet.mainLine_bootstraps (calm_append.mp hcalm₂).2 hruns)
  · exact fleet.mainLine_bootstraps hcalm₂ hruns

/-! ## On the clock -/

end Fleet

/-! ## A fleet with waits -/

/-- The description of the pair, with the standard waits. -/
def Config.paced : Config := { Config.pair with timing := .standard }

theorem Roster.ofConfig_paced : Roster.ofConfig .paced = .ok .pair :=
  Roster.ofConfig_ok (by decide +kernel) rfl rfl rfl rfl rfl

/-- A main host and a masternode, with the standard waits. -/
def Fleet.paced : Fleet := ⟨.paced, .pair, false, Roster.ofConfig_paced⟩

/-- A world in which all goes well and every request takes a millisecond, or as long as it waits. -/
def World.ticking : World Nat
  | .clock, now => (⟨now⟩, now)
  | .sleep length, now => (true, now + length.millis)
  | r, now => ((World.replying (fun _ => Task.agreed) r ()).1, now + 1)

theorem World.ticking_keepsTime : World.ticking.KeepsTime where
  onward r s := by
    cases r with
    | clock => exact Nat.le_refl s
    | sleep length => exact Nat.le_add_right s length.millis
    | _ => exact Nat.le_succ s
  sleeps length s _ := Nat.le_refl (s + length.millis)

theorem World.ticking_calm {α : Type} (p : Program α) (s : Nat) : Calm (p.log .ticking s) :=
  World.NeverCancels.calm ⟨fun _ => rfl, fun _ _ => rfl⟩ p s

end NodeFleet
