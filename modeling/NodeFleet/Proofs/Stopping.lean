import NodeFleet.Proofs.Requests
import NodeFleet.Proofs.Session

/-!
# NodeFleet.Proofs.Stopping — when a daemon counts as stopped, or as started

* `Reply.saysStopped`: the answers to a request to stop that count as success.
* `Fleet.ShowsStopped`, `Fleet.AcceptsStart`: the events in which a daemon is stopped or started.
* `stopDaemon_ok`, `stopHost_ok`: a stop goes well only by such an answer.
* `TellsToStop`: whether it goes well or not, a host that can be reached is told to stop.
* `stopHost_only`, `stop_cases`: what stopping a host may ask.
-/

namespace NodeFleet

/-- An answer to a request to stop after which the daemon is not up: it is accepted, or refused only
because there was no daemon to stop. -/
def Reply.saysStopped (reply : Reply) : Prop :=
  ∀ reason ∈ (ReplyKind.stop.read reply).refusal?, saysNotRunning reason

instance (reply : Reply) : Decidable reply.saysStopped :=
  inferInstanceAs (Decidable (∀ reason ∈ (ReplyKind.stop.read reply).refusal?, _))

namespace Fleet

variable (fleet : Fleet) {host : Host} {l : Log} {stopped : Stopped}

/-- An event that shows the daemon of a host as stopped. -/
def ShowsStopped (host : Host) : Event → Prop
  | ⟨.run h command, .ok reply⟩ =>
    h = host ∧ command = fleet.command .stop ∧ reply.saysStopped
  | _ => False

instance (host : Host) (e : Event) : Decidable (fleet.ShowsStopped host e) :=
  match e with
  | ⟨.run h command, .ok reply⟩ =>
    inferInstanceAs (Decidable (h = host ∧ command = fleet.command .stop ∧ reply.saysStopped))
  | ⟨.run _ _, .error _⟩ | ⟨.connect _, _⟩ | ⟨.write _ _ _, _⟩ | ⟨.close _, _⟩ | ⟨.cancelled, _⟩
  | ⟨.sleep _, _⟩ | ⟨.clock, _⟩ | ⟨.ping _, _⟩ | ⟨.launch _ _, _⟩ | ⟨.load _, _⟩ => .isFalse id

/-- An event in which the daemon of a host is started: an answer to the command that does not refuse
it. -/
def AcceptsStart (host : Host) : Event → Prop
  | ⟨.run h command, .ok reply⟩ =>
    h = host ∧ command = fleet.command .start ∧ (ReplyKind.start.read reply).refusal? = none
  | _ => False

instance (host : Host) (e : Event) : Decidable (fleet.AcceptsStart host e) :=
  match e with
  | ⟨.run h command, .ok reply⟩ =>
    inferInstanceAs (Decidable (h = host ∧ command = fleet.command .start ∧
      (ReplyKind.start.read reply).refusal? = none))
  | ⟨.run _ _, .error _⟩ | ⟨.connect _, _⟩ | ⟨.write _ _ _, _⟩ | ⟨.close _, _⟩ | ⟨.cancelled, _⟩
  | ⟨.sleep _, _⟩ | ⟨.clock, _⟩ | ⟨.ping _, _⟩ | ⟨.launch _ _, _⟩ | ⟨.load _, _⟩ => .isFalse id

/-- A daemon is stopped by an answer that says so. -/
theorem stopDaemon_ok (h : (fleet.stopDaemon host).run.Yields l (.ok stopped)) :
    ∃ e, l = [e] ∧ fleet.ShowsStopped host e := by
  unfold stopDaemon at h
  obtain ⟨l₁, l₂, result, rfl, h₁, h₂⟩ := Program.yields_bind_ok.mp h
  obtain ⟨_, hresult, heq⟩ := yields_caught.mp h₁
  cases heq
  cases result with
  | ok reading =>
    obtain ⟨reply, rfl, rfl, hnone⟩ := yields_expect_ok.mp hresult
    obtain ⟨rfl, -⟩ := Program.yields_run_pure.mp h₂
    refine ⟨_, rfl, rfl, rfl, fun reason hreason => ?_⟩
    rw [hnone] at hreason
    cases hreason
  | error e =>
    obtain ⟨cause, rfl, rfl⟩ | ⟨reply, reason, rfl, hreason, rfl⟩ := yields_expect_error.mp hresult
    · cases (Program.yields_run_throw.mp h₂).2
    -- a refusal that the daemon is not running is as good as a stop
    · by_cases hup : saysNotRunning reason
      · simp only [hup, ite_true] at h₂
        obtain ⟨rfl, -⟩ := Program.yields_run_pure.mp h₂
        refine ⟨_, rfl, rfl, rfl, fun reason' hreason' => ?_⟩
        rw [hreason] at hreason'
        cases hreason'
        exact hup
      · simp only [hup] at h₂
        cases (Program.yields_run_throw.mp h₂).2

/-- A host is stopped in a session in which its daemon says so. -/
theorem stopHost_ok (h : (fleet.stopHost host).run.Yields l (.ok stopped)) :
    ∃ e ∈ l, fleet.ShowsStopped host e := by
  obtain ⟨inner, rfl, hsteps⟩ := yields_inSession_ok.mp h
  unfold stopSteps at hsteps
  obtain ⟨l₁, l₂, _, rfl, h₁, -⟩ := Program.yields_bind_ok.mp hsteps
  obtain ⟨e, rfl, he⟩ := fleet.stopDaemon_ok h₁
  exact ⟨e, by simp [Log.session], he⟩

/-- However it ends, a stop is asked for once. -/
theorem stopDaemon_sends {r : Except FleetError Stopped}
    (h : (fleet.stopDaemon host).run.Yields l r) :
    ∃ answer, l = [⟨.run host (fleet.command .stop), answer⟩] := by
  unfold stopDaemon at h
  rw [ExceptT.run_bind] at h
  obtain ⟨l₁, l₂, caught, rfl, h₁, h₂⟩ := Program.yields_bind.mp h
  obtain ⟨result, hresult, rfl⟩ := yields_caught.mp h₁
  obtain ⟨answer, rfl⟩ := expect_sends hresult
  -- what the answer is taken for asks nothing more
  have hnothing : l₂ = [] := by
    cases result with
    | ok _ => exact (Program.yields_run_pure.mp h₂).1
    | error e =>
      dsimp only at h₂
      split at h₂
      · split at h₂
        · exact (Program.yields_run_pure.mp h₂).1
        · exact (Program.yields_run_throw.mp h₂).1
      · exact (Program.yields_run_throw.mp h₂).1
  exact ⟨answer, by rw [hnothing, List.append_nil]⟩

/-- A host is told to stop, unless it cannot be reached. -/
def TellsToStop (host : Host) (l : Log) : Prop :=
  (∃ cause, (⟨.connect host, .error cause⟩ : Event) ∈ l) ∨
    ∃ answer, (⟨.run host (fleet.command .stop), answer⟩ : Event) ∈ l

theorem stopHost_tells {r : Except FleetError Stopped}
    (h : (fleet.stopHost host).run.Yields l r) : fleet.TellsToStop host l := by
  obtain ⟨cause, rfl, -⟩ | ⟨inner, rfl, hinner⟩ := inSession_cases h
  · exact .inl ⟨cause, List.mem_singleton_self _⟩
  · unfold stopSteps at hinner
    rw [ExceptT.run_bind] at hinner
    obtain ⟨l₁, l₂, _, rfl, hstop, -⟩ := Program.yields_bind.mp hinner
    obtain ⟨answer, rfl⟩ := fleet.stopDaemon_sends hstop
    exact .inr ⟨answer, by simp [Log.session]⟩

/-- Once the session is open, the first thing asked in it is to stop. -/
theorem stopHost_opens {r : Except FleetError Stopped} {before after : Log} {other : Host}
    (h : (fleet.stopHost host).run.Yields (before ++ ⟨.connect other, .ok ()⟩ :: after) r) :
    ∃ answer rest, after = ⟨.run other (fleet.command .stop), answer⟩ :: rest := by
  obtain ⟨cause, hl, -⟩ | ⟨inner, hl, hinner⟩ := inSession_cases h
  · -- the connection that failed is the whole log
    have hmem : (⟨.connect other, .ok ()⟩ : Event) ∈ Log.refused host cause := by simp [← hl]
    cases List.mem_singleton.mp hmem
  have hasked : Only (fleet.StopAsks host) inner := fleet.stopSteps_only host _ _ hinner
  unfold stopSteps at hinner
  rw [ExceptT.run_bind] at hinner
  obtain ⟨l₁, l₂, _, rfl, hstop, -⟩ := Program.yields_bind.mp hinner
  obtain ⟨answer, rfl⟩ := fleet.stopDaemon_sends hstop
  cases before with
  | nil =>
    obtain ⟨hopen, rfl⟩ := List.cons.inj hl
    cases hopen
    exact ⟨answer, _, rfl⟩
  | cons e before =>
    -- no second session is opened inside the first
    obtain ⟨-, htail⟩ := List.cons.inj hl
    have hmem : (⟨.connect other, .ok ()⟩ : Event) ∈
        [⟨.run host (fleet.command .stop), answer⟩] ++ l₂ ++ [⟨.close host, ()⟩] := by
      rw [← htail]
      simp
    rcases List.mem_append.mp hmem with hmem | hmem
    · exact absurd ⟨other, rfl⟩ (Request.IsOn.not_connects (hasked _ hmem))
    · cases List.mem_singleton.mp hmem

theorem stopHost_only :
    Leaves (Only (Request.InSession host (fleet.StopAsks host))) (fleet.stopHost host) :=
  inSession_only (fleet.stopSteps_only host)

/-- Stopping a host opens a session, tells the daemon to stop, may wait, and closes the session. -/
theorem stop_cases {r : Request} (h : r.InSession host (fleet.StopAsks host)) :
    r = .connect host ∨ r = .close host ∨ r = .run host (fleet.command .stop) ∨
      r = .cancelled ∨ ∃ delay, r = .sleep delay := by
  rcases h with rfl | rfl | h
  · exact .inl rfl
  · exact .inr (.inl rfl)
  · cases r with
    | run _ _ =>
      obtain ⟨rfl, rfl⟩ := h
      exact .inr (.inr (.inl rfl))
    | write _ _ _ => exact absurd h.2 id
    | cancelled => exact .inr (.inr (.inr (.inl rfl)))
    | sleep delay => exact .inr (.inr (.inr (.inr ⟨delay, rfl⟩)))
    | _ => exact absurd h id

end Fleet

end NodeFleet
