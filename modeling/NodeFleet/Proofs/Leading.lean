import NodeFleet.Proofs.Conducting

/-!
# NodeFleet.Proofs.Leading — what a program comes to in a world

Where a world is known, so is what a program comes to in it: its result, and the state in which it
leaves the world.  The rules follow the program from its first request to its last.

* `Program.Leads`: the result and the state after a program.
* `leads_bind`, `leads_bind_ok`, `leads_bind_error`: one program after another.
* `leads_expect_ok`, `leads_expect_error`, `leads_inSession`: a command and a session.
* `leads_need`, `leads_eachHost`, `leads_conclude`: the parts of a procedure.
-/

namespace NodeFleet

/-! ## Runs -/

namespace Program

variable {α β σ : Type} {world : World σ} {s s' s'' : σ}

/-- From one state of the world, the program comes to this result and to another state. -/
def Leads (world : World σ) (p : Program α) (s : σ) (a : α) (s' : σ) : Prop :=
  p.run world s = (a, s')

theorem leads_pure (a : α) : (pure a : Program α).Leads world s a s := rfl

theorem leads_request (r : Request) :
    (request r).Leads world s (world r s).1 (world r s).2 := rfl

theorem leads_bind {p : Program α} {f : α → Program β} {a : α} {b : β}
    (hp : p.Leads world s a s') (hf : (f a).Leads world s' b s'') :
    (p >>= f).Leads world s b s'' := by
  have hrun := run_andThen world p f s
  rw [hp] at hrun
  exact hrun.trans hf

section Failing

variable {ε : Type} {x : ExceptT ε Program α} {f : α → ExceptT ε Program β}

theorem leads_bind_ok {a : α} {r : Except ε β} (hx : x.run.Leads world s (.ok a) s')
    (hf : (f a).run.Leads world s' r s'') : (x >>= f).run.Leads world s r s'' := by
  rw [ExceptT.run_bind]
  exact leads_bind hx hf

theorem leads_bind_error {e : ε} (hx : x.run.Leads world s (.error e) s') :
    (x >>= f).run.Leads world s (.error e) s' := by
  rw [ExceptT.run_bind]
  exact leads_bind hx (leads_pure _)

theorem leads_lift {p : Program α} {a : α} (h : p.Leads world s a s') :
    (ExceptT.lift p : ExceptT ε Program α).run.Leads world s (.ok a) s' := by
  rw [ExceptT.run_lift, map_eq_pure_bind]
  exact leads_bind h (leads_pure _)

end Failing

end Program

section Steps

variable {α σ : Type} {world : World σ} {s s' : σ} {host : Host}

theorem leads_ofRequest {wrap : RemoteError → FleetError} {p : Program (Except RemoteError α)}
    {answer : Except RemoteError α} (h : p.Leads world s answer s') :
    (Step.ofRequest wrap p).run.Leads world s (answer.mapError wrap) s' := by
  show (Except.mapError wrap <$> p).Leads world s _ s'
  rw [map_eq_pure_bind]
  exact Program.leads_bind h (Program.leads_pure _)

section Expecting

variable {command : Command} {kind : ReplyKind} {reply : Reply}

/-- A command that is answered, and not refused. -/
theorem leads_expect_ok (hsent : (Program.send host command).Leads world s (.ok reply) s')
    (h : (kind.read reply).refusal? = none) :
    (expect host command kind).run.Leads world s (.ok (kind.read reply)) s' := by
  refine Program.leads_bind_ok (leads_ofRequest hsent) ?_
  dsimp only
  rw [h]
  exact Program.leads_pure _

/-- A command that is answered with a refusal. -/
theorem leads_expect_error {reason : String}
    (hsent : (Program.send host command).Leads world s (.ok reply) s')
    (h : (kind.read reply).refusal? = some reason) :
    (expect host command kind).run.Leads world s
      (.error (.commandRejected host.name command.line reason)) s' := by
  refine Program.leads_bind_ok (leads_ofRequest hsent) ?_
  dsimp only
  rw [h]
  exact Program.leads_pure _

end Expecting

/-- A session that is opened, and closed after what is done in it. -/
theorem leads_inSession {step : Step α} {r : Except FleetError α} {opened left : σ}
    (hopen : world (.connect host) s = (.ok (), opened)) (h : step.run.Leads world opened r left)
    (hclose : world (.close host) left = ((), s')) :
    (inSession host step).run.Leads world s r s' := by
  have hsession : (withSession host step.attempt).run.Leads world s (.ok r) s' := by
    rw [withSession_run]
    refine Program.leads_bind hopen ?_
    exact Program.leads_bind h (Program.leads_bind hclose (Program.leads_pure _))
  exact Program.leads_bind_ok hsession (Program.leads_pure r)

end Steps

section Conducting

variable {α β σ : Type} {world : World σ} {s s' s'' : σ} {host : Host} {stage : String}
  {before : Report}

theorem leads_need {step : Step α} {f : α → Conduct β} {a : α} {r : Except Report (β × Report)}
    (hstep : step.run.Leads world s (.ok a) s')
    (hf : ((f a).run before).run.Leads world s' r s'') :
    ((Conduct.need stage step >>= f).run before).run.Leads world s r s'' := by
  unfold Conduct.need
  rw [bind_assoc, Conduct.run_attempt_bind]
  exact Program.leads_bind hstep hf

/-- A loop over one host. -/
theorem leads_eachHost {step : Host → Step α} {detail : α → Option String}
    {result : Except FleetError α} (h : (step host).run.Leads world s result s')
    (hresult : wasCancelled result = false) :
    ((Conduct.eachHost stage [host] step detail).run before).run.Leads world s
      (.ok ((), (before.stageResult stage (some host) detail result).hostResult host result))
      s' := by
  change (StateT.run ((Conduct.attempt (step host) >>= _) >>= _) before).run.Leads world s _ s'
  rw [bind_assoc, Conduct.run_attempt_bind]
  refine Program.leads_bind h ?_
  rw [hresult]
  exact Program.leads_pure _

theorem leads_conclude {procedure : Procedure} {x : Conduct Unit} {last : Report}
    (h : (x.run (.new procedure)).run.Leads world s (.ok ((), last)) s') :
    (Conduct.conclude procedure x).Leads world s last.finish s' :=
  Program.leads_bind h (Program.leads_pure _)

end Conducting

end NodeFleet
