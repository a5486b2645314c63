import NodeFleet.Proofs.Parties
import NodeFleet.Proofs.Stages

/-!
# NodeFleet.Proofs.Heeding — a wait that is cut short is the end

When the operator cancels, the wait of that moment fails, and with it everything that the wait is a
part of.  `Heeds` says so of a part of a procedure in any of its layers: either no wait is cut short
in it, or it fails as cancelled, and what is still asked after that wait is what the layer owes, the
closing of its session.

* `Log.CutShort`: a log with a wait that is cut short, and what comes after that.
* `Heeds`, `Conduct.Heeds`: a part that ends where the operator cancels.
* `heeds_bind`, `heeds_prompt`, `heeds_inSession`, `heeds_poll`, ...: the rules for steps.
* `Conduct.heeds_need`, `Conduct.heeds_eachHost`, ...: the rules for parts of procedures.
* `Line.heeds_stage`, `Stage.heeds_on`, ...: the rules for lines of stages.
-/

namespace NodeFleet

/-! ## Waits and their ends -/

/-- A request at which nothing can be cut short. -/
def Request.IsPrompt : Request → Prop
  | .cancelled | .sleep _ => False
  | _ => True

theorem Request.IsPrompt.calm {e : Event} (h : e.request.IsPrompt) : e.IsCalm := by
  obtain ⟨r, answer⟩ := e
  cases r with
  | cancelled => exact absurd h id
  | sleep _ => exact absurd h id
  | _ => trivial

theorem Only.calm {l : Log} (h : Only Request.IsPrompt l) : Calm l :=
  fun e he => (h e he).calm

/-- Waiting, and nothing else. -/
def Log.IsWait (l : Log) : Prop := Only (fun r => ¬ r.IsPrompt) l

/-- The event that closes a session. -/
def Event.closing (host : Host) : Event := ⟨.close host, ()⟩

/-- Nothing at all. -/
def Log.IsNothing (l : Log) : Prop := l = []

/-- Nothing, or the closing of a session. -/
def Log.IsClosing (l : Log) : Prop := l = [] ∨ ∃ host, l = [Event.closing host]

/-- The closing of the session to a host. -/
def Log.Closes (host : Host) (l : Log) : Prop := l = [Event.closing host]

/-- A wait is cut short, the first in the log, and what comes after it is of a certain kind. -/
def Log.CutShort (tail : Log → Prop) (l : Log) : Prop :=
  ∃ before e after, l = before ++ e :: after ∧ Calm before ∧ ¬ e.IsCalm ∧ tail after

/-- Failures that can stand for a cancellation by the operator. -/
class Cancellation (ε : Type) where
  IsCancelled : ε → Prop

export Cancellation (IsCancelled)

instance : Cancellation FleetError := ⟨(· = .cancelled)⟩

instance : Cancellation PollError := ⟨fun e => ∃ attempts, e = .cancelled attempts⟩

/-- The procedure was aborted because the operator cancelled. -/
def Report.WasCancelled (report : Report) : Prop :=
  ∃ stage message, report.outcome = .aborted stage .cancelled message

instance : Cancellation Report := ⟨Report.WasCancelled⟩

section Logs

variable {tail tail' : Log → Prop} {host : Host} {l l' : Log}

theorem calm_nil : Calm [] := fun _ h => absurd h List.not_mem_nil

theorem calm_session : Calm (Log.session host l) ↔ Calm l := by
  constructor
  · exact fun h e he => h e (mem_session.mpr (.inr (.inl he)))
  · intro h e he
    obtain rfl | he | rfl := mem_session.mp he
    · trivial
    · exact h e he
    · trivial

theorem calm_refused {cause : RemoteError} : Calm (Log.refused host cause) := by
  intro e he
  obtain rfl := List.mem_singleton.mp he
  trivial

theorem Log.Closes.isClosing (h : l.Closes host) : l.IsClosing := .inr ⟨host, h⟩

theorem Log.IsClosing.calm (h : l.IsClosing) : Calm l := by
  obtain rfl | ⟨host, rfl⟩ := h
  · exact calm_nil
  · intro e he
    obtain rfl := List.mem_singleton.mp he
    trivial

theorem Log.CutShort.mono (h : l.CutShort tail) (htail : ∀ l, tail l → tail' l) :
    l.CutShort tail' := by
  obtain ⟨before, e, after, hl, hbefore, he, hafter⟩ := h
  exact ⟨before, e, after, hl, hbefore, he, htail after hafter⟩

theorem Log.CutShort.after_calm (h : l'.CutShort tail) (hcalm : Calm l) :
    (l ++ l').CutShort tail := by
  obtain ⟨before, e, after, rfl, hbefore, he, hafter⟩ := h
  refine ⟨l ++ before, e, after, ?_, calm_append.mpr ⟨hcalm, hbefore⟩, he, hafter⟩
  rw [List.append_assoc]

/-- Where a session is cut short, its closing is what comes after. -/
theorem Log.CutShort.session (h : l.CutShort IsNothing) :
    (Log.session host l).CutShort (Closes host) := by
  obtain ⟨before, e, after, rfl, hbefore, he, rfl⟩ := h
  refine ⟨⟨.connect host, .ok ()⟩ :: before, e, [Event.closing host], ?_, ?_, he, ?_⟩
  · simp [Log.session, Event.closing]
  · exact List.forall_mem_cons.mpr ⟨trivial, hbefore⟩
  · exact rfl

/-- Only one wait of such a log is cut short, and what comes after it is known. -/
theorem Log.CutShort.tail_of_split {before after : Log} {e : Event} (h : l.CutShort tail)
    (htail : ∀ l, tail l → Calm l) (hl : l = before ++ e :: after) (he : ¬ e.IsCalm) :
    tail after := by
  obtain ⟨before', e', after', rfl, hbefore, he', hafter⟩ := h
  obtain ⟨mid, rfl, hrest⟩ | ⟨rest, rfl, -⟩ := split_append hl
  · obtain ⟨rfl, heq⟩ | ⟨mid, rfl, rfl⟩ := List.cons_eq_append_iff.mp hrest
    · cases heq
      exact hafter
    · exact absurd (htail _ hafter e (by simp)) he
  · exact absurd (hbefore e (by simp)) he

end Logs

/-! ## Steps -/

/-- Either no wait is cut short, or the part fails as cancelled, and only what is owed comes after
the wait that was cut short. -/
def Heeds {ε α : Type} [Cancellation ε] (tail : Log → Prop) (x : ExceptT ε Program α) : Prop :=
  ∀ l r, x.run.Yields l r → Calm l ∨ ∃ e, r = .error e ∧ IsCancelled e ∧ l.CutShort tail

section Rules

variable {ε α β : Type} [Cancellation ε] {tail tail' : Log → Prop}

theorem Heeds.mono {x : ExceptT ε Program α} (h : Heeds tail x)
    (htail : ∀ l, tail l → tail' l) : Heeds tail' x := by
  intro l r hl
  obtain hcalm | ⟨e, hr, he, hcut⟩ := h l r hl
  · exact .inl hcalm
  · exact .inr ⟨e, hr, he, hcut.mono htail⟩

/-- Where nothing is waited for nothing is cut short. -/
theorem heeds_prompt {x : ExceptT ε Program α} (h : Leaves (Only Request.IsPrompt) x) :
    Heeds tail x := fun l r hl => .inl (h l r hl).calm

theorem heeds_pure (a : α) : Heeds tail (pure a : ExceptT ε Program α) :=
  heeds_prompt (leaves_pure a)

theorem heeds_throw (e : ε) : Heeds tail (throw e : ExceptT ε Program α) :=
  heeds_prompt (leaves_throw e)

theorem heeds_bind {x : ExceptT ε Program α} {f : α → ExceptT ε Program β} (hx : Heeds tail x)
    (hf : ∀ a, Heeds tail (f a)) : Heeds tail (x >>= f) := by
  intro l r h
  rw [ExceptT.run_bind, Program.yields_bind] at h
  obtain ⟨l₁, l₂, a | a, rfl, hfirst, hrest⟩ := h
  · obtain ⟨rfl, rfl⟩ := Program.yields_pure.mp hrest
    rw [List.append_nil]
    obtain hcalm | ⟨e, heq, he, hcut⟩ := hx l₁ _ hfirst
    · exact .inl hcalm
    · cases heq
      exact .inr ⟨a, rfl, he, hcut⟩
  · obtain hcalm | ⟨e, heq, -, -⟩ := hx l₁ _ hfirst
    · obtain hcalm' | ⟨e, hr, he, hcut⟩ := hf a l₂ r hrest
      · exact .inl (calm_append.mpr ⟨hcalm, hcalm'⟩)
      · exact .inr ⟨e, hr, he, hcut.after_calm hcalm⟩
    · cases heq

theorem heeds_ite {c : Prop} [Decidable c] {x y : ExceptT ε Program α} (hx : Heeds tail x)
    (hy : Heeds tail y) : Heeds tail (if c then x else y) := by
  split
  · exact hx
  · exact hy

end Rules

section Steps

variable {α β : Type} {tail : Log → Prop} {host : Host}

/-- What is done with the result of a prompt step need not care for a cancellation. -/
theorem heeds_caught {x : Step α} {f : Except FleetError α → Step β}
    (hx : Leaves (Only Request.IsPrompt) x) (hf : ∀ r, Heeds tail (f r)) :
    Heeds tail (x.caught >>= f) :=
  heeds_bind (heeds_prompt (leaves_caught hx)) hf

theorem heeds_settle (delay : Duration) : Heeds Log.IsNothing (settle delay) := by
  intro l r h
  obtain ⟨rfl, rfl⟩ | ⟨rfl, -, rfl⟩ | ⟨ended, rfl, -, rfl⟩ := settle_cases h
  · exact .inr ⟨_, rfl, rfl, [], _, [], rfl, calm_nil, Bool.noConfusion, rfl⟩
  · exact .inl (List.forall_mem_singleton.mpr rfl)
  · cases ended with
    | true => exact .inl (List.forall_mem_cons.mpr ⟨rfl, List.forall_mem_singleton.mpr rfl⟩)
    | false =>
      have hlisten : Calm [⟨.cancelled, false⟩] := List.forall_mem_singleton.mpr rfl
      exact .inr ⟨_, rfl, rfl, _, _, [], rfl, hlisten, Bool.noConfusion, rfl⟩

/-- A step in a session of its own is followed by the closing of the session. -/
theorem heeds_closes {step : Step α} (h : Heeds Log.IsNothing step) :
    Heeds (Log.Closes host) (inSession host step) := by
  intro l r hl
  obtain ⟨cause, rfl, -⟩ | ⟨inner, rfl, hinner⟩ := inSession_cases hl
  · exact .inl calm_refused
  · obtain hcalm | ⟨e, hr, he, hcut⟩ := h inner r hinner
    · exact .inl (calm_session.mpr hcalm)
    · exact .inr ⟨e, hr, he, hcut.session⟩

theorem heeds_inSession {step : Step α} (h : Heeds Log.IsNothing step) :
    Heeds Log.IsClosing (inSession host step) := (heeds_closes h).mono fun _ => Log.Closes.isClosing

/-- A step in a session that waits for nothing. -/
theorem prompt_inSession {step : Step α} (h : Leaves (Only Request.IsPrompt) step) :
    Leaves (Only Request.IsPrompt) (inSession host step) :=
  leaves_inSession (fun _ => only_singleton.mpr trivial) h (only_singleton.mpr trivial)

theorem query_prompt (host : Host) (command : Command) (kind : ReplyKind) :
    Leaves (Only Request.IsPrompt) (query host command kind) :=
  prompt_inSession (expect_only trivial)

theorem queryToken_prompt (host : Host) (command : Command) :
    Leaves (Only Request.IsPrompt) (queryToken host command) :=
  prompt_inSession (expectToken_only trivial)

/-! ## Polls -/

/-- A look that finds no cancellation. -/
theorem calm_look : Calm [⟨.cancelled, false⟩] := List.forall_mem_singleton.mpr rfl

/-- A look that finds no cancellation, and a wait that is not cut short. -/
theorem calm_waited (interval now : Duration) :
    Calm [⟨.cancelled, false⟩, ⟨.sleep interval, true⟩, ⟨.clock, now⟩] :=
  List.forall_mem_cons.mpr ⟨rfl, List.forall_mem_cons.mpr
    ⟨rfl, List.forall_mem_singleton.mpr trivial⟩⟩

theorem heeds_next (poller : Poller) : Heeds Log.IsNothing poller.next := by
  intro l r h
  obtain ⟨hattempt, hlater⟩ := Poller.next_attempt h
  cases r with
  | ok later =>
    obtain rfl := hlater _ rfl
    cases hattempt with
    | first => exact .inl calm_look
    | later => exact .inl (calm_waited _ _)
  | error e =>
    cases hattempt with
    | cancelled => exact .inr ⟨_, rfl, ⟨_, rfl⟩, [], _, [], rfl, calm_nil, nofun, rfl⟩
    | cutShort => exact .inr ⟨_, rfl, ⟨_, rfl⟩, [_], _, [], rfl, calm_look, nofun, rfl⟩
    | exhausted => exact .inl calm_look
    | late => exact .inl (calm_waited _ _)

/-- A poll whose question waits for nothing. -/
theorem heeds_poll {question : Program (Option α)}
    (hq : Leaves (Only Request.IsPrompt) question) (settings : PollSettings) (awaited : String) :
    Heeds Log.IsNothing (poll settings awaited question) := by
  -- on the fuel; it may run out, which is an end like that of the attempts
  have hask (fuel : Nat) (poller : Poller) :
      Heeds Log.IsNothing (poller.askUntil question fuel) := by
    induction fuel generalizing poller with
    | zero => exact heeds_throw _
    | succ fuel ih =>
      refine heeds_bind (heeds_next poller) fun poller => ?_
      refine heeds_bind (heeds_prompt (leaves_lift_except hq)) fun answer? => ?_
      cases answer? with
      | some answer => exact heeds_pure _
      | none => exact ih poller
  have hstart : Leaves (Only Request.IsPrompt) (Poller.start settings.policy) :=
    leaves_bind (leaves_request fun _ => only_singleton.mpr trivial) fun _ => leaves_pure _
  have huntil : Heeds Log.IsNothing (pollUntil settings.policy question) :=
    heeds_bind (heeds_prompt (leaves_lift_except hstart)) fun poller => hask _ poller
  intro l r h
  obtain ⟨l₁, l₂, result, rfl, hresult, rfl, rfl⟩ := Program.yields_bind.mp h
  rw [List.append_nil]
  obtain hcalm | ⟨e, rfl, ⟨attempts, rfl⟩, hcut⟩ := huntil l₁ result hresult
  · exact .inl hcalm
  · exact .inr ⟨.cancelled, rfl, rfl, hcut⟩

end Steps

/-! ## Parts of procedures -/

namespace Conduct

variable {α β : Type} {tail tail' : Log → Prop} {host : Host}

/-- From any report, either no wait is cut short, or the procedure is aborted as cancelled. -/
def Heeds (tail : Log → Prop) (x : Conduct α) : Prop :=
  ∀ before, NodeFleet.Heeds tail (x.run before)

theorem heeds_prompt {x : Conduct α} (h : Leaves (Only Request.IsPrompt) x) : x.Heeds tail :=
  fun before => NodeFleet.heeds_prompt (h before)

theorem heeds_pure (a : α) : (pure a : Conduct α).Heeds tail := heeds_prompt (leaves_pure a)

theorem heeds_bind {x : Conduct α} {f : α → Conduct β} (hx : x.Heeds tail)
    (hf : ∀ a, (f a).Heeds tail) : (x >>= f).Heeds tail := by
  intro before
  rw [StateT.run_bind]
  exact NodeFleet.heeds_bind (hx before) fun p => hf p.1 p.2

theorem heeds_ite {c : Prop} [Decidable c] {x y : Conduct α} (hx : x.Heeds tail)
    (hy : y.Heeds tail) : (if c then x else y : Conduct α).Heeds tail := by
  split
  · exact hx
  · exact hy

theorem heeds_forM {xs : List α} {f : α → Conduct PUnit} (hf : ∀ a, (f a).Heeds tail) :
    (xs.forM f).Heeds tail := by
  induction xs with
  | nil => exact heeds_pure _
  | cons a xs ih => exact heeds_bind (hf a) fun _ => ih

theorem isCancelled_abort (report : Report) (stage : String) :
    IsCancelled (report.abort stage .cancelled) := ⟨stage, _, rfl⟩

/-- The failure of a step that is needed is that of the procedure. -/
theorem heeds_need {stage : String} {step : Step α} (h : NodeFleet.Heeds tail step) :
    (need stage step).Heeds tail := by
  intro before l r hl
  match r, hl with
  | .ok (a, after), hl =>
    obtain ⟨hstep, -⟩ := ends_need_ok.mp hl
    obtain hcalm | ⟨e, heq, -, -⟩ := h l _ hstep
    · exact .inl hcalm
    · cases heq
  | .error after, hl =>
    obtain ⟨e, hstep, rfl⟩ := ends_need_error.mp hl
    obtain hcalm | ⟨e', heq, rfl, hcut⟩ := h l _ hstep
    · exact .inl hcalm
    · cases heq
      exact .inr ⟨_, rfl, isCancelled_abort before stage, hcut⟩

/-- A part in a session is followed by the closing of the session. -/
theorem heeds_inSession {stage : String} {body : Conduct α} (h : body.Heeds Log.IsNothing) :
    (Conduct.inSession stage host body).Heeds Log.IsClosing := by
  intro before l r hl
  obtain ⟨cause, rfl, -⟩ | ⟨inner, rfl, hinner⟩ := inSession_ends hl
  · exact .inl calm_refused
  · obtain hcalm | ⟨last, hr, hlast, hcut⟩ := h before inner r hinner
    · exact .inl (calm_session.mpr hcalm)
    · exact .inr ⟨last, hr, hlast, hcut.session.mono fun _ => Log.Closes.isClosing⟩

/-- A loop over hosts ends at the host where the operator cancels. -/
theorem heeds_eachHost {stage : String} {hosts : List Host} {step : Host → Step α}
    {detail : α → Option String} (h : ∀ host, NodeFleet.Heeds tail (step host)) :
    (eachHost stage hosts step detail).Heeds tail := by
  refine heeds_forM fun host before l r hl => ?_
  obtain ⟨_, -, hl⟩ | ⟨l₁, l₂, result, mid, rfl, htried, hrest⟩ := ends_bind_cases hl
  · exact absurd hl not_ends_attempt_error
  obtain ⟨hstep, rfl⟩ := ends_attempt_ok.mp htried
  obtain hcalm | ⟨e, rfl, rfl, hcut⟩ := h host l₁ result hstep
  · -- a step in which no wait was cut short leaves nothing more to ask, whatever its result
    have hrest' : Leaves (Only Request.IsPrompt) (do
        if wasCancelled result then abort stage .cancelled
        settled stage host detail result : Conduct Unit) := by
      refine leaves_ite (fun _ => leaves_bind (leaves_abort _ _) fun _ => ?_) fun _ => ?_
      all_goals exact leaves_settled _ _ _ _
    exact .inl (calm_append.mpr ⟨hcalm, (hrest' mid l₂ r hrest).calm⟩)
  · obtain ⟨_, rfl, habort⟩ | ⟨_, _, _, _, -, habort, -⟩ := ends_bind_cases hrest
    · obtain ⟨rfl, heq⟩ := ends_abort.mp habort
      cases heq
      rw [List.append_nil]
      exact .inr ⟨_, rfl, isCancelled_abort mid stage, hcut⟩
    · cases (ends_abort.mp habort).2

/-- A procedure that is cut short ends as aborted by the cancellation. -/
theorem Heeds.concludes {procedure : Procedure} {x : Conduct Unit} (h : x.Heeds tail) {l : Log}
    {report : Report} (hl : (conclude procedure x).Yields l report) :
    Calm l ∨ IsCancelled report ∧ l.CutShort tail := by
  obtain ⟨last, hlast, rfl⟩ | haborted := yields_conclude.mp hl
  · obtain hcalm | ⟨e, heq, -, -⟩ := h _ l _ hlast
    · exact .inl hcalm
    · cases heq
  · obtain hcalm | ⟨e, heq, he, hcut⟩ := h _ l _ haborted
    · exact .inl hcalm
    · cases heq
      exact .inr ⟨he, hcut⟩

end Conduct

/-! ## Lines of stages -/

section Lines

variable {α : Type} {tail : Log → Prop} {name : String}

/-- A stage passes only if no wait is cut short in it; otherwise it fails as cancelled. -/
structure Stage.Heeds {α : Type} (s : Stage α) (tail : Log → Prop) : Prop where
  passes {l : Log} {records : List StageRecord} {a : α} (h : s.Passes l records a) : Calm l
  fails {l : Log} {records : List StageRecord} {e : FleetError} (h : s.Fails l records e) :
    Calm l ∨ e = .cancelled ∧ l.CutShort tail

/-- A line ends where the operator cancels. -/
def Line.Heeds (line : Line) (tail : Log → Prop) : Prop :=
  ∀ l records end?, line.Runs l records end? →
    Calm l ∨ (∃ name, end? = some (name, .cancelled)) ∧ l.CutShort tail

theorem Heeds.calm_of_ok {step : Step α} (h : NodeFleet.Heeds tail step) {l : Log} {a : α}
    (hl : step.run.Yields l (.ok a)) : Calm l := by
  obtain hcalm | ⟨e, heq, -, -⟩ := h l _ hl
  · exact hcalm
  · cases heq

theorem Heeds.of_error {step : Step α} (h : NodeFleet.Heeds tail step) {l : Log} {e : FleetError}
    (hl : step.run.Yields l (.error e)) : Calm l ∨ e = .cancelled ∧ l.CutShort tail := by
  obtain hcalm | ⟨e', heq, rfl, hcut⟩ := h l _ hl
  · exact .inl hcalm
  · cases heq
    exact .inr ⟨rfl, hcut⟩

theorem Stage.heeds_silent {step : Step α} (h : NodeFleet.Heeds tail step) :
    (Stage.silent name step).Heeds tail where
  passes hp := h.calm_of_ok hp.1
  fails hf := h.of_error hf.1

theorem Stage.heeds_on {host : Host} {detail : α → Option String} {step : Step α}
    (h : NodeFleet.Heeds tail step) : (Stage.on name host detail step).Heeds tail where
  passes hp := h.calm_of_ok hp.1
  fails hf := h.of_error hf.1

theorem Stage.Asks.heeds {s : Stage α} (h : s.Asks Request.IsPrompt) : s.Heeds tail where
  passes hp := (h.passes hp).calm
  fails hf := .inl (h.fails hf).calm

theorem Line.heeds_finished : Line.finished.Heeds tail := by
  intro l records end? h
  cases h
  exact .inl calm_nil

theorem Line.heeds_stage {s : Stage α} {next : α → Line} (hs : s.Heeds tail)
    (hnext : ∀ a, (next a).Heeds tail) : (Line.stage s next).Heeds tail := by
  intro l records end? h
  obtain ⟨l₁, l₂, r₁, r₂, a, rfl, -, hp, hrest⟩ | ⟨e, rfl, hf⟩ := Line.runs_stage.mp h
  · obtain hcalm | ⟨hend, hcut⟩ := hnext a l₂ r₂ end? hrest
    · exact .inl (calm_append.mpr ⟨hs.passes hp, hcalm⟩)
    · exact .inr ⟨hend, hcut.after_calm (hs.passes hp)⟩
  · obtain hcalm | ⟨rfl, hcut⟩ := hs.fails hf
    · exact .inl hcalm
    · exact .inr ⟨⟨s.name, rfl⟩, hcut⟩

/-- Where no visit was cancelled, no wait was cut short. -/
theorem Visits.calm {step : Host → Step α} {visits : List (Host × Except FleetError α)} {l : Log}
    (h : Visits step visits l) (hstep : ∀ host, NodeFleet.Heeds tail (step host))
    (hnone : ∀ v ∈ visits, wasCancelled v.2 = false) : Calm l := by
  induction h with
  | nil => exact calm_nil
  | @cons host result _ l₁ _ hv _ ih =>
    have hrest := ih fun v hm => hnone v (List.mem_cons_of_mem _ hm)
    obtain hcalm | ⟨e, rfl, rfl, -⟩ := hstep host l₁ result hv
    · exact calm_append.mpr ⟨hcalm, hrest⟩
    · cases hnone _ List.mem_cons_self

end Lines

end NodeFleet
