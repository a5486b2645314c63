import NodeFleet.Procedure.Conduct
import NodeFleet.Proofs.Leaves
import NodeFleet.Proofs.Session

/-!
# NodeFleet.Proofs.Conducting — how a part of a procedure can end

A part of a procedure starts with a report and ends with a result and the report so far, or with the
final report of an aborted procedure.  `Conduct.Ends` says with which logs it can end how.

* `ends_bind_ok`, `ends_bind_error`, `ends_bind_cases`: one part after another.
* `ends_need_ok`, `ends_need_error`, `ends_attempt`, `ends_enter`, `ends_abort`: the parts that
  procedures are made of.
* `inSession_ends`: a part in a session that it needs.
* `yields_conclude`, `conclude_ends`: a whole procedure.
* `Visits`: one step on each of several hosts, one after the other.  `Covers`: which hosts a loop
  gets to.
* `ends_eachHost`, `eachHost_outcomes`: a loop over hosts, and the results that it enters.
-/

namespace NodeFleet

/-- The report with which a part of a procedure ends, whether the procedure goes on or not. -/
def endReport {α : Type} : Except Report (α × Report) → Report
  | .ok (_, report) => report
  | .error report => report

namespace Conduct

variable {α β : Type} {before after : Report} {l : Log}

/-- From a report, some answers make a part of a procedure leave this log and end like this. -/
def Ends (x : Conduct α) (before : Report) (l : Log) (r : Except Report (α × Report)) : Prop :=
  (x.run before).run.Yields l r

@[simp] theorem ends_pure {a : α} {r : Except Report (α × Report)} :
    (pure a : Conduct α).Ends before l r ↔ l = [] ∧ r = .ok (a, before) := Iff.rfl

@[simp] theorem ends_enter {change : Report → Report} {r : Except Report (Unit × Report)} :
    (enter change).Ends before l r ↔ l = [] ∧ r = .ok ((), change before) := Iff.rfl

/-- What is entered is in the report from then on. -/
theorem ends_enter_bind {change : Report → Report} {f : Unit → Conduct α}
    {r : Except Report (α × Report)} :
    (enter change >>= f).Ends before l r ↔ (f ()).Ends (change before) l r := Iff.rfl

@[simp] theorem ends_abort {stage : String} {e : FleetError} {r : Except Report (α × Report)} :
    (abort stage e : Conduct α).Ends before l r ↔ l = [] ∧ r = .error (before.abort stage e) :=
  Iff.rfl

theorem ends_bind_ok {x : Conduct α} {f : α → Conduct β} {b : β} :
    (x >>= f).Ends before l (.ok (b, after)) ↔
      ∃ l₁ l₂ a mid, l = l₁ ++ l₂ ∧ x.Ends before l₁ (.ok (a, mid)) ∧
        (f a).Ends mid l₂ (.ok (b, after)) := by
  unfold Ends
  rw [StateT.run_bind, Program.yields_bind_ok]
  constructor
  · rintro ⟨l₁, l₂, ⟨a, mid⟩, rfl, h₁, h₂⟩
    exact ⟨l₁, l₂, a, mid, rfl, h₁, h₂⟩
  · rintro ⟨l₁, l₂, a, mid, rfl, h₁, h₂⟩
    exact ⟨l₁, l₂, (a, mid), rfl, h₁, h₂⟩

theorem ends_bind_error {x : Conduct α} {f : α → Conduct β} :
    (x >>= f).Ends before l (.error after) ↔
      x.Ends before l (.error after) ∨
        ∃ l₁ l₂ a mid, l = l₁ ++ l₂ ∧ x.Ends before l₁ (.ok (a, mid)) ∧
          (f a).Ends mid l₂ (.error after) := by
  unfold Ends
  rw [StateT.run_bind, Program.yields_bind_error]
  refine or_congr_right ?_
  constructor
  · rintro ⟨l₁, l₂, ⟨a, mid⟩, rfl, h₁, h₂⟩
    exact ⟨l₁, l₂, a, mid, rfl, h₁, h₂⟩
  · rintro ⟨l₁, l₂, a, mid, rfl, h₁, h₂⟩
    exact ⟨l₁, l₂, (a, mid), rfl, h₁, h₂⟩

/-- One part after another: the first ends the procedure, or the second takes over from it. -/
theorem ends_bind_cases {x : Conduct α} {f : α → Conduct β} {r : Except Report (β × Report)}
    (h : (x >>= f).Ends before l r) :
    (∃ last, r = .error last ∧ x.Ends before l (.error last)) ∨
      ∃ l₁ l₂ a mid, l = l₁ ++ l₂ ∧ x.Ends before l₁ (.ok (a, mid)) ∧ (f a).Ends mid l₂ r := by
  match r, h with
  | .ok (_, _), h => exact .inr (ends_bind_ok.mp h)
  | .error last, h =>
    obtain h | h := ends_bind_error.mp h
    · exact .inl ⟨last, rfl, h⟩
    · exact .inr h

/-- What a part leaves may depend on how the part before it ended. -/
theorem leaves_bind_ends {P : Log → Prop} [Composes P] {x : Conduct α} {f : α → Conduct β}
    (hx : Leaves P x)
    (hf : ∀ before l a mid, x.Ends before l (.ok (a, mid)) → Leaves P (f a)) :
    Leaves P (x >>= f) := by
  intro before l r h
  obtain ⟨last, rfl, hfirst⟩ | ⟨l₁, l₂, a, mid, rfl, hfirst, hrest⟩ := ends_bind_cases h
  · exact hx before l _ hfirst
  · exact Composes.append (hx before l₁ _ hfirst) (hf before l₁ a mid hfirst mid l₂ r hrest)

/-- A program that enters nothing leaves the report as it is. -/
theorem run_lift (p : Program α) (report : Report) :
    ((liftM p : Conduct α).run report).run = p >>= fun a => pure (.ok (a, report)) := by
  show ((liftM p : ExceptT Report Program _) >>= fun a => pure (a, report)).run = _
  rw [Program.run_lift_bind]
  rfl

theorem ends_lift {p : Program α} {r : Except Report (α × Report)} :
    (liftM p : Conduct α).Ends before l r ↔ ∃ a, p.Yields l a ∧ r = .ok (a, before) := by
  unfold Ends
  rw [run_lift, Program.yields_bind]
  constructor
  · rintro ⟨l₁, l₂, a, rfl, h, rfl, rfl⟩
    rw [List.append_nil]
    exact ⟨a, h, rfl⟩
  · rintro ⟨a, h, rfl⟩
    exact ⟨l, [], a, (List.append_nil l).symm, h, rfl, rfl⟩

/-- An attempt always gives a result, and enters nothing. -/
theorem ends_attempt {step : Step α} {r : Except Report (Except FleetError α × Report)} :
    (attempt step).Ends before l r ↔
      ∃ result, step.run.Yields l result ∧ r = .ok (result, before) := ends_lift

@[simp] theorem ends_attempt_ok {step : Step α} {result : Except FleetError α} :
    (attempt step).Ends before l (.ok (result, after)) ↔
      step.run.Yields l result ∧ after = before := by
  rw [ends_attempt]
  constructor
  · rintro ⟨_, h, heq⟩
    cases heq
    exact ⟨h, rfl⟩
  · rintro ⟨h, rfl⟩
    exact ⟨result, h, rfl⟩

@[simp] theorem not_ends_attempt_error {step : Step α} :
    ¬ (attempt step).Ends before l (.error after) := by
  rw [ends_attempt]
  rintro ⟨_, -, heq⟩
  cases heq

theorem ends_need_ok {stage : String} {step : Step α} {a : α} :
    (need stage step).Ends before l (.ok (a, after)) ↔
      step.run.Yields l (.ok a) ∧ after = before := by
  unfold need
  rw [ends_bind_ok]
  constructor
  · rintro ⟨l₁, l₂, result, mid, rfl, h₁, h₂⟩
    obtain ⟨hstep, rfl⟩ := ends_attempt_ok.mp h₁
    cases result with
    | error e => cases (ends_abort.mp h₂).2
    | ok b =>
      obtain ⟨rfl, heq⟩ := ends_pure.mp h₂
      cases heq
      rw [List.append_nil]
      exact ⟨hstep, rfl⟩
  · rintro ⟨hstep, rfl⟩
    exact ⟨l, [], .ok a, after, (List.append_nil l).symm, ends_attempt_ok.mpr ⟨hstep, rfl⟩,
      ends_pure.mpr ⟨rfl, rfl⟩⟩

theorem ends_need_error {stage : String} {step : Step α} :
    (need stage step).Ends before l (.error after) ↔
      ∃ e, step.run.Yields l (.error e) ∧ after = before.abort stage e := by
  unfold need
  rw [ends_bind_error]
  constructor
  · rintro (h | ⟨l₁, l₂, result, mid, rfl, h₁, h₂⟩)
    · exact absurd h not_ends_attempt_error
    · obtain ⟨hstep, rfl⟩ := ends_attempt_ok.mp h₁
      cases result with
      | ok b => cases (ends_pure.mp h₂).2
      | error e =>
        obtain ⟨rfl, heq⟩ := ends_abort.mp h₂
        cases heq
        rw [List.append_nil]
        exact ⟨e, hstep, rfl⟩
  · rintro ⟨e, hstep, rfl⟩
    exact .inr ⟨l, [], .error e, before, (List.append_nil l).symm,
      ends_attempt_ok.mpr ⟨hstep, rfl⟩, ends_abort.mpr ⟨rfl, rfl⟩⟩

/-- A need whose success is entered. -/
theorem ends_needed_ok {stage : String} {host : Host} {step : Step α}
    {detail : α → Option String} :
    (need stage step >>= fun a => passed stage host (detail a)).Ends before l (.ok ((), after)) ↔
      ∃ a, step.run.Yields l (.ok a) ∧ after = before.stageOk stage (some host) (detail a) := by
  rw [ends_bind_ok]
  constructor
  · rintro ⟨l₁, l₂, a, mid, rfl, h₁, h₂⟩
    obtain ⟨hstep, rfl⟩ := ends_need_ok.mp h₁
    obtain ⟨rfl, heq⟩ := ends_enter.mp h₂
    cases heq
    rw [List.append_nil]
    exact ⟨a, hstep, rfl⟩
  · rintro ⟨a, hstep, rfl⟩
    exact ⟨l, [], a, before, (List.append_nil l).symm, ends_need_ok.mpr ⟨hstep, rfl⟩,
      ends_enter.mpr ⟨rfl, rfl⟩⟩

theorem ends_needed_error {stage : String} {host : Host} {step : Step α}
    {detail : α → Option String} :
    (need stage step >>= fun a => passed stage host (detail a)).Ends before l (.error after) ↔
      ∃ e, step.run.Yields l (.error e) ∧ after = before.abort stage e := by
  rw [ends_bind_error, ends_need_error]
  constructor
  · rintro (h | ⟨l₁, l₂, a, mid, rfl, -, h₂⟩)
    · exact h
    · cases (ends_enter.mp h₂).2
  · exact .inl

/-- A part in a session that it needs: without the session the procedure is aborted, and in the
session the part ends as it does. -/
theorem inSession_ends {stage : String} {host : Host} {body : Conduct α}
    {r : Except Report (α × Report)} (h : (inSession stage host body).Ends before l r) :
    (∃ cause, l = Log.refused host cause ∧
      r = .error (before.abort stage (.connectFailure host.name cause))) ∨
      ∃ inner, l = Log.session host inner ∧ body.Ends before inner r := by
  -- the body starts from the report that the part itself starts from
  obtain ⟨_, -, hget⟩ | ⟨l₁, l₂, _, _, rfl, hget, h⟩ := ends_bind_cases h
  · cases hget.2
  obtain ⟨rfl, heq⟩ := hget
  cases heq
  obtain ⟨last, rfl, hneed⟩ | ⟨l₃, l₄, result, mid, rfl, hneed, hlast⟩ := ends_bind_cases h
  · obtain ⟨e, hopen, rfl⟩ := ends_need_error.mp hneed
    obtain ⟨cause, rfl, heq⟩ | ⟨_, _, -, -, heq⟩ := yields_withSession.mp hopen
    · cases heq
      exact .inl ⟨cause, rfl, rfl⟩
    · cases heq
  · obtain ⟨hopen, rfl⟩ := ends_need_ok.mp hneed
    obtain ⟨_, -, heq⟩ | ⟨inner, _, rfl, hbody, heq⟩ := yields_withSession.mp hopen
    · cases heq
    · cases heq
      obtain ⟨rfl, rfl⟩ : l₄ = [] ∧ r = result := by
        match result, hlast with
        | .ok (a, after), hlast => exact hlast
        | .error last, hlast => exact hlast
      exact .inr ⟨inner, by rw [List.nil_append, List.append_nil], hbody⟩

/-- What follows an attempt runs with the report as it was. -/
theorem run_attempt_bind (step : Step α) (f : Except FleetError α → Conduct β) (report : Report) :
    ((attempt step >>= f).run report).run = step.run >>= fun r => ((f r).run report).run := by
  rw [StateT.run_bind]
  show (((liftM step.run : ExceptT Report Program _) >>= fun a => pure (a, report)) >>= fun r =>
    (f r.1).run r.2).run = _
  rw [bind_assoc]
  exact Program.run_lift_bind _ _

/-- A need of two steps is a need of the one and then of the other. -/
theorem need_bind (stage : String) (x : Step α) (f : α → Step β) :
    need stage (x >>= f) = need stage x >>= fun a => need stage (f a) := by
  refine StateT.ext fun s => ExceptT.ext ?_
  unfold need
  rw [bind_assoc, run_attempt_bind, run_attempt_bind, ExceptT.run_bind, bind_assoc]
  refine congrArg (x.run >>= ·) (funext fun r => ?_)
  cases r with
  | ok a => exact (run_attempt_bind _ _ s).symm
  | error e => rfl

/-- A procedure ends with the report that its parts leave, finished unless it was aborted. -/
theorem yields_conclude {procedure : Procedure} {x : Conduct Unit} {report : Report} :
    (conclude procedure x).Yields l report ↔
      (∃ last, x.Ends (.new procedure) l (.ok ((), last)) ∧ report = last.finish) ∨
        x.Ends (.new procedure) l (.error report) := by
  unfold conclude
  rw [Program.yields_bind]
  constructor
  · rintro ⟨l₁, l₂, last | ⟨_, last⟩, rfl, h₁, rfl, rfl⟩
    · rw [List.append_nil]
      exact .inr h₁
    · rw [List.append_nil]
      exact .inl ⟨last, h₁, rfl⟩
  · rintro (⟨last, h, rfl⟩ | h)
    · exact ⟨l, [], _, (List.append_nil l).symm, h, rfl, rfl⟩
    · exact ⟨l, [], _, (List.append_nil l).symm, h, rfl, rfl⟩

/-- The report of a procedure whose parts end like this. -/
def finalReport : Except Report (Unit × Report) → Report
  | .ok (_, last) => last.finish
  | .error last => last

theorem conclude_ends {procedure : Procedure} {x : Conduct Unit} {report : Report}
    (h : (conclude procedure x).Yields l report) :
    ∃ r, x.Ends (.new procedure) l r ∧ report = finalReport r := by
  obtain ⟨last, hlast, rfl⟩ | haborted := yields_conclude.mp h
  · exact ⟨_, hlast, rfl⟩
  · exact ⟨_, haborted, rfl⟩

end Conduct

/-! ## One step on each of several hosts -/

/-- Visits to hosts in turn, each with its result; the logs stand one after the other. -/
inductive Visits {α : Type} (step : Host → Step α) : List (Host × Except FleetError α) → Log → Prop
  | nil : Visits step [] []
  | cons {host : Host} {result : Except FleetError α} {visits : List (Host × Except FleetError α)}
    {l₁ l₂ : Log} (h : (step host).run.Yields l₁ result) (rest : Visits step visits l₂) :
    Visits step ((host, result) :: visits) (l₁ ++ l₂)

namespace Visits

variable {α : Type} {step : Host → Step α} {visits : List (Host × Except FleetError α)} {l : Log}

/-- The log of a visit stands in the log of all visits. -/
theorem of_mem {host : Host} {result : Except FleetError α} (h : Visits step visits l)
    (hm : (host, result) ∈ visits) :
    ∃ l₁ l₂ l₃, l = l₁ ++ (l₂ ++ l₃) ∧ (step host).run.Yields l₂ result := by
  induction h with
  | nil => exact absurd hm List.not_mem_nil
  | @cons _ _ _ l₁ l₂ hv _ ih =>
    rcases List.mem_cons.mp hm with heq | hm
    · cases heq
      exact ⟨[], l₁, l₂, rfl, hv⟩
    · obtain ⟨k₁, k₂, k₃, rfl, hk⟩ := ih hm
      exact ⟨l₁ ++ k₁, k₂, k₃, (List.append_assoc l₁ k₁ _).symm, hk⟩

/-- What is asked in visits is asked in some visit. -/
theorem mem_log {e : Event} (h : Visits step visits l) (he : e ∈ l) :
    ∃ host result l', (host, result) ∈ visits ∧ (step host).run.Yields l' result ∧ e ∈ l' ∧
      l' ⊆ l := by
  induction h with
  | nil => exact absurd he List.not_mem_nil
  | cons hv _ ih =>
    rcases List.mem_append.mp he with he | he
    · exact ⟨_, _, _, List.mem_cons_self, hv, he, List.subset_append_left _ _⟩
    · obtain ⟨host, result, l', hm, hl', hel', hsub⟩ := ih he
      exact ⟨host, result, l', List.mem_cons_of_mem _ hm, hl', hel',
        fun e' he' => List.mem_append_right _ (hsub he')⟩

/-- An event of visits stands in one of them, between those before it and those after it. -/
theorem split {before after : Log} {e : Event} (h : Visits step visits l)
    (hl : l = before ++ e :: after) :
    ∃ early host result remaining l₁ l₂ l₃ l₄,
      visits = early ++ (host, result) :: remaining ∧ before = l₁ ++ l₂ ∧ after = l₃ ++ l₄ ∧
      Visits step early l₁ ∧ (step host).run.Yields (l₂ ++ e :: l₃) result ∧
      Visits step remaining l₄ := by
  induction h generalizing before with
  | nil => exact absurd hl.symm (by simp)
  | @cons host result visits k₁ k₂ hv hrest ih =>
    obtain ⟨mid, rfl, hk⟩ | ⟨inner, rfl, rfl⟩ := split_append hl
    · obtain ⟨early, host', result', remaining, l₁, l₂, l₃, l₄, rfl, rfl, rfl, he, hy, hr⟩ := ih hk
      refine ⟨(host, result) :: early, host', result', remaining, k₁ ++ l₁, l₂, l₃, l₄, rfl, ?_,
        rfl, .cons hv he, hy, hr⟩
      rw [List.append_assoc]
    · exact ⟨[], host, result, visits, [], before, inner, k₂, rfl, rfl, rfl, .nil, hv, hrest⟩

theorem only {A : Request → Prop} (h : Visits step visits l)
    (hA : ∀ v ∈ visits, Leaves (Only A) (step v.1)) : Only A l := by
  intro e he
  obtain ⟨host, result, l', hm, hl', hel', -⟩ := h.mem_log he
  exact hA _ hm l' result hl' e hel'

end Visits

/-- Visits to all hosts, none of which was cancelled, or to the hosts up to the first one at which
the operator cancelled. -/
def Covers {α : Type} (hosts : List Host) (visits : List (Host × Except FleetError α)) : Prop :=
  (hosts = visits.map Prod.fst ∧ ∀ v ∈ visits, wasCancelled v.2 = false) ∨
    ∃ before last after, visits = before ++ [last] ∧
      hosts = before.map Prod.fst ++ last.1 :: after ∧
      (∀ v ∈ before, wasCancelled v.2 = false) ∧ wasCancelled last.2 = true

namespace Conduct

variable {α : Type} {stage : String} {step : Host → Step α} {detail : α → Option String}
  {before : Report} {hosts : List Host} {host : Host} {l : Log}
  {r : Except Report (Unit × Report)}

/-- One round of a loop over hosts enters the result, unless the operator has cancelled. -/
theorem ends_round
    (h : (do
      let result ← attempt (step host)
      if wasCancelled result then abort stage .cancelled
      settled stage host detail result : Conduct Unit).Ends before l r) :
    ∃ result, (step host).run.Yields l result ∧
      r = if wasCancelled result then .error (before.abort stage .cancelled) else
        .ok ((), (before.stageResult stage (some host) detail result).hostResult host result) := by
  obtain ⟨_, -, h⟩ | ⟨l₁, l₂, result, mid, rfl, h₁, h₂⟩ := ends_bind_cases h
  · exact absurd h not_ends_attempt_error
  obtain ⟨hstep, rfl⟩ := ends_attempt_ok.mp h₁
  by_cases hc : wasCancelled result = true
  · rw [if_pos hc] at h₂
    obtain ⟨_, rfl, habort⟩ | ⟨_, _, _, _, -, habort, -⟩ := ends_bind_cases h₂
    · obtain ⟨rfl, heq⟩ := ends_abort.mp habort
      rw [List.append_nil]
      exact ⟨result, hstep, by rw [if_pos hc, heq]⟩
    · cases (ends_abort.mp habort).2
  · rw [if_neg hc] at h₂
    obtain ⟨rfl, rfl⟩ := ends_enter.mp h₂
    rw [List.append_nil]
    exact ⟨result, hstep, by rw [if_neg hc]⟩

/-- The results of visits, as a report has them. -/
def outcomes (visits : List (Host × Except FleetError α)) : List HostOutcome :=
  visits.map fun v => Report.outcomeOf v.1.name v.1.address v.2

theorem settled_outcome (before : Report) (result : Except FleetError α) :
    ((before.stageResult stage (some host) detail result).hostResult host result).outcome =
      before.outcome := by
  cases result with
  | ok _ => rfl
  | error _ => rfl

theorem settled_hosts (before : Report) (result : Except FleetError α) :
    ((before.stageResult stage (some host) detail result).hostResult host result).hosts =
      before.hosts ++ [Report.outcomeOf host.name host.address result] := by
  cases result with
  | ok _ => rfl
  | error _ => rfl

/-- A loop over hosts enters the results of all visits, except that of one that the operator has
cancelled, where it ends. -/
theorem eachHost_outcomes (h : (eachHost stage hosts step detail).Ends before l r) :
    (∃ visits after, Visits step visits l ∧ visits.map Prod.fst = hosts ∧
      (∀ v ∈ visits, wasCancelled v.2 = false) ∧ r = .ok ((), after) ∧
      after.outcome = before.outcome ∧ after.hosts = before.hosts ++ outcomes visits) ∨
    ∃ done host result rest final, Visits step (done ++ [(host, result)]) l ∧
      hosts = done.map Prod.fst ++ host :: rest ∧ (∀ v ∈ done, wasCancelled v.2 = false) ∧
      wasCancelled result = true ∧ r = .error final ∧
      final.outcome = .aborted stage .cancelled FleetError.cancelled.message ∧
      final.hosts = before.hosts ++ outcomes done := by
  -- host by host; a visit that was cancelled is the last, and any other has its result entered
  unfold eachHost at h
  induction hosts generalizing before l r with
  | nil =>
    obtain ⟨rfl, rfl⟩ := ends_pure.mp h
    exact .inl ⟨[], before, .nil, rfl, by simp, rfl, rfl, by simp [outcomes]⟩
  | cons host rest ih =>
    obtain ⟨last, rfl, hround⟩ | ⟨l₁, l₂, _, mid, rfl, hround, hrest⟩ := ends_bind_cases h
    · obtain ⟨result, hstep, heq⟩ := ends_round hround
      split at heq
      · cases heq
        refine .inr ⟨[], host, result, rest, _, ?_, rfl, by simp, ‹_›, rfl, rfl, by
          simp [outcomes, Report.abort, Report.addStage]⟩
        rw [← List.append_nil l]
        exact .cons hstep .nil
      · cases heq
    · obtain ⟨result, hstep, heq⟩ := ends_round hround
      split at heq
      · cases heq
      rename_i hc
      cases heq
      have hcalm : wasCancelled result = false := Bool.eq_false_iff.mpr hc
      obtain ⟨visits, after, hv, rfl, hnone, rfl, houtcome, hhosts⟩ |
        ⟨done, cut, result', rest', final, hv, rfl, hnone, hcut, rfl, houtcome, hhosts⟩ := ih hrest
      · refine .inl ⟨(host, result) :: visits, after, .cons hstep hv, rfl, ?_, rfl, ?_, ?_⟩
        · exact List.forall_mem_cons.mpr ⟨hcalm, hnone⟩
        · rw [houtcome, settled_outcome]
        · rw [hhosts, settled_hosts, List.append_assoc]
          rfl
      · refine .inr ⟨(host, result) :: done, cut, result', rest', final, .cons hstep hv, rfl, ?_,
          hcut, rfl, houtcome, ?_⟩
        · exact List.forall_mem_cons.mpr ⟨hcalm, hnone⟩
        · rw [hhosts, settled_hosts, List.append_assoc]
          rfl

/-- However a loop over hosts ends, it enters the results of its first visits, in the order of the
hosts. -/
theorem eachHost_entered (h : (eachHost stage hosts step detail).Ends before l r) :
    ∃ visits entered, Visits step visits l ∧ entered <+: visits ∧
      entered.map Prod.fst <+: hosts ∧
      (finalReport r).hosts = before.hosts ++ outcomes entered := by
  obtain ⟨visits, after, hv, rfl, -, rfl, -, hhosts⟩ |
    ⟨done, host, result, rest, final, hv, rfl, -, -, rfl, -, hhosts⟩ := eachHost_outcomes h
  · exact ⟨visits, visits, hv, List.prefix_rfl, List.prefix_rfl, hhosts⟩
  · exact ⟨_, done, hv, List.prefix_append done _, List.prefix_append _ _, hhosts⟩

/-- The procedure goes on after this part. -/
def GoesOn (r : Except Report (Unit × Report)) : Prop := ∃ after, r = .ok ((), after)

/-- How a loop over hosts can end: it goes on unless the operator has cancelled a visit, which is
then the last. -/
def Loops (step : Host → Step α) (hosts : List Host) (l : Log)
    (r : Except Report (Unit × Report)) : Prop :=
  ∃ visits, Visits step visits l ∧ Covers hosts visits ∧
    (GoesOn r ↔ ∀ v ∈ visits, wasCancelled v.2 = false)

/-- A loop over hosts visits them all, or ends where the operator cancels. -/
theorem ends_eachHost (h : (eachHost stage hosts step detail).Ends before l r) :
    Loops step hosts l r := by
  obtain ⟨visits, after, hv, rfl, hcalm, rfl, -⟩ |
    ⟨done, host, result, rest, final, hv, rfl, hcalm, hcut, rfl, -⟩ := eachHost_outcomes h
  · exact ⟨visits, hv, .inl ⟨rfl, hcalm⟩, fun _ => hcalm, fun _ => ⟨after, rfl⟩⟩
  · refine ⟨_, hv, .inr ⟨done, (host, result), rest, rfl, rfl, hcalm, hcut⟩, ?_⟩
    refine iff_of_false (by simp [GoesOn]) fun hall => ?_
    have hnone := hall (host, result) (by simp)
    exact Bool.false_ne_true (hnone.symm.trans hcut)

end Conduct

end NodeFleet
