import NodeFleet.Procedure.ColdRestart
import NodeFleet.Proofs.Conducting

/-!
# NodeFleet.Proofs.Stages — a straight line of stages, the first failure of which is the end

A `Line` is a machine: it stands before a stage; the stage passes, and what it gives decides what
the next stage works with, or it fails, and that is the end.  `Line.Runs` says with which log, which
entries and which end a line can run.  A procedure follows a line when each of its runs is a run of
the line (`Conduct.Follows`), and `Line.Runs.entries` says what its report holds then.

* `Stage`: the name, the hosts that it owes an entry, and how it passes and fails.  `Stage.silent`,
  `Stage.on`, `Stage.collected`, `Stage.inTurn`: the four kinds.
* `Line`, `Line.Runs`, `Line.HasPlan`: the machine, its runs, and the order of its stages.
* `Stage.Logs`, `Line.Logs`: what can be said of every log of a stage, or a line.
* `Stage.Asks`, `Line.Asks`: which requests a stage, or a line, may make.
* `Report.Concludes`: what a final report says of a run of a line.
* `Conduct.follows_on`, `Conduct.follows_bind`, ...: the rules by which a procedure follows a line.
-/

namespace NodeFleet

/-! ## Entries -/

/-- The stage and the host of an entry. -/
def StageRecord.place (r : StageRecord) : String × Option String := (r.stage, r.host?)

/-- The entry of the stage that ended the procedure; it names no host. -/
def endEntry (name : String) (e : FleetError) : StageRecord := ⟨name, none, false, some e.message⟩

/-- The entry of a stage on a host, good or bad. -/
def hostEntry (name : String) (host : Host) : Except FleetError α → StageRecord
  | .ok _ => ⟨name, some host.name, true, none⟩
  | .error e => ⟨name, some host.name, false, some e.message⟩

/-- The places of the entries that a stage owes, one for each of its hosts. -/
def owed (name : String) (hosts : List Host) : List (String × Option String) :=
  hosts.map fun host => (name, some host.name)

/-- The entries of visits. -/
def visitEntries (name : String) (visits : List (Host × Except FleetError α)) : List StageRecord :=
  visits.map fun v => hostEntry name v.1 v.2

theorem visitEntries_places (name : String) (visits : List (Host × Except FleetError α)) :
    (visitEntries name visits).map StageRecord.place = owed name (visits.map Prod.fst) := by
  unfold visitEntries owed
  rw [List.map_map, List.map_map]
  refine List.map_congr_left fun v _ => ?_
  obtain ⟨host, result⟩ := v
  cases result with
  | ok _ => rfl
  | error _ => rfl

theorem firstFailure?_eq_none {ε : Type} {results : List (Except ε α)} :
    firstFailure? results = none ↔ ∀ r ∈ results, ∃ a, r = .ok a := by
  induction results with
  | nil => simp [firstFailure?]
  | cons r rest ih =>
    cases r with
    | ok a => simp [firstFailure?, ih]
    | error e => simp [firstFailure?]

theorem mem_of_firstFailure? {ε : Type} {results : List (Except ε α)} {e : ε}
    (h : firstFailure? results = some e) : .error e ∈ results := by
  induction results with
  | nil => cases h
  | cons r rest ih =>
    cases r with
    | ok a => exact List.mem_cons_of_mem _ (ih h)
    | error e' =>
      cases h
      exact List.mem_cons_self

theorem visitEntries_ok {name : String} {visits : List (Host × Except FleetError α)}
    (h : firstFailure? (visits.map Prod.snd) = none) : ∀ r ∈ visitEntries name visits, r.ok := by
  intro r hr
  obtain ⟨⟨host, result⟩, hv, rfl⟩ := List.mem_map.mp hr
  obtain ⟨a, rfl⟩ := firstFailure?_eq_none.mp h result (List.mem_map.mpr ⟨_, hv, rfl⟩)
  rfl

/-! ## Stages -/

/-- A stage of a procedure.  It passes with a result or fails; in both cases it leaves a log and
entries. -/
structure Stage (α : Type) where
  name : String
  /-- The hosts each of which has an entry once the stage has passed. -/
  hosts : List Host
  /-- Whether every host is tried before the stage is judged. -/
  triesAll : Bool
  Passes : Log → List StageRecord → α → Prop
  Fails : Log → List StageRecord → FleetError → Prop
  passes_entries {l : Log} {records : List StageRecord} {a : α} (h : Passes l records a) :
    records.map StageRecord.place = owed name hosts ∧ ∀ r ∈ records, r.ok
  fails_entries {l : Log} {records : List StageRecord} {e : FleetError} (h : Fails l records e) :
    records.map StageRecord.place <+: owed name hosts ∧
      if triesAll then records.map StageRecord.place = owed name hosts else ∀ r ∈ records, r.ok

namespace Stage

/-- A stage without an entry of its own. -/
def silent (name : String) (step : Step α) : Stage α where
  name
  hosts := []
  triesAll := false
  Passes l records a := step.run.Yields l (.ok a) ∧ records = []
  Fails l records e := step.run.Yields l (.error e) ∧ records = []
  passes_entries := by
    rintro l records a ⟨-, rfl⟩
    exact ⟨rfl, fun r hr => absurd hr List.not_mem_nil⟩
  fails_entries := by
    rintro l records e ⟨-, rfl⟩
    exact ⟨List.prefix_refl _, fun r hr => absurd hr List.not_mem_nil⟩

/-- A stage on one host, with an entry once it has passed. -/
def on (name : String) (host : Host) (detail : α → Option String) (step : Step α) : Stage α where
  name
  hosts := [host]
  triesAll := false
  Passes l records a :=
    step.run.Yields l (.ok a) ∧ records = [⟨name, some host.name, true, detail a⟩]
  Fails l records e := step.run.Yields l (.error e) ∧ records = []
  passes_entries := by
    rintro l records a ⟨-, rfl⟩
    refine ⟨rfl, fun r hr => ?_⟩
    obtain rfl := List.mem_singleton.mp hr
    rfl
  fails_entries := by
    rintro l records e ⟨-, rfl⟩
    exact ⟨List.nil_prefix, fun r hr => absurd hr List.not_mem_nil⟩

/-- A stage that tries every host, and fails with the first failure when all have been tried. -/
def collected (name : String) (hosts : List Host) (step : Host → Step α) : Stage Unit where
  name
  hosts
  triesAll := true
  Passes l records _ := ∃ visits, Visits step visits l ∧ visits.map Prod.fst = hosts ∧
    firstFailure? (visits.map Prod.snd) = none ∧ records = visitEntries name visits
  Fails l records e := ∃ visits, Visits step visits l ∧ visits.map Prod.fst = hosts ∧
    firstFailure? (visits.map Prod.snd) = some e ∧ records = visitEntries name visits
  passes_entries := by
    rintro l records _ ⟨visits, -, rfl, hok, rfl⟩
    exact ⟨visitEntries_places name visits, visitEntries_ok hok⟩
  fails_entries := by
    rintro l records e ⟨visits, -, rfl, -, rfl⟩
    have hplaces := visitEntries_places name visits
    exact ⟨hplaces ▸ List.prefix_refl _, hplaces⟩

/-- A stage that goes from host to host, and fails at once where a host fails. -/
def inTurn (name : String) (hosts : List Host) (step : Host → Step α) : Stage Unit where
  name
  hosts
  triesAll := false
  Passes l records _ := ∃ visits, Visits step visits l ∧ visits.map Prod.fst = hosts ∧
    firstFailure? (visits.map Prod.snd) = none ∧ records = visitEntries name visits
  Fails l records e := ∃ visits host rest l₁ l₂, Visits step visits l₁ ∧
    hosts = visits.map Prod.fst ++ host :: rest ∧ firstFailure? (visits.map Prod.snd) = none ∧
    (step host).run.Yields l₂ (.error e) ∧ l = l₁ ++ l₂ ∧ records = visitEntries name visits
  passes_entries := by
    rintro l records _ ⟨visits, -, rfl, hok, rfl⟩
    exact ⟨visitEntries_places name visits, visitEntries_ok hok⟩
  fails_entries := by
    rintro l records e ⟨visits, host, rest, l₁, l₂, -, rfl, hok, -, -, rfl⟩
    refine ⟨?_, visitEntries_ok hok⟩
    rw [visitEntries_places]
    unfold owed
    rw [List.map_append]
    exact List.prefix_append _ _

end Stage

/-! ## Lines -/

/-- A straight line of stages; what a stage gives is known to those after it. -/
inductive Line : Type 1 where
  | finished
  | stage {α : Type} (s : Stage α) (next : α → Line)

namespace Line

/-- A line runs from stage to stage as long as they pass; the first that fails is the end, which is
then named with its cause. -/
inductive Runs : Line → Log → List StageRecord → Option (String × FleetError) → Prop
  | finished : Runs .finished [] [] none
  | passed {α : Type} {s : Stage α} {next : α → Line} {l₁ l₂ : Log} {r₁ r₂ : List StageRecord}
    {a : α} {end? : Option (String × FleetError)} (h : s.Passes l₁ r₁ a)
    (rest : Runs (next a) l₂ r₂ end?) : Runs (.stage s next) (l₁ ++ l₂) (r₁ ++ r₂) end?
  | failed {α : Type} {s : Stage α} {next : α → Line} {l : Log} {records : List StageRecord}
    {e : FleetError} (h : s.Fails l records e) :
    Runs (.stage s next) l records (some (s.name, e))

theorem runs_stage {α : Type} {s : Stage α} {next : α → Line} {l : Log}
    {records : List StageRecord} {end? : Option (String × FleetError)} :
    Runs (.stage s next) l records end? ↔
      (∃ l₁ l₂ r₁ r₂ a, l = l₁ ++ l₂ ∧ records = r₁ ++ r₂ ∧ s.Passes l₁ r₁ a ∧
        Runs (next a) l₂ r₂ end?) ∨
      ∃ e, end? = some (s.name, e) ∧ s.Fails l records e := by
  constructor
  · intro h
    cases h with
    | passed hp hr => exact .inl ⟨_, _, _, _, _, rfl, rfl, hp, hr⟩
    | failed hf => exact .inr ⟨_, rfl, hf⟩
  · rintro (⟨l₁, l₂, r₁, r₂, a, rfl, rfl, hp, hr⟩ | ⟨e, rfl, hf⟩)
    · exact .passed hp hr
    · exact .failed hf

/-- A stage of a plan: its name, the hosts that it owes an entry, and whether it tries them all. -/
structure Planned where
  name : String
  hosts : List Host
  triesAll : Bool

/-- The places of the entries of a plan in their order. -/
def places (plan : List Planned) : List (String × Option String) :=
  plan.flatMap fun p => owed p.name p.hosts

/-- The stages of a line stand in this order, whatever they give when they pass. -/
inductive HasPlan : Line → List Planned → Prop
  | finished : HasPlan .finished []
  | stage {α : Type} {s : Stage α} {next : α → Line} {plan : List Planned}
    (h : ∀ l records a, s.Passes l records a → HasPlan (next a) plan) :
    HasPlan (.stage s next) (⟨s.name, s.hosts, s.triesAll⟩ :: plan)

/-- The entries of a run: all of the plan and all good, or those of the stages before the one that
ended the run, and what that one has left. -/
def Entered (plan : List Planned) (records : List StageRecord) :
    Option (String × FleetError) → Prop
  | none => records.map StageRecord.place = places plan ∧ ∀ r ∈ records, r.ok
  | some (name, _) =>
    ∃ before last after done part, plan = before ++ last :: after ∧ last.name = name ∧
      records = done ++ part ∧ done.map StageRecord.place = places before ∧ (∀ r ∈ done, r.ok) ∧
      part.map StageRecord.place <+: owed name last.hosts ∧
      if last.triesAll then part.map StageRecord.place = owed name last.hosts
      else ∀ r ∈ part, r.ok

theorem Entered.cons {plan : List Planned} {p : Planned} {r₁ r₂ : List StageRecord}
    {end? : Option (String × FleetError)} (hplaces : r₁.map StageRecord.place = owed p.name p.hosts)
    (hok : ∀ r ∈ r₁, r.ok) (h : Entered plan r₂ end?) : Entered (p :: plan) (r₁ ++ r₂) end? := by
  have hall {rs : List StageRecord} (hrs : ∀ r ∈ rs, r.ok) : ∀ r ∈ r₁ ++ rs, r.ok :=
    fun r hr => (List.mem_append.mp hr).elim (hok r) (hrs r)
  have hmap {rs : List StageRecord} {before : List Planned}
      (hrs : rs.map StageRecord.place = places before) :
      (r₁ ++ rs).map StageRecord.place = places (p :: before) := by
    rw [List.map_append, hplaces, hrs]
    rfl
  match end?, h with
  | none, ⟨h₁, h₂⟩ => exact ⟨hmap h₁, hall h₂⟩
  | some _, ⟨before, last, after, done, part, hplan, hname, hrecords, hdone, hdok, hpart⟩ =>
    subst hplan hrecords
    exact ⟨p :: before, last, after, r₁ ++ done, part, rfl, hname,
      (List.append_assoc r₁ done part).symm, hmap hdone, hall hdok, hpart⟩

/-- A run enters what its line has planned, up to its end. -/
theorem Runs.entered {line : Line} {l : Log} {records : List StageRecord}
    {end? : Option (String × FleetError)} {plan : List Planned} (h : line.Runs l records end?)
    (hplan : line.HasPlan plan) : Entered plan records end? := by
  induction h generalizing plan with
  | finished =>
    cases hplan
    exact ⟨rfl, fun r hr => absurd hr List.not_mem_nil⟩
  | @passed _ s _ _ _ _ _ a _ hp _ ih =>
    cases hplan with
    | stage hnext =>
      obtain ⟨hplaces, hok⟩ := s.passes_entries hp
      exact Entered.cons hplaces hok (ih (hnext _ _ a hp))
  | @failed _ s _ _ records _ hf =>
    cases hplan with
    | stage _ =>
      obtain ⟨hpart, hall⟩ := s.fails_entries hf
      exact ⟨[], _, _, [], records, rfl, rfl, rfl, rfl, fun r hr => absurd hr List.not_mem_nil,
        hpart, hall⟩

/-- The entries of a run stand at the places that the plan names, from the first on. -/
theorem Entered.prefix_places {plan : List Planned} {records : List StageRecord}
    {end? : Option (String × FleetError)} (h : Entered plan records end?) :
    records.map StageRecord.place <+: places plan := by
  match end?, h with
  | none, ⟨h, _⟩ => exact h ▸ List.prefix_refl _
  | some (name, e), ⟨before, last, after, done, part, hplan, hname, hrecords, hdone, _, hpart, _⟩ =>
    subst hplan hname hrecords
    have hplaces : places (before ++ last :: after) =
        places before ++ (owed last.name last.hosts ++ places after) := by
      simp [places, List.flatMap_append]
    rw [hplaces, List.map_append, hdone, List.prefix_append_right_inj]
    exact hpart.trans (List.prefix_append _ _)

end Line

/-! ## What can be said of the logs of a line -/

/-- Whether it passes or fails, every log of a stage has a property. -/
structure Stage.Logs {α : Type} (s : Stage α) (P : Log → Prop) : Prop where
  passes {l : Log} {records : List StageRecord} {a : α} (h : s.Passes l records a) : P l
  fails {l : Log} {records : List StageRecord} {e : FleetError} (h : s.Fails l records e) : P l

/-- Every log of a line has a property. -/
def Line.Logs (line : Line) (P : Log → Prop) : Prop :=
  ∀ l records end?, line.Runs l records end? → P l

section Logs

variable {α : Type} {P Q R : Log → Prop} {name : String}

theorem Stage.logs_silent {step : Step α} (h : Leaves P step) :
    (Stage.silent name step).Logs P where
  passes hp := h _ _ hp.1
  fails hf := h _ _ hf.1

theorem Stage.logs_on {host : Host} {detail : α → Option String} {step : Step α}
    (h : Leaves P step) : (Stage.on name host detail step).Logs P where
  passes hp := h _ _ hp.1
  fails hf := h _ _ hf.1

/-- The log of a line is that of its first stage, or has that of the rest of the line after it. -/
theorem Line.logs_stage {s : Stage α} {next : α → Line} (hs : s.Logs P)
    (hnext : ∀ a, (next a).Logs Q) (hfail : ∀ l, P l → R l)
    (happend : ∀ l₁ l₂, P l₁ → Q l₂ → R (l₁ ++ l₂)) : (Line.stage s next).Logs R := by
  intro l records end? h
  obtain ⟨l₁, l₂, r₁, r₂, a, rfl, -, hp, hrest⟩ | ⟨e, -, hf⟩ := Line.runs_stage.mp h
  · exact happend l₁ l₂ (hs.passes hp) (hnext a l₂ r₂ end? hrest)
  · exact hfail l (hs.fails hf)

end Logs

/-! ## What a line may ask -/

/-- Whether it passes or fails, a stage makes only certain requests. -/
structure Stage.Asks {α : Type} (s : Stage α) (A : Request → Prop) : Prop where
  passes {l : Log} {records : List StageRecord} {a : α} (h : s.Passes l records a) : Only A l
  fails {l : Log} {records : List StageRecord} {e : FleetError} (h : s.Fails l records e) : Only A l

/-- A line makes only certain requests. -/
def Line.Asks (line : Line) (A : Request → Prop) : Prop :=
  ∀ l records end?, line.Runs l records end? → Only A l

section Asks

variable {α : Type} {A : Request → Prop} {name : String}

theorem Stage.asks_silent {step : Step α} (h : Leaves (Only A) step) :
    (Stage.silent name step).Asks A where
  passes hp := h _ _ hp.1
  fails hf := h _ _ hf.1

theorem Stage.asks_on {host : Host} {detail : α → Option String} {step : Step α}
    (h : Leaves (Only A) step) : (Stage.on name host detail step).Asks A where
  passes hp := h _ _ hp.1
  fails hf := h _ _ hf.1

theorem Stage.asks_collected {hosts : List Host} {step : Host → Step α}
    (h : ∀ host, Leaves (Only A) (step host)) : (Stage.collected name hosts step).Asks A where
  passes := by
    rintro l records _ ⟨visits, hv, -⟩
    exact hv.only fun v _ => h v.1
  fails := by
    rintro l records e ⟨visits, hv, -⟩
    exact hv.only fun v _ => h v.1

theorem Stage.asks_inTurn {hosts : List Host} {step : Host → Step α}
    (h : ∀ host, Leaves (Only A) (step host)) : (Stage.inTurn name hosts step).Asks A where
  passes := by
    rintro l records _ ⟨visits, hv, -⟩
    exact hv.only fun v _ => h v.1
  fails := by
    rintro l records e ⟨visits, host, rest, l₁, l₂, hv, -, -, hlast, rfl, -⟩
    exact Composes.append (hv.only fun v _ => h v.1) (h host l₂ _ hlast)

theorem Line.asks_finished : Line.finished.Asks A := by
  intro l records end? h
  cases h
  exact Composes.nil

theorem Line.asks_stage {s : Stage α} {next : α → Line} (hs : s.Asks A)
    (hnext : ∀ a, (next a).Asks A) : (Line.stage s next).Asks A := by
  have hlogs : s.Logs (Only A) := ⟨hs.passes, hs.fails⟩
  exact Line.logs_stage hlogs hnext (fun _ hl => hl) fun _ _ => Composes.append

/-- A line beyond a stage: the stage makes its requests and fails, or it passes, and the rest of the
line comes after. -/
theorem Line.Runs.beyond {s : Stage α} {next : α → Line} {l : Log} {records : List StageRecord}
    {end? : Option (String × FleetError)} (h : Line.Runs (.stage s next) l records end?)
    (hs : s.Asks A) :
    Only A l ∨ ∃ l₁ l₂ r₁ r₂ a, l = l₁ ++ l₂ ∧ Only A l₁ ∧ s.Passes l₁ r₁ a ∧
      (next a).Runs l₂ r₂ end? := by
  obtain ⟨l₁, l₂, r₁, r₂, a, rfl, -, hp, hrest⟩ | ⟨e, -, hf⟩ := Line.runs_stage.mp h
  · exact .inr ⟨l₁, l₂, r₁, r₂, a, rfl, hs.passes hp, hp, hrest⟩
  · exact .inl (hs.fails hf)

end Asks

/-! ## Procedures that follow a line -/

/-- A report with more entries. -/
structure Report.Adds (before : Report) (records : List StageRecord) (after : Report) : Prop where
  stages : after.stages = before.stages ++ records
  outcome : after.outcome = before.outcome

/-- A report with more entries that was then aborted at a stage. -/
structure Report.Stops (before : Report) (records : List StageRecord) (name : String)
    (e : FleetError) (after : Report) : Prop where
  stages : after.stages = before.stages ++ records ++ [endEntry name e]
  outcome : after.outcome = .aborted name e.kind e.message

/-- A final report: the entries of a run, and where that ended. -/
structure Report.Concludes (report : Report) (records : List StageRecord)
    (end? : Option (String × FleetError)) : Prop where
  stages : report.stages = records ++ (end?.map fun f => endEntry f.1 f.2).toList
  outcome : report.outcome =
    match end? with
    | none => .completed
    | some (name, e) => .aborted name e.kind e.message

theorem Report.Concludes.abortedAt? {report : Report} {records : List StageRecord}
    {end? : Option (String × FleetError)} (h : report.Concludes records end?) :
    report.abortedAt? = end?.map fun f => (f.1, f.2.kind) := by
  unfold Report.abortedAt?
  rw [h.outcome]
  cases end? with
  | none => rfl
  | some _ => rfl

theorem Report.Adds.none {before after : Report} (hs : after.stages = before.stages)
    (ho : after.outcome = before.outcome) : before.Adds [] after :=
  ⟨by rw [hs, List.append_nil], ho⟩

theorem Report.Adds.trans {before mid after : Report} {r₁ r₂ : List StageRecord}
    (h₁ : before.Adds r₁ mid) (h₂ : mid.Adds r₂ after) : before.Adds (r₁ ++ r₂) after := by
  refine ⟨?_, h₂.outcome.trans h₁.outcome⟩
  rw [h₂.stages, h₁.stages, List.append_assoc]

theorem Report.Adds.stops {before mid after : Report} {r₁ r₂ : List StageRecord} {name : String}
    {e : FleetError} (h₁ : before.Adds r₁ mid) (h₂ : mid.Stops r₂ name e after) :
    before.Stops (r₁ ++ r₂) name e after := by
  refine ⟨?_, h₂.outcome⟩
  rw [h₂.stages, h₁.stages, List.append_assoc before.stages]

/-- A good entry on a host is one more entry. -/
theorem Report.adds_passed (before : Report) (name : String) (host : Host) (a : α) :
    before.Adds [hostEntry name host (.ok a : Except FleetError α)]
      (before.stageOk name (some host) none) := ⟨rfl, rfl⟩

theorem Report.stops_abort (before : Report) (name : String) (e : FleetError) :
    before.Stops [] name e (before.abort name e) := by
  refine ⟨?_, rfl⟩
  rw [List.append_nil]
  rfl

namespace Conduct

variable {α β : Type} {name : String}

/-- A part of a procedure is a stage: it ends as the stage passes or fails, and enters what the
stage leaves. -/
structure Conducts (x : Conduct α) (s : Stage α) : Prop where
  passes {before after : Report} {l : Log} {a : α} (h : x.Ends before l (.ok (a, after))) :
    ∃ records, s.Passes l records a ∧ before.Adds records after
  fails {before after : Report} {l : Log} (h : x.Ends before l (.error after)) :
    ∃ records e, s.Fails l records e ∧ before.Stops records s.name e after

/-- The rest of a procedure follows a line: each of its runs is a run of the line, and enters what
that leaves. -/
structure Follows (x : Conduct Unit) (line : Line) : Prop where
  passes {before after : Report} {l : Log} (h : x.Ends before l (.ok ((), after))) :
    ∃ records, line.Runs l records none ∧ before.Adds records after
  fails {before after : Report} {l : Log} (h : x.Ends before l (.error after)) :
    ∃ records name e, line.Runs l records (some (name, e)) ∧ before.Stops records name e after

/-! ### Single stages -/

theorem conducts_silent {step : Step α} : (need name step).Conducts (.silent name step) where
  passes := by
    intro before after l a h
    obtain ⟨hstep, rfl⟩ := ends_need_ok.mp h
    exact ⟨[], ⟨hstep, rfl⟩, .none rfl rfl⟩
  fails := by
    intro before after l h
    obtain ⟨e, hstep, rfl⟩ := ends_need_error.mp h
    exact ⟨[], e, ⟨hstep, rfl⟩, before.stops_abort name e⟩

theorem conducts_on (name : String) (host : Host) (detail : α → Option String) (step : Step α) :
    (do
      let a ← need name step
      passed name host (detail a)
      pure a : Conduct α).Conducts (.on name host detail step) where
  passes := by
    intro before after l a h
    obtain ⟨l₁, l₂, b, mid, rfl, h₁, h₂⟩ := ends_bind_ok.mp h
    obtain ⟨hstep, rfl⟩ := ends_need_ok.mp h₁
    obtain ⟨rfl, heq⟩ := h₂
    cases heq
    rw [List.append_nil]
    exact ⟨_, ⟨hstep, rfl⟩, rfl, rfl⟩
  fails := by
    intro before after l h
    obtain h | ⟨l₁, l₂, b, mid, rfl, h₁, h₂⟩ := ends_bind_error.mp h
    · obtain ⟨e, hstep, rfl⟩ := ends_need_error.mp h
      exact ⟨[], e, ⟨hstep, rfl⟩, before.stops_abort name e⟩
    · cases h₂.2

/-- Visits to hosts that are needed, one after the other. -/
theorem conducts_inTurn {hosts : List Host} {step : Host → Step Unit} :
    (hosts.forM fun host => do
      need name (step host)
      passed name host none : Conduct Unit).Conducts (.inTurn name hosts step) where
  -- both by induction on the hosts: each is visited only when all before it have succeeded
  passes := by
    intro before after l _ h
    induction hosts generalizing before l with
    | nil =>
      obtain ⟨rfl, heq⟩ := ends_pure.mp h
      cases heq
      exact ⟨[], ⟨[], .nil, rfl, rfl, rfl⟩, .none rfl rfl⟩
    | cons host rest ih =>
      obtain ⟨l₁, l₂, _, mid, rfl, h₁, h₂⟩ := ends_bind_ok.mp h
      obtain ⟨a, hstep, rfl⟩ := ends_needed_ok.mp h₁
      obtain ⟨records, ⟨visits, hv, rfl, hok, rfl⟩, hadds⟩ := ih h₂
      refine ⟨_, ⟨(host, .ok a) :: visits, .cons hstep hv, rfl, hok, rfl⟩, ?_⟩
      exact (before.adds_passed name host a).trans hadds
  fails := by
    intro before after l h
    induction hosts generalizing before l with
    | nil => cases (ends_pure.mp h).2
    | cons host rest ih =>
      obtain h | ⟨l₁, l₂, _, mid, rfl, h₁, h₂⟩ := ends_bind_error.mp h
      · obtain ⟨e, hstep, rfl⟩ := ends_needed_error.mp h
        exact ⟨[], e, ⟨[], host, rest, [], l, .nil, rfl, rfl, hstep, rfl, rfl⟩,
          before.stops_abort name e⟩
      · obtain ⟨a, hstep, rfl⟩ := ends_needed_ok.mp h₁
        obtain ⟨records, e, ⟨visits, last, rest', m₁, m₂, hv, rfl, hok, hlast, rfl, rfl⟩, hstops⟩ :=
          ih h₂
        refine ⟨_, e, ⟨(host, .ok a) :: visits, last, rest', l₁ ++ m₁, m₂, .cons hstep hv, rfl, hok,
          hlast, (List.append_assoc l₁ m₁ m₂).symm, rfl⟩, ?_⟩
        exact (before.adds_passed name host a).stops hstops

/-- An attempt on a host that is entered, whatever comes of it. -/
def tried (name : String) (step : Step α) (host : Host) : Conduct (Except FleetError α) := do
  let result ← attempt step
  enter fun r => r.stageResult name (some host) (fun _ => none) result
  pure result

theorem ends_tried {step : Step α} {host : Host} {before : Report} {l : Log}
    {r : Except Report (Except FleetError α × Report)}
    (h : (tried name step host).Ends before l r) :
    ∃ result after, step.run.Yields l result ∧ before.Adds [hostEntry name host result] after ∧
      r = .ok (result, after) := by
  obtain ⟨_, -, h⟩ | ⟨l₁, l₂, result, mid, rfl, h₁, h₂⟩ := ends_bind_cases h
  · exact absurd h not_ends_attempt_error
  obtain ⟨hstep, rfl⟩ := ends_attempt_ok.mp h₁
  obtain ⟨rfl, rfl⟩ := h₂
  rw [List.append_nil]
  refine ⟨result, _, hstep, ?_, rfl⟩
  cases result with
  | ok _ => exact ⟨rfl, rfl⟩
  | error _ => exact ⟨rfl, rfl⟩

/-- Attempts on all hosts give a result for each, and their entries. -/
theorem ends_attempts {hosts : List Host} {step : Host → Step α} {before : Report} {l : Log}
    {r : Except Report (List (Except FleetError α) × Report)}
    (h : (hosts.mapM fun host => tried name (step host) host).Ends before l r) :
    ∃ visits after, Visits step visits l ∧ visits.map Prod.fst = hosts ∧
      before.Adds (visitEntries name visits) after ∧ r = .ok (visits.map Prod.snd, after) := by
  induction hosts generalizing before l r with
  | nil =>
    rw [List.mapM_nil] at h
    obtain ⟨rfl, rfl⟩ := ends_pure.mp h
    exact ⟨[], before, .nil, rfl, .none rfl rfl, rfl⟩
  | cons host rest ih =>
    rw [List.mapM_cons] at h
    obtain ⟨_, -, h⟩ | ⟨l₁, l₂, _, mid, rfl, h₁, h₂⟩ := ends_bind_cases h
    · obtain ⟨_, _, -, -, heq⟩ := ends_tried h
      cases heq
    obtain ⟨result, _, hstep, hadds, heq⟩ := ends_tried h₁
    cases heq
    obtain ⟨_, -, h⟩ | ⟨k₁, k₂, _, _, rfl, hk, hk₂⟩ := ends_bind_cases h₂
    · obtain ⟨_, _, -, -, -, heq⟩ := ih h
      cases heq
    obtain ⟨visits, _, hv, hhosts, hadds', heq⟩ := ih hk
    cases heq
    obtain ⟨rfl, rfl⟩ := ends_pure.mp hk₂
    rw [List.append_nil]
    exact ⟨_ :: visits, _, .cons hstep hv, congrArg (host :: ·) hhosts, hadds.trans hadds', rfl⟩

/-- Attempts on all hosts, the first failure of which is the end once all have been made. -/
theorem conducts_collected {hosts : List Host} {step : Host → Step α} :
    (do
      let results ← hosts.mapM fun host => tried name (step host) host
      match firstFailure? results with
      | some e => abort name e
      | none => pure () : Conduct Unit).Conducts (.collected name hosts step) where
  -- all attempts are made before their results are looked at
  passes := by
    intro before after l _ h
    obtain ⟨l₁, l₂, results, mid, rfl, h₁, h₂⟩ := ends_bind_ok.mp h
    obtain ⟨visits, _, hv, hhosts, hadds, heq⟩ := ends_attempts h₁
    cases heq
    split at h₂
    · cases (ends_abort.mp h₂).2
    · obtain ⟨rfl, heq⟩ := ends_pure.mp h₂
      cases heq
      rw [List.append_nil]
      exact ⟨_, ⟨visits, hv, hhosts, ‹_›, rfl⟩, hadds⟩
  fails := by
    intro before after l h
    obtain h | ⟨l₁, l₂, results, mid, rfl, h₁, h₂⟩ := ends_bind_error.mp h
    · obtain ⟨_, _, -, -, -, heq⟩ := ends_attempts h
      cases heq
    · obtain ⟨visits, _, hv, hhosts, hadds, heq⟩ := ends_attempts h₁
      cases heq
      split at h₂
      · rename_i e hfirst
        obtain ⟨rfl, heq⟩ := ends_abort.mp h₂
        cases heq
        have hstops := hadds.stops (mid.stops_abort name e)
        rw [List.append_nil] at hstops ⊢
        exact ⟨_, e, ⟨visits, hv, hhosts, hfirst, rfl⟩, hstops⟩
      · cases (ends_pure.mp h₂).2

/-! ### Lines -/

theorem follows_finished : (pure () : Conduct Unit).Follows .finished where
  passes := by
    intro before after l h
    obtain ⟨rfl, heq⟩ := ends_pure.mp h
    cases heq
    exact ⟨[], .finished, .none rfl rfl⟩
  fails h := by cases (ends_pure.mp h).2

/-- What comes after a stage is of concern only where the stage has passed. -/
theorem follows_bind {x : Conduct α} {f : α → Conduct Unit} {s : Stage α} {next : α → Line}
    (hx : x.Conducts s) (hf : ∀ a, (f a).Follows (next a)) : (x >>= f).Follows (.stage s next) where
  passes := by
    intro before after l h
    obtain ⟨l₁, l₂, a, mid, rfl, h₁, h₂⟩ := ends_bind_ok.mp h
    obtain ⟨r₁, hpass, hadds⟩ := hx.passes h₁
    obtain ⟨r₂, hruns, hadds'⟩ := (hf a).passes h₂
    exact ⟨r₁ ++ r₂, .passed hpass hruns, hadds.trans hadds'⟩
  fails := by
    intro before after l h
    obtain h | ⟨l₁, l₂, a, mid, rfl, h₁, h₂⟩ := ends_bind_error.mp h
    · obtain ⟨records, e, hfail, hstops⟩ := hx.fails h
      exact ⟨records, s.name, e, .failed hfail, hstops⟩
    · obtain ⟨r₁, hpass, hadds⟩ := hx.passes h₁
      obtain ⟨r₂, name, e, hruns, hstops⟩ := (hf a).fails h₂
      exact ⟨r₁ ++ r₂, name, e, .passed hpass hruns, hadds.stops hstops⟩

theorem follows_on {host : Host} {detail : α → Option String} {step : Step α}
    {f : α → Conduct Unit} {next : α → Line} (hf : ∀ a, (f a).Follows (next a)) :
    (do
      let a ← need name step
      passed name host (detail a)
      f a : Conduct Unit).Follows (.stage (.on name host detail step) next) := by
  have h := follows_bind (conducts_on name host detail step) hf
  simpa only [bind_assoc, pure_bind] using h

theorem follows_last {host : Host} {detail : α → Option String} {step : Step α} :
    (do
      let a ← need name step
      passed name host (detail a) : Conduct Unit).Follows
        (.stage (.on name host detail step) fun _ => .finished) := by
  have h : (do
      let a ← need name step
      passed name host (detail a)
      pure () : Conduct Unit).Follows (.stage (.on name host detail step) fun _ => .finished) :=
    follows_on fun _ => follows_finished
  simpa only [bind_pure_unit] using h

/-- Entering something that is no stage is of no concern. -/
theorem follows_enter {change : Report → Report} {x : Conduct Unit} {line : Line}
    (hs : ∀ r, (change r).stages = r.stages) (ho : ∀ r, (change r).outcome = r.outcome)
    (hx : x.Follows line) : (enter change >>= fun _ => x).Follows line where
  passes := by
    intro before after l h
    obtain ⟨l₁, l₂, _, mid, rfl, h₁, h₂⟩ := ends_bind_ok.mp h
    obtain ⟨rfl, heq⟩ := ends_enter.mp h₁
    cases heq
    obtain ⟨records, hruns, hadds⟩ := hx.passes h₂
    exact ⟨records, hruns, (Report.Adds.none (hs before) (ho before)).trans hadds⟩
  fails := by
    intro before after l h
    obtain h | ⟨l₁, l₂, _, mid, rfl, h₁, h₂⟩ := ends_bind_error.mp h
    · cases (ends_enter.mp h).2
    · obtain ⟨rfl, heq⟩ := ends_enter.mp h₁
      cases heq
      obtain ⟨records, name, e, hruns, hstops⟩ := hx.fails h₂
      exact ⟨records, name, e, hruns, (Report.Adds.none (hs before) (ho before)).stops hstops⟩

/-- The report on a procedure that follows a line. -/
theorem Follows.concludes {procedure : Procedure} {x : Conduct Unit} {line : Line} {l : Log}
    {report : Report} (hx : x.Follows line) (h : (conclude procedure x).Yields l report) :
    ∃ records end?, line.Runs l records end? ∧ report.Concludes records end? := by
  obtain ⟨last, hlast, rfl⟩ | haborted := yields_conclude.mp h
  · obtain ⟨records, hruns, hadds⟩ := hx.passes hlast
    refine ⟨records, none, hruns, ?_, ?_⟩
    · show last.stages = records ++ []
      rw [hadds.stages, List.append_nil]
      rfl
    · have hrunning : last.outcome = .running := hadds.outcome
      show (if last.outcome = .running then Outcome.completed else last.outcome) = .completed
      rw [if_pos hrunning]
  · obtain ⟨records, name, e, hruns, hstops⟩ := hx.fails haborted
    exact ⟨records, some (name, e), hruns, hstops.stages, hstops.outcome⟩

end Conduct

end NodeFleet
