import NodeFleet.Proofs.Orders
import NodeFleet.Proofs.Replying
import NodeFleet.Proofs.Rosters
import NodeFleet.Proofs.Stopping

/-!
# NodeFleet.Proofs.StartsAgain — daemons that a cold restart starts twice

Only four stages of a cold restart stop or start daemons.  Each event in which that succeeds is a
mark, and the marks of a run are those of its line, as far as the run gets: the hosts that were
stopped, the start of the main host, the stop and the start of the control wallet, and the start of
the first masternode.  That last start has no stop before it, so it is a second one where the
masternode is also the main host or the control wallet.

* `Mark`, `Fleet.marks`: the successful starts and stops of a log, in their order.
* `Fleet.StartsAgain`: a daemon is started twice without a stop in between.  `startsAgain_iff`: the
  same, as a computation.
* `Fleet.StepMarks`, `Fleet.LineMarks`: the marks of steps and lines, with their rules.
* `Fleet.coldMarks`, `coldRestart_marks`: the marks of a cold restart.
* `Fleet.coldRestart_startsAgain`: when a cold restart starts a daemon again.
-/

namespace NodeFleet

/-! ## Marks -/

/-- A daemon that was started, or that was stopped or found to be down. -/
inductive Mark where
  | started (host : Host)
  | stopped (host : Host)
  deriving DecidableEq

namespace Mark

/-- The daemon of the host is started before it is stopped. -/
def startedFirst (host : Host) : List Mark → Bool
  | [] => false
  | started other :: rest => host.sameEntry other || startedFirst host rest
  | stopped other :: rest => !host.sameEntry other && startedFirst host rest

/-- Some daemon is started, and started again before it is stopped. -/
def again : List Mark → Bool
  | [] => false
  | started host :: rest => startedFirst host rest || again rest
  | stopped _ :: rest => again rest

theorem startedFirst_iff {host : Host} {marks : List Mark} :
    startedFirst host marks ↔ ∃ mid other after, marks = mid ++ started other :: after ∧
      host.sameEntry other ∧ ∀ k, stopped k ∈ mid → ¬ host.sameEntry k := by
  -- along the marks; in both directions the first mark decides, or is passed over
  induction marks with
  | nil => simp [startedFirst]
  | cons mark rest ih =>
    constructor
    · intro h
      cases mark with
      | started other =>
        obtain hsame | hrest := Bool.or_eq_true_iff.mp h
        · exact ⟨[], other, rest, rfl, hsame, fun k hk => absurd hk List.not_mem_nil⟩
        · obtain ⟨mid, other', after, rfl, hsame, hnone⟩ := ih.mp hrest
          refine ⟨_ :: mid, other', after, rfl, hsame, fun k hk => ?_⟩
          obtain heq | hk := List.mem_cons.mp hk
          · cases heq
          · exact hnone k hk
      | stopped other =>
        obtain ⟨hother, hrest⟩ := Bool.and_eq_true_iff.mp h
        obtain ⟨mid, other', after, rfl, hsame, hnone⟩ := ih.mp hrest
        refine ⟨_ :: mid, other', after, rfl, hsame, fun k hk => ?_⟩
        obtain heq | hk := List.mem_cons.mp hk
        · cases heq
          simpa using hother
        · exact hnone k hk
    · rintro ⟨mid, other, after, hsplit, hsame, hnone⟩
      obtain ⟨rfl, heq⟩ | ⟨mid, rfl, rfl⟩ := List.cons_eq_append_iff.mp hsplit
      · cases heq
        exact Bool.or_eq_true_iff.mpr (.inl hsame)
      · have hrest := ih.mpr ⟨mid, other, after, rfl, hsame, fun k hk =>
          hnone k (List.mem_cons_of_mem _ hk)⟩
        cases mark with
        | started k => exact Bool.or_eq_true_iff.mpr (.inr hrest)
        | stopped k =>
          refine Bool.and_eq_true_iff.mpr ⟨?_, hrest⟩
          simpa using hnone k List.mem_cons_self

theorem again_iff {marks : List Mark} :
    again marks ↔ ∃ before host mid other after,
      marks = before ++ started host :: (mid ++ started other :: after) ∧
      host.sameEntry other ∧ ∀ k, stopped k ∈ mid → ¬ host.sameEntry k := by
  -- the earlier of the two starts is the first mark, or lies in the rest like the other
  induction marks with
  | nil => simp [again]
  | cons mark rest ih =>
    constructor
    · intro h
      have hlater (hrest : again rest = true) : ∃ before host mid other after,
          mark :: rest = before ++ started host :: (mid ++ started other :: after) ∧
          host.sameEntry other ∧ ∀ k, stopped k ∈ mid → ¬ host.sameEntry k := by
        obtain ⟨before, host, mid, other, after, rfl, hpair⟩ := ih.mp hrest
        exact ⟨mark :: before, host, mid, other, after, rfl, hpair⟩
      cases mark with
      | started host =>
        obtain hfirst | hrest := Bool.or_eq_true_iff.mp h
        · obtain ⟨mid, other, after, rfl, hpair⟩ := startedFirst_iff.mp hfirst
          exact ⟨[], host, mid, other, after, rfl, hpair⟩
        · exact hlater hrest
      | stopped _ => exact hlater h
    · rintro ⟨before, host, mid, other, after, hsplit, hpair⟩
      obtain ⟨rfl, heq⟩ | ⟨before, rfl, rfl⟩ := List.cons_eq_append_iff.mp hsplit
      · cases heq
        exact Bool.or_eq_true_iff.mpr (.inl (startedFirst_iff.mpr ⟨mid, other, after, rfl, hpair⟩))
      · have hrest := ih.mpr ⟨before, host, mid, other, after, rfl, hpair⟩
        cases mark with
        | started _ => exact Bool.or_eq_true_iff.mpr (.inr hrest)
        | stopped _ => exact hrest

/-- Stops that come first are of no concern. -/
theorem again_stops {stops marks : List Mark} (h : ∀ m ∈ stops, ∃ host, m = stopped host) :
    again (stops ++ marks) = again marks := by
  induction stops with
  | nil => rfl
  | cons m stops ih =>
    obtain ⟨host, rfl⟩ := h m List.mem_cons_self
    exact ih fun m hm => h m (List.mem_cons_of_mem _ hm)

end Mark

namespace Fleet

variable (fleet : Fleet)

/-- The mark that an event leaves: a start that is accepted, or a stop that shows the daemon as
stopped. -/
def mark? (e : Event) : Option Mark :=
  match e with
  | ⟨.run host command, answer⟩ =>
    if fleet.AcceptsStart host ⟨.run host command, answer⟩ then some (.started host)
    else if fleet.ShowsStopped host ⟨.run host command, answer⟩ then some (.stopped host)
    else none
  | _ => none

/-- The successful starts and stops of a log, in their order. -/
def marks (l : Log) : List Mark := l.filterMap fleet.mark?

/-- A daemon is started, and started again without having been stopped in between; a daemon is that
of a name and an address. -/
def StartsAgain (l : Log) : Prop :=
  ∃ before host mid other after,
    fleet.marks l = before ++ .started host :: (mid ++ .started other :: after) ∧
    host.sameEntry other ∧ ∀ k, .stopped k ∈ mid → ¬ host.sameEntry k

theorem startsAgain_iff {l : Log} : fleet.StartsAgain l ↔ Mark.again (fleet.marks l) :=
  Mark.again_iff.symm

variable {fleet}

theorem AcceptsStart.host_eq {host other : Host} {command : Command}
    {answer : Except RemoteError Reply}
    (h : fleet.AcceptsStart host ⟨.run other command, answer⟩) : other = host := by
  cases answer with
  | ok reply => exact h.1
  | error _ => exact absurd h id

theorem ShowsStopped.host_eq {host other : Host} {command : Command}
    {answer : Except RemoteError Reply}
    (h : fleet.ShowsStopped host ⟨.run other command, answer⟩) : other = host := by
  cases answer with
  | ok reply => exact h.1
  | error _ => exact absurd h id

/-- The two marks are those of different commands. -/
theorem ShowsStopped.not_acceptsStart {host other : Host} {e : Event}
    (h : fleet.ShowsStopped host e) : ¬ fleet.AcceptsStart other e := by
  obtain ⟨r, answer⟩ := e
  cases r with
  | run _ command =>
    cases answer with
    | ok reply =>
      rintro ⟨-, hstart, -⟩
      cases hstart.symm.trans h.2.1
    | error _ => exact id
  | _ => exact absurd h id

theorem mark?_eq_started {e : Event} {host : Host} :
    fleet.mark? e = some (.started host) ↔ fleet.AcceptsStart host e := by
  obtain ⟨r, answer⟩ := e
  cases r with
  | run other command =>
    unfold mark?
    dsimp only
    split
    · rename_i haccepts
      constructor
      · intro heq
        cases heq
        exact haccepts
      · intro h
        rw [h.host_eq]
    · rename_i hrefuses
      split
      · exact iff_of_false (by simp) fun h => hrefuses (h.host_eq ▸ h)
      · exact iff_of_false (by simp) fun h => hrefuses (h.host_eq ▸ h)
  | _ => exact iff_of_false (by simp [mark?]) id

theorem mark?_eq_stopped {e : Event} {host : Host} :
    fleet.mark? e = some (.stopped host) ↔ fleet.ShowsStopped host e := by
  obtain ⟨r, answer⟩ := e
  cases r with
  | run other command =>
    unfold mark?
    dsimp only
    split
    · rename_i haccepts
      exact iff_of_false (by simp) fun h => h.not_acceptsStart haccepts
    · split
      · rename_i hstopped
        constructor
        · intro heq
          cases heq
          exact hstopped
        · intro h
          rw [h.host_eq]
      · rename_i hup
        exact iff_of_false (by simp) fun h => hup (h.host_eq ▸ h)
  | _ => exact iff_of_false (by simp [mark?]) id

theorem marks_append (l₁ l₂ : Log) :
    fleet.marks (l₁ ++ l₂) = fleet.marks l₁ ++ fleet.marks l₂ := List.filterMap_append

theorem marks_session {host : Host} {inner : Log} :
    fleet.marks (Log.session host inner) = fleet.marks inner := filterMap_session rfl rfl

/-! ## The marks of steps -/

variable (fleet) in
/-- A step leaves these marks when it goes well, and a beginning of them when it fails. -/
def StepMarks {α : Type} (x : Step α) (marks : List Mark) : Prop :=
  ∀ l r, x.run.Yields l r → fleet.marks l <+: marks ∧ ∀ a, r = .ok a → fleet.marks l = marks

/-- A request that neither starts nor stops a daemon. -/
def Unmarked (fleet : Fleet) : Request → Prop
  | .run _ command => command ≠ fleet.command .start ∧ command ≠ fleet.command .stop
  | _ => True

section Steps

variable {α β : Type} {host : Host} {m₁ m₂ : List Mark}

theorem mark?_eq_none {e : Event} (h : fleet.Unmarked e.request) : fleet.mark? e = none := by
  obtain ⟨r, answer⟩ := e
  cases r with
  | run other command =>
    cases answer with
    | ok reply =>
      exact (if_neg fun haccepts => h.1 haccepts.2.1).trans
        (if_neg fun hstopped => h.2 hstopped.2.1)
    | error _ => rfl
  | _ => rfl

theorem marks_eq_nil {l : Log} (h : Only fleet.Unmarked l) : fleet.marks l = [] :=
  List.filterMap_eq_nil_iff.mpr fun e he => mark?_eq_none (h e he)

theorem stepMarks_unmarked {x : Step α} (h : Leaves (Only fleet.Unmarked) x) :
    fleet.StepMarks x [] := by
  intro l r hl
  have hnone := marks_eq_nil (h l r hl)
  exact ⟨hnone ▸ List.prefix_refl _, fun _ _ => hnone⟩

theorem stepMarks_bind {x : Step α} {f : α → Step β} (hx : fleet.StepMarks x m₁)
    (hf : ∀ a, fleet.StepMarks (f a) m₂) : fleet.StepMarks (x >>= f) (m₁ ++ m₂) := by
  intro l r h
  rw [ExceptT.run_bind] at h
  obtain ⟨l₁, l₂, a | a, rfl, hfirst, hrest⟩ := Program.yields_bind.mp h
  · obtain ⟨rfl, rfl⟩ := Program.yields_pure.mp hrest
    rw [List.append_nil]
    refine ⟨(hx l₁ _ hfirst).1.trans (List.prefix_append _ _), fun b hb => ?_⟩
    cases hb
  · rw [marks_append, (hx l₁ _ hfirst).2 a rfl]
    obtain ⟨hbegin, hend⟩ := hf a l₂ r hrest
    refine ⟨(List.prefix_append_right_inj _).mpr hbegin, fun b hb => ?_⟩
    rw [hend b hb]

/-- What comes before or after leaves no mark. -/
theorem stepMarks_before {x : Step α} {f : α → Step β} (hx : Leaves (Only fleet.Unmarked) x)
    (hf : ∀ a, fleet.StepMarks (f a) m₁) : fleet.StepMarks (x >>= f) m₁ :=
  stepMarks_bind (stepMarks_unmarked hx) hf

theorem stepMarks_after {x : Step α} {f : α → Step β} (hx : fleet.StepMarks x m₁)
    (hf : ∀ a, Leaves (Only fleet.Unmarked) (f a)) : fleet.StepMarks (x >>= f) m₁ := by
  rw [← List.append_nil m₁]
  exact stepMarks_bind hx fun a => stepMarks_unmarked (hf a)

theorem stepMarks_ite {c : Prop} [Decidable c] {x y : Step α} (hx : fleet.StepMarks x m₁)
    (hy : fleet.StepMarks y m₁) : fleet.StepMarks (if c then x else y) m₁ := by
  split
  · exact hx
  · exact hy

theorem stepMarks_inSession {x : Step α} (hx : fleet.StepMarks x m₁) :
    fleet.StepMarks (inSession host x) m₁ := by
  intro l r h
  obtain ⟨cause, rfl, rfl⟩ | ⟨inner, rfl, hinner⟩ := inSession_cases h
  · refine ⟨List.nil_prefix, fun a ha => ?_⟩
    cases ha
  · rw [marks_session]
    exact hx inner r hinner

theorem settle_unmarked {delay : Duration} : Leaves (Only fleet.Unmarked) (settle delay) :=
  settle_only trivial trivial

/-- A start is marked when it is accepted, and a stop when it shows the daemon as stopped. -/
theorem marks_start {answer : Except RemoteError Reply} :
    fleet.marks [⟨.run host (fleet.command .start), answer⟩] <+: [.started host] := by
  unfold marks
  match hmark : fleet.mark? ⟨.run host (fleet.command .start), answer⟩ with
  | none => simp [hmark]
  | some (.started other) =>
    obtain rfl := (mark?_eq_started.mp hmark).host_eq
    simp [hmark]
  | some (.stopped other) =>
    have hstopped := mark?_eq_stopped.mp hmark
    cases answer with
    | ok reply => cases hstopped.2.1
    | error _ => exact absurd hstopped id

theorem marks_stop {answer : Except RemoteError Reply} :
    fleet.marks [⟨.run host (fleet.command .stop), answer⟩] <+: [.stopped host] := by
  unfold marks
  match hmark : fleet.mark? ⟨.run host (fleet.command .stop), answer⟩ with
  | none => simp [hmark]
  | some (.stopped other) =>
    obtain rfl := (mark?_eq_stopped.mp hmark).host_eq
    simp [hmark]
  | some (.started other) =>
    have hstarted := mark?_eq_started.mp hmark
    cases answer with
    | ok reply => cases hstarted.2.1
    | error _ => exact absurd hstarted id

theorem startDaemon_marks : fleet.StepMarks (fleet.startDaemon host) [.started host] := by
  have hstart : fleet.StepMarks (expect host (fleet.command .start) .start) [.started host] := by
    intro l r h
    obtain ⟨answer, hl⟩ := expect_sends h
    refine ⟨hl ▸ marks_start, ?_⟩
    rintro reading rfl
    obtain ⟨reply, rfl, rfl, hnone⟩ := yields_expect_ok.mp h
    have haccepts : fleet.AcceptsStart host ⟨.run host (fleet.command .start), .ok reply⟩ :=
      ⟨rfl, rfl, hnone⟩
    simp [marks, mark?_eq_started.mpr haccepts]
  exact stepMarks_after hstart fun _ => settle_unmarked

theorem stopHost_marks : fleet.StepMarks (fleet.stopHost host) [.stopped host] := by
  have hstop : fleet.StepMarks (fleet.stopDaemon host) [.stopped host] := by
    intro l r h
    obtain ⟨answer, hl⟩ := fleet.stopDaemon_sends h
    refine ⟨hl ▸ marks_stop, ?_⟩
    rintro stopped rfl
    obtain ⟨e, rfl, hshows⟩ := fleet.stopDaemon_ok h
    simp [marks, mark?_eq_stopped.mpr hshows]
  refine stepMarks_inSession (stepMarks_after hstop fun stopped => ?_)
  refine leaves_ite (fun _ => ?_) fun _ => leaves_pure _
  exact leaves_bind settle_unmarked fun _ => leaves_pure _

theorem writeNodeConfig_unmarked {conf : NodeConfig} :
    Leaves (Only fleet.Unmarked) (writeNodeConfig host fleet.daemon conf) :=
  writeConfigFile_only ⟨nofun, nofun⟩ trivial

theorem startHost_marks : fleet.StepMarks (fleet.startHost false host) [.started host] := by
  have hstart : fleet.StepMarks (do
      fleet.startDaemon host
      if host.role = Role.main then fleet.enableGeneration host) [.started host] := by
    refine stepMarks_after startDaemon_marks fun _ => ?_
    refine leaves_ite (fun _ => ?_) fun _ => leaves_pure _
    exact leaves_bind (expect_only ⟨nofun, nofun⟩) fun _ => leaves_pure _
  have hconfigured : fleet.StepMarks (do
      if host.role ≠ Role.masternode then fleet.writeStakingConfig host
      fleet.startDaemon host
      if host.role = Role.main then fleet.enableGeneration host) [.started host] :=
    stepMarks_ite (stepMarks_before writeNodeConfig_unmarked fun _ => hstart) hstart
  exact stepMarks_inSession hconfigured

theorem startMasternode_marks {key : String} :
    fleet.StepMarks (fleet.startMasternode host key) [.started host] :=
  stepMarks_inSession (stepMarks_before writeNodeConfig_unmarked fun _ => startDaemon_marks)

theorem cycleControl_marks :
    fleet.StepMarks fleet.cycleControl [.stopped fleet.control, .started fleet.control] :=
  stepMarks_bind stopHost_marks fun _ => startHost_marks

end Steps

/-! ## The marks of lines -/

variable (fleet) in
/-- A stage leaves these marks when it passes, and a beginning of them when it fails. -/
structure StageMarks {α : Type} (s : Stage α) (marks : List Mark) : Prop where
  passes {l : Log} {records : List StageRecord} {a : α} (h : s.Passes l records a) :
    fleet.marks l = marks
  fails {l : Log} {records : List StageRecord} {e : FleetError} (h : s.Fails l records e) :
    fleet.marks l <+: marks

variable (fleet) in
/-- A line leaves these marks, as far as it gets. -/
def LineMarks (line : Line) (marks : List Mark) : Prop :=
  ∀ l records end?, line.Runs l records end? → fleet.marks l <+: marks

section Lines

variable {α : Type} {host : Host} {m₁ m₂ : List Mark}

theorem stageMarks_on {name : String} {detail : α → Option String} {step : Step α}
    (h : fleet.StepMarks step m₁) : fleet.StageMarks (.on name host detail step) m₁ where
  passes hp := (h _ _ hp.1).2 _ rfl
  fails hf := (h _ _ hf.1).1

theorem stageMarks_unmarked {s : Stage α} (h : s.Asks fleet.Unmarked) :
    fleet.StageMarks s [] where
  passes hp := marks_eq_nil (h.passes hp)
  fails hf := marks_eq_nil (h.fails hf) ▸ List.prefix_refl _

theorem lineMarks_stage {s : Stage α} {next : α → Line} (hs : fleet.StageMarks s m₁)
    (hnext : ∀ a, fleet.LineMarks (next a) m₂) : fleet.LineMarks (.stage s next) (m₁ ++ m₂) := by
  intro l records end? h
  obtain ⟨l₁, l₂, r₁, r₂, a, rfl, -, hp, hrest⟩ | ⟨e, -, hf⟩ := Line.runs_stage.mp h
  · rw [marks_append, hs.passes hp]
    exact (List.prefix_append_right_inj _).mpr (hnext a _ _ _ hrest)
  · exact (hs.fails hf).trans (List.prefix_append _ _)

/-- A stage that leaves no mark. -/
theorem lineMarks_unmarked {s : Stage α} {next : α → Line} (hs : s.Asks fleet.Unmarked)
    (hnext : ∀ a, fleet.LineMarks (next a) m₂) : fleet.LineMarks (.stage s next) m₂ :=
  lineMarks_stage (stageMarks_unmarked hs) hnext

theorem lineMarks_finished : fleet.LineMarks .finished [] := by
  intro l records end? h
  cases h
  exact List.prefix_refl _

end Lines

/-! ## The marks of a cold restart -/

variable (fleet) in
/-- The marks of a cold restart after the daemons have been stopped: no stop stands before the start
of the masternode. -/
def coldMarks (masternode : Host) : List Mark :=
  .started fleet.roster.main ::
    ((if fleet.control.name ≠ fleet.roster.main.name
      then [.stopped fleet.control, .started fleet.control] else []) ++ [.started masternode])

theorem unmarked_sessions :
    HoldsOfSessions (fun _ => fleet.Unmarked) (Only fleet.Unmarked) := by
  refine holdsOfSessions_only (fun r hr => ?_) (fun _ => trivial) fun _ => trivial
  cases r with
  | run _ _ => exact absurd hr id
  | _ => trivial

/-- A single command that neither starts nor stops a daemon. -/
theorem asks_query {command : Command} {name : String} {host : Host} {kind : ReplyKind}
    {detail : Reading → Option String} (h : fleet.Unmarked (.run host command)) :
    (Stage.on name host detail (query host command kind)).Asks fleet.Unmarked :=
  Stage.asks_on (unmarked_sessions.query h)

theorem asks_queryToken {command : Command} {name : String} {host : Host}
    {detail : String → Option String} (h : fleet.Unmarked (.run host command)) :
    (Stage.on name host detail (queryToken host command)).Asks fleet.Unmarked :=
  Stage.asks_on (unmarked_sessions.queryToken h)

theorem startLine_marks (masternode : Host) (key : String) :
    fleet.LineMarks (fleet.startLine masternode key) [.started masternode] := by
  refine lineMarks_stage (stageMarks_on startMasternode_marks) fun _ => ?_
  refine lineMarks_unmarked (asks_query ⟨nofun, nofun⟩) fun _ => ?_
  exact lineMarks_unmarked (asks_query ⟨nofun, nofun⟩) fun _ => lineMarks_finished

theorem listLine_marks (amount : Amount) (masternode : Host) :
    fleet.LineMarks (fleet.listLine amount masternode) [.started masternode] := by
  refine lineMarks_unmarked (asks_queryToken ⟨nofun, nofun⟩) fun key => ?_
  refine lineMarks_unmarked (asks_queryToken ⟨nofun, nofun⟩) fun address => ?_
  refine lineMarks_unmarked (asks_queryToken ⟨nofun, nofun⟩) fun hash => ?_
  have hconfirmed : Leaves (Only fleet.Unmarked) (fleet.awaitConfirmation fleet.control hash) :=
    fleet.awaitConfirmation_leaves unmarked_sessions ⟨nofun, nofun⟩ hash
  refine lineMarks_unmarked (Stage.asks_on hconfirmed) fun _ => ?_
  refine lineMarks_unmarked (Stage.asks_on ?_) fun _ => startLine_marks masternode key
  exact fleet.writeMasternodeList_leaves unmarked_sessions ⟨nofun, nofun⟩ trivial

theorem wipeLine_marks (wiped : Bool) (amount : Amount) (masternode : Host) :
    fleet.LineMarks (fleet.wipeLine wiped amount masternode) (fleet.coldMarks masternode) := by
  have hcontrol : fleet.LineMarks (fleet.controlLine amount masternode)
      ((if fleet.control.name ≠ fleet.roster.main.name
        then [.stopped fleet.control, .started fleet.control] else []) ++
        [.started masternode]) := by
    unfold controlLine
    split
    · exact lineMarks_stage (stageMarks_on cycleControl_marks) fun _ =>
        listLine_marks amount masternode
    · exact listLine_marks amount masternode
  have hmain : fleet.LineMarks (fleet.mainLine amount masternode)
      (fleet.coldMarks masternode) := by
    refine lineMarks_stage (stageMarks_on startHost_marks) fun _ => ?_
    exact lineMarks_unmarked (Stage.asks_silent settle_unmarked) fun _ => hcontrol
  unfold wipeLine
  split
  · refine lineMarks_unmarked (Stage.asks_inTurn fun host => ?_) fun _ => hmain
    refine leaves_inSession (fun _ => only_singleton.mpr trivial) ?_ (only_singleton.mpr trivial)
    exact leaves_bind (expect_only ⟨nofun, nofun⟩) fun _ => leaves_pure _
  · exact hmain

/-- Marks of daemons that were stopped. -/
def AllStopped (marks : List Mark) : Prop := ∀ m ∈ marks, ∃ host, m = .stopped host

theorem stopVisits_marks {visits : List (Host × Except FleetError Stopped)} {l : Log}
    (h : Visits fleet.stopHost visits l) : AllStopped (fleet.marks l) := by
  induction h with
  | nil => exact fun m hm => absurd hm List.not_mem_nil
  | @cons host result _ l₁ l₂ hv _ ih =>
    intro m hm
    rw [marks_append] at hm
    obtain hm | hm := List.mem_append.mp hm
    · exact ⟨host, List.mem_singleton.mp ((stopHost_marks l₁ result hv).1.subset hm)⟩
    · exact ih m hm

/-- The marks of a cold restart: hosts that were stopped, and then as much of the line as it gets
through. -/
theorem coldRestart_marks {wiped : Bool} {requested? : Option Amount} {l : Log} {report : Report}
    (h : (fleet.coldRestart wiped requested?).Yields l report) :
    ∃ stops rest, fleet.marks l = stops ++ rest ∧ AllStopped stops ∧
      (rest = [] ∨ ∃ masternode, fleet.roster.firstMasternode? = some masternode ∧
        rest <+: fleet.coldMarks masternode) := by
  have hnothing : AllStopped [] := fun m hm => absurd hm List.not_mem_nil
  obtain ⟨records, end?, hruns, -⟩ := (fleet.coldRestart_follows wiped requested?).concludes h
  obtain rfl | ⟨amount, -, hruns⟩ := runs_known hruns
  · exact ⟨[], [], rfl, hnothing, .inl rfl⟩
  obtain rfl | ⟨masternode, hchosen, hruns⟩ := runs_known hruns
  · exact ⟨[], [], rfl, hnothing, .inl rfl⟩
  have hfirst := fleet.chosenMasternode_eq_ok.mp hchosen
  obtain ⟨l₁, l₂, r₁, r₂, _, rfl, -, ⟨visits, hvisits, -⟩, hrest⟩ | ⟨e, -, visits, hvisits, -⟩ :=
    Line.runs_stage.mp hruns
  · refine ⟨_, _, marks_append l₁ l₂, stopVisits_marks hvisits, .inr ⟨masternode, hfirst, ?_⟩⟩
    exact wipeLine_marks wiped amount masternode l₂ r₂ end? hrest
  · exact ⟨_, [], (List.append_nil _).symm, stopVisits_marks hvisits, .inl rfl⟩

/-- A control wallet of the main host's name is the main host. -/
theorem control_eq_main (h : fleet.control.name = fleet.roster.main.name) :
    fleet.control = fleet.roster.main := by
  have hcontrol : fleet.control = (fleet.config.controlWallet?.bind fun name =>
      fleet.roster.entries.find? fun h => h.name == name).getD fleet.roster.main := rfl
  cases hchosen : fleet.config.controlWallet?.bind fun name =>
      fleet.roster.entries.find? fun h => h.name == name with
  | none => rw [hcontrol, hchosen, Option.getD_none]
  | some host =>
    rw [hchosen, Option.getD_some] at hcontrol
    obtain ⟨name, -, hfound⟩ := Option.bind_eq_some_iff.mp hchosen
    -- the main host is the first entry, so it is the first of its name
    have hname : fleet.roster.main.name = name := by
      rw [← h, hcontrol]
      simpa using List.find?_some hfound
    have hmain : fleet.roster.entries.find? (fun h => h.name == name) =
        some fleet.roster.main := List.find?_cons_of_pos (beq_iff_eq.mpr hname)
    rw [hmain] at hfound
    rw [hcontrol, Option.some.inj hfound]

/-- Only the last mark of the line can be that of a second start. -/
theorem coldMarks_again {masternode : Host} {rest : List Mark}
    (h : rest <+: fleet.coldMarks masternode) :
    Mark.again rest ↔ rest = fleet.coldMarks masternode ∧
      (masternode.sameEntry fleet.roster.main ∨ masternode.sameEntry fleet.control) := by
  rw [Host.sameEntry_comm, Host.sameEntry_comm (b := fleet.control)]
  unfold coldMarks at h ⊢
  -- the control wallet has marks of its own only where it is not the main host
  by_cases hname : fleet.control.name = fleet.roster.main.name
  · have hcontrol := control_eq_main hname
    simp only [hname, ne_eq, not_true_eq_false, if_false, List.nil_append] at h ⊢
    rw [hcontrol, or_self]
    obtain rfl | ⟨rest, rfl, h₁⟩ := List.prefix_cons_iff.mp h
    · simp [Mark.again]
    obtain rfl | ⟨rest, rfl, h₂⟩ := List.prefix_cons_iff.mp h₁
    · simp [Mark.again, Mark.startedFirst]
    obtain rfl := List.prefix_nil.mp h₂
    simp [Mark.again, Mark.startedFirst]
  · have hother : fleet.roster.main.sameEntry fleet.control = false :=
      Bool.eq_false_iff.mpr fun hsame => hname (Host.sameEntry_iff.mp hsame).1.symm
    simp only [hname, ne_eq, not_false_eq_true, if_true] at h ⊢
    obtain rfl | ⟨rest, rfl, h₁⟩ := List.prefix_cons_iff.mp h
    · simp [Mark.again]
    obtain rfl | ⟨rest, rfl, h₂⟩ := List.prefix_cons_iff.mp h₁
    · simp [Mark.again, Mark.startedFirst]
    obtain rfl | ⟨rest, rfl, h₃⟩ := List.prefix_cons_iff.mp h₂
    · simp [Mark.again, Mark.startedFirst]
    obtain rfl | ⟨rest, rfl, h₄⟩ := List.prefix_cons_iff.mp h₃
    · simp [Mark.again, Mark.startedFirst, hother]
    obtain rfl := List.prefix_nil.mp h₄
    simp [Mark.again, Mark.startedFirst, hother]

/-- A cold restart starts a daemon again, without having stopped it since, exactly when the first
masternode is the main host or the control wallet and every start of the line has been accepted, the
last being that of the masternode. -/
theorem coldRestart_startsAgain {σ : Type} (fleet : Fleet) (wiped : Bool)
    (requested? : Option Amount) (world : World σ) (s : σ) :
    let log := (fleet.coldRestart wiped requested?).log world s
    fleet.StartsAgain log ↔ ∃ masternode, fleet.roster.firstMasternode? = some masternode ∧
      (masternode.sameEntry fleet.roster.main ∨ masternode.sameEntry fleet.control) ∧
      ∃ stops, AllStopped stops ∧ fleet.marks log = stops ++ fleet.coldMarks masternode := by
  intro log
  rw [startsAgain_iff]
  obtain ⟨stops, rest, hmarks, hstops, hrest⟩ :=
    coldRestart_marks (Program.yields_log world (fleet.coldRestart wiped requested?) s)
  constructor
  · intro hagain
    rw [hmarks, Mark.again_stops hstops] at hagain
    obtain rfl | ⟨masternode, hfirst, hprefix⟩ := hrest
    · cases hagain
    · obtain ⟨rfl, hsame⟩ := (coldMarks_again hprefix).mp hagain
      exact ⟨masternode, hfirst, hsame, stops, hstops, hmarks⟩
  · rintro ⟨masternode, hfirst, hsame, stops, hstops, hmarks⟩
    rw [hmarks, Mark.again_stops hstops]
    exact (coldMarks_again (List.prefix_refl _)).mpr ⟨rfl, hsame⟩

end Fleet

/-- The description of a main host, and of a masternode that is its own control wallet. -/
def Config.held : Config := { Config.pair with controlWallet? := some "mn" }

theorem Roster.ofConfig_held : Roster.ofConfig .held = .ok .pair :=
  Roster.ofConfig_ok (by decide +kernel) rfl rfl rfl rfl rfl

/-- A main host, and a masternode that is its own control wallet. -/
def Fleet.held : Fleet := ⟨.held, .pair, false, Roster.ofConfig_held⟩

namespace Fleet

/-- The daemon of a masternode that is its own control wallet is started twice, although all goes
well. -/
theorem coldRestart_startsAgain_held :
    held.StartsAgain
      ((held.coldRestart false none).log (World.replying fun _ => Task.agreed) ()) :=
  held.startsAgain_iff.mpr (by decide +kernel)

end Fleet

end NodeFleet
