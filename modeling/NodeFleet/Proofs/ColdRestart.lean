import NodeFleet.Proofs.ColdLine
import NodeFleet.Proofs.Stopping

/-!
# NodeFleet.Proofs.ColdRestart — the report of a cold restart, and what waits for all hosts to stop

* `Fleet.coldPlan`: the stages of a cold restart in their order, with the hosts that each owes an
  entry.
* `Request.IsGrave`: wiping, starting and paying.
* `Fleet.coldRestart_straight`: a cold restart runs along its line, its report enters the plan up to
  the stage that ended it, and nothing grave is asked before every host has been stopped.
-/

namespace NodeFleet

/-- Removing chain data, starting a daemon, and sending funds. -/
def Request.IsGrave : Request → Prop
  | .run _ command =>
    command.task = .wipe ∨ command.task = .start ∨
      ∃ address amount, command.task = .pay address amount
  | _ => False

namespace Fleet

variable (fleet : Fleet)

/-- The stages of a cold restart in their order; only stopping tries every host. -/
def coldPlan (wiped : Bool) : List Line.Planned :=
  let control := [fleet.control]
  let main := [fleet.roster.main]
  let masternode := fleet.roster.firstMasternode?.toList
  ⟨"select", [], false⟩ :: ⟨"select-masternode", [], false⟩ ::
  ⟨"stop-all", fleet.roster.all, true⟩ ::
  ((if wiped then [⟨"wipe", fleet.roster.all, false⟩] else []) ++
  ⟨"start-main", main, false⟩ :: ⟨"bootstrap-settle", [], false⟩ ::
  ((if fleet.control.name ≠ fleet.roster.main.name then [⟨"restart-control", control, false⟩]
    else []) ++
  [⟨"genkey", control, false⟩, ⟨"funding-address", control, false⟩,
    ⟨"send-collateral", main, false⟩, ⟨"confirm-collateral", control, false⟩,
    ⟨"masternode-conf", control, false⟩, ⟨"start-masternode-daemon", masternode, false⟩,
    ⟨"start-masternode-alias", control, false⟩, ⟨"start-masternode-local", masternode, false⟩]))

theorem listLine_hasPlan (amount : Amount) (masternode : Host) :
    (fleet.listLine amount masternode).HasPlan
      [⟨"genkey", [fleet.control], false⟩, ⟨"funding-address", [fleet.control], false⟩,
        ⟨"send-collateral", [fleet.roster.main], false⟩,
        ⟨"confirm-collateral", [fleet.control], false⟩,
        ⟨"masternode-conf", [fleet.control], false⟩,
        ⟨"start-masternode-daemon", [masternode], false⟩,
        ⟨"start-masternode-alias", [fleet.control], false⟩,
        ⟨"start-masternode-local", [masternode], false⟩] := by
  refine .stage fun _ _ key _ => .stage fun _ _ address _ => .stage fun _ _ hash _ => ?_
  refine .stage fun _ _ attempts _ => .stage fun _ _ _ _ => ?_
  exact .stage fun _ _ _ _ => .stage fun _ _ _ _ => .stage fun _ _ _ _ => .finished

theorem mainLine_hasPlan {amount : Amount} {masternode : Host} {plan : List Line.Planned}
    (h : (fleet.listLine amount masternode).HasPlan plan) :
    (fleet.mainLine amount masternode).HasPlan
      (⟨"start-main", [fleet.roster.main], false⟩ :: ⟨"bootstrap-settle", [], false⟩ ::
        ((if fleet.control.name ≠ fleet.roster.main.name then
          [⟨"restart-control", [fleet.control], false⟩] else []) ++ plan)) := by
  refine .stage fun _ _ _ _ => .stage fun _ _ _ _ => ?_
  unfold controlLine
  split
  · exact .stage fun _ _ _ _ => h
  · exact h

theorem coldLine_hasPlan (wiped : Bool) (requested? : Option Amount) :
    (fleet.coldLine wiped requested?).HasPlan (fleet.coldPlan wiped) := by
  refine .stage fun _ _ amount _ => .stage fun l _ masternode hchosen => .stage fun _ _ _ _ => ?_
  have hfirst : fleet.roster.firstMasternode? = some masternode :=
    fleet.chosenMasternode_eq_ok.mp hchosen.1.2.symm
  rw [hfirst]
  have hmain := fleet.mainLine_hasPlan (fleet.listLine_hasPlan amount masternode)
  unfold wipeLine
  cases wiped with
  | true => exact .stage fun _ _ _ _ => hmain
  | false => exact hmain

/-! ## Nothing grave before all hosts are stopped -/

/-- Stopping hosts asks nothing grave. -/
theorem stops_not_grave {visits : List (Host × Except FleetError Stopped)} {l : Log}
    (h : Visits fleet.stopHost visits l) : Only (fun r => ¬ r.IsGrave) l := by
  refine h.only fun v _ => leaves_mono (fun _ hl => hl.mono fun r hr => ?_) fleet.stopHost_only
  obtain rfl | rfl | rfl | rfl | ⟨delay, rfl⟩ := fleet.stop_cases hr
  all_goals simp [Request.IsGrave, command]

/-- A cold restart asks nothing grave, or only after every host has been stopped. -/
theorem coldLine_stops {wiped : Bool} {requested? : Option Amount} {l : Log}
    {records : List StageRecord} {end? : Option (String × FleetError)}
    (h : (fleet.coldLine wiped requested?).Runs l records end?) :
    Only (fun r => ¬ r.IsGrave) l ∨
      ∃ l₁ l₂, l = l₁ ++ l₂ ∧ Only (fun r => ¬ r.IsGrave) l₁ ∧
        ∀ host ∈ fleet.roster.all, ∃ e ∈ l₁, fleet.ShowsStopped host e := by
  obtain rfl | ⟨amount, -, h⟩ := runs_known h
  · exact .inl Composes.nil
  obtain rfl | ⟨masternode, -, h⟩ := runs_known h
  · exact .inl Composes.nil
  obtain ⟨l₁, l₂, _, _, _, rfl, -, ⟨visits, hv, hall, hok, -⟩, -⟩ | ⟨e, -, visits, hv, -⟩ :=
    Line.runs_stage.mp h
  · refine .inr ⟨l₁, l₂, rfl, fleet.stops_not_grave hv, fun host hm => ?_⟩
    rw [← hall] at hm
    obtain ⟨⟨_, result⟩, hvisit, rfl⟩ := List.mem_map.mp hm
    obtain ⟨stopped, rfl⟩ :=
      firstFailure?_eq_none.mp hok result (List.mem_map.mpr ⟨_, hvisit, rfl⟩)
    obtain ⟨k₁, k₂, k₃, rfl, hstop⟩ := hv.of_mem hvisit
    obtain ⟨e, he, hshows⟩ := fleet.stopHost_ok hstop
    exact ⟨e, by simp [he], hshows⟩
  · exact .inl (fleet.stops_not_grave hv)

/-! ## The report -/

/-- A cold restart runs along its line: no stage begins before all stages before it have passed.
Its report has the entries of the plan up to the stage that ended it, and then, if one did, the
entry of that stage, at which it says it was aborted.  Nothing grave is asked before the daemon of
every host has been shown as stopped. -/
theorem coldRestart_straight {σ : Type} (wiped : Bool) (requested? : Option Amount)
    (world : World σ) (s : σ) :
    ∃ records end?,
      (fleet.coldLine wiped requested?).Runs ((fleet.coldRestart wiped requested?).log world s)
        records end? ∧
      ((fleet.coldRestart wiped requested?).run world s).1.Concludes records end? ∧
      (end?.map fun f => (f.1, f.2.kind)) =
        ((fleet.coldRestart wiped requested?).run world s).1.abortedAt? ∧
      Line.Entered (fleet.coldPlan wiped) records end? ∧
      records.map StageRecord.place <+: Line.places (fleet.coldPlan wiped) ∧
      ∀ before e after, (fleet.coldRestart wiped requested?).log world s = before ++ e :: after →
        e.request.IsGrave →
        ∀ host ∈ fleet.roster.all, ∃ e' ∈ before, fleet.ShowsStopped host e' := by
  have hyields := Program.yields_log world (fleet.coldRestart wiped requested?) s
  obtain ⟨records, end?, hruns, hconcludes⟩ :=
    (fleet.coldRestart_follows wiped requested?).concludes hyields
  have hentered := hruns.entered (fleet.coldLine_hasPlan wiped requested?)
  refine ⟨records, end?, hruns, hconcludes, hconcludes.abortedAt?.symm, hentered,
    hentered.prefix_places, ?_⟩
  intro before e after hl hgrave host hhost
  obtain hnone | ⟨l₁, l₂, hsplit, hbefore, hstopped⟩ := fleet.coldLine_stops hruns
  · rw [hl] at hnone
    exact absurd hgrave (hnone e (by simp))
  -- the grave event is not among those of the stops, which are therefore all before it
  obtain ⟨mid, rfl⟩ := hbefore.prefix_before (not_not_intro hgrave) (hsplit.symm.trans hl)
  obtain ⟨e', he', hshows⟩ := hstopped host hhost
  exact ⟨e', List.mem_append_left mid he', hshows⟩

end Fleet

end NodeFleet
