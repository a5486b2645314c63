import Mathlib.Data.List.Induction
import NodeFleet.Report.Summary

/-!
# NodeFleet.Proofs.Reporting — what a report says of what was entered

A report is written entry by entry, in any order.  An abort is final: it stands against every later
end, and a later abort takes its place.  Whatever was entered, how the procedure ended, whether it
has succeeded, and what an operator reads in the summary agree.

* `Report.Entry`, `Report.written`: what can be entered, and the report with all of it.
* `Entry.outcomeAfter`: how a procedure has ended after its entries.
* `written_eq`: a law on one more entry is a law on all.  `written_outcome`, `written_stages`,
  `written_hosts`, `written_finished`: the laws, one for each field.
* `summaryWith_completed_iff`: a summary calls a procedure completed exactly when it has succeeded.
* `Report.Records`, `written_records`: all that a report says of its entries.
-/

namespace NodeFleet.Report

/-! ## Entries -/

/-- What can be entered in a report. -/
inductive Entry where
  | stageOk (stage : String) (host? : Option Host) (detail? : Option String)
  | stageFailed (stage : String) (host? : Option Host) (error : FleetError)
  | hostResult (host : Host) (result : Except FleetError Unit)
  | targetResult (name address : String) (result : Except FleetError Unit)
  | snapshot (s : Snapshot)
  | transfer (t : Transfer)
  | abort (stage : String) (error : FleetError)
  | finish

namespace Entry

/-- The report with one more entry. -/
def enter (r : Report) : Entry → Report
  | stageOk stage host? detail? => r.stageOk stage host? detail?
  | stageFailed stage host? e => r.stageFailed stage host? e
  | hostResult host result => r.hostResult host result
  | targetResult name address result => r.targetResult name address result
  | snapshot s => r.addSnapshot s
  | transfer t => r.addTransfer t
  | abort stage e => r.abort stage e
  | finish => r.finish

/-- The record of the stage whose end is entered; an abort ends the stage at which it happens. -/
def stage? : Entry → Option StageRecord
  | stageOk stage host? detail? => some ⟨stage, host?.map Host.name, true, detail?⟩
  | stageFailed stage host? e => some ⟨stage, host?.map Host.name, false, some e.message⟩
  | abort stage e => some ⟨stage, none, false, some e.message⟩
  | _ => none

/-- The result that is entered. -/
def result? : Entry → Option (Except FleetError Unit)
  | hostResult _ result | targetResult _ _ result => some result
  | _ => none

/-- The result as a report has it. -/
def outcome? : Entry → Option HostOutcome
  | hostResult host result => some (outcomeOf host.name host.address result)
  | targetResult name address result => some (outcomeOf name address result)
  | _ => none

/-- The stage and the failure of an abort. -/
def abort? : Entry → Option (String × FleetError)
  | abort stage e => some (stage, e)
  | _ => none

/-- The end of the procedure is entered. -/
def isFinish : Entry → Bool
  | finish => true
  | _ => false

/-- How a procedure has ended after these entries: by the last abort, else by coming to its end. -/
def outcomeAfter (entries : List Entry) : Outcome :=
  match (entries.filterMap abort?).getLast? with
  | some (stage, e) => .aborted stage e.kind e.message
  | none => if entries.any isFinish then .completed else .running

variable {entries : List Entry} {entry : Entry} {stage : String} {e : FleetError}

theorem isFinish_iff : entry.isFinish = true ↔ entry = finish := by
  cases entry with
  | finish => exact iff_of_true rfl rfl
  | _ => exact iff_of_false Bool.false_ne_true nofun

theorem any_isFinish_iff : entries.any isFinish = true ↔ finish ∈ entries := by
  simp [List.any_eq_true, isFinish_iff]

theorem abort?_eq_some : entry.abort? = some (stage, e) ↔ entry = abort stage e := by
  cases entry with
  | abort stage' e' => simp [abort?]
  | _ => exact iff_of_false nofun nofun

theorem filterMap_abort?_eq_nil :
    entries.filterMap abort? = [] ↔ ∀ stage e, abort stage e ∉ entries := by
  rw [List.filterMap_eq_nil_iff]
  constructor
  · intro h stage e hm
    cases h _ hm
  · intro h entry hm
    rw [Option.eq_none_iff_forall_ne_some]
    rintro ⟨stage, e⟩ hsome
    exact h stage e (abort?_eq_some.mp hsome ▸ hm)

theorem outcomeAfter_abort : outcomeAfter (entries ++ [abort stage e]) =
    .aborted stage e.kind e.message := by
  simp [outcomeAfter, abort?]

theorem outcomeAfter_finish : outcomeAfter (entries ++ [finish]) =
    if outcomeAfter entries = .running then .completed else outcomeAfter entries := by
  have hkept : (entries ++ [finish]).filterMap abort? = entries.filterMap abort? := by
    simp [abort?]
  have hended : (entries ++ [finish]).any isFinish = true := by simp [isFinish]
  unfold outcomeAfter
  rw [hkept, hended]
  cases (entries.filterMap abort?).getLast? with
  | some _ => rfl
  | none => cases entries.any isFinish <;> rfl

theorem outcomeAfter_other (habort : entry.abort? = none) (hfinish : entry.isFinish = false) :
    outcomeAfter (entries ++ [entry]) = outcomeAfter entries := by
  simp [outcomeAfter, habort, hfinish]

theorem outcomeAfter_eq_completed : outcomeAfter entries = .completed ↔
    finish ∈ entries ∧ ∀ stage e, abort stage e ∉ entries := by
  rw [← filterMap_abort?_eq_nil, ← List.getLast?_eq_none_iff, ← any_isFinish_iff]
  unfold outcomeAfter
  cases (entries.filterMap abort?).getLast? with
  | some _ => simp
  | none => simp

/-- A result is good exactly as it is in the report. -/
theorem outcome?_ok (entry : Entry) :
    entry.outcome?.map HostOutcome.ok = entry.result?.map Except.isOk := by
  cases entry with
  | hostResult host result => cases result <;> rfl
  | targetResult name address result => cases result <;> rfl
  | _ => rfl

end Entry

/-! ## Reports -/

/-- The report of a procedure with these entries. -/
def written (procedure : Procedure) (entries : List Entry) : Report :=
  entries.foldl Entry.enter (.new procedure)

section Written

variable {procedure : Procedure} {entries : List Entry}

theorem written_concat (entry : Entry) :
    written procedure (entries ++ [entry]) = entry.enter (written procedure entries) := by
  simp [written, List.foldl_append]

/-- A law that holds of the empty report and is kept by one more entry holds of all entries. -/
theorem written_eq {β : Type} {f : Report → β} {g : List Entry → β}
    (hnew : f (.new procedure) = g [])
    (hstep : ∀ r entries entry, f r = g entries → f (entry.enter r) = g (entries ++ [entry])) :
    f (written procedure entries) = g entries := by
  induction entries using List.reverseRecOn with
  | nil => exact hnew
  | append_singleton entries entry ih =>
    rw [written_concat]
    exact hstep _ _ _ ih

theorem written_procedure : (written procedure entries).procedure = procedure := by
  refine written_eq (g := fun _ => procedure) rfl fun r _ entry h => ?_
  cases entry <;> exact h

/-- The last abort stands; without one the procedure has come to its end, or is running. -/
theorem written_outcome :
    (written procedure entries).outcome = Entry.outcomeAfter entries := by
  refine written_eq rfl fun r entries entry h => ?_
  cases entry with
  | abort stage e => exact Entry.outcomeAfter_abort.symm
  | finish =>
    rw [Entry.outcomeAfter_finish, ← h]
    rfl
  | _ =>
    rw [Entry.outcomeAfter_other rfl rfl]
    exact h

theorem written_stages :
    (written procedure entries).stages = entries.filterMap Entry.stage? := by
  refine written_eq rfl fun r entries entry h => ?_
  rw [List.filterMap_append, ← h]
  cases entry with
  | stageOk | stageFailed | abort => rfl
  | _ => exact (List.append_nil _).symm

theorem written_hosts :
    (written procedure entries).hosts = entries.filterMap Entry.outcome? := by
  refine written_eq rfl fun r entries entry h => ?_
  rw [List.filterMap_append, ← h]
  cases entry with
  | hostResult | targetResult => rfl
  | _ => exact (List.append_nil _).symm

/-- What is good in a report is what was entered as good. -/
theorem written_ok : (written procedure entries).hosts.map HostOutcome.ok =
    (entries.filterMap Entry.result?).map Except.isOk := by
  rw [written_hosts, List.map_filterMap, List.map_filterMap]
  exact congrArg (fun f => entries.filterMap f) (funext Entry.outcome?_ok)

theorem written_length :
    (written procedure entries).hosts.length = (entries.filterMap Entry.result?).length := by
  simpa using congrArg List.length written_ok

theorem written_good : ((written procedure entries).hosts.filter HostOutcome.ok).length =
    ((entries.filterMap Entry.result?).filter Except.isOk).length := by
  have hgood : ((written procedure entries).hosts.map HostOutcome.ok).filter id =
      ((entries.filterMap Entry.result?).map Except.isOk).filter id := by rw [written_ok]
  simpa [List.filter_map] using congrArg List.length hgood

theorem written_finished : (written procedure entries).finished =
    entries.any fun entry => entry.isFinish || entry.abort?.isSome := by
  refine written_eq (f := finished) (g := fun entries => entries.any fun entry =>
    entry.isFinish || entry.abort?.isSome) rfl fun r entries entry h => ?_
  rw [List.any_append, ← h]
  cases entry with
  | abort | finish => exact (Bool.or_true _).symm
  | _ => exact (Bool.or_false _).symm

theorem written_finished_iff : (written procedure entries).finished = true ↔
    Entry.finish ∈ entries ∨ ∃ stage e, Entry.abort stage e ∈ entries := by
  rw [written_finished, List.any_eq_true]
  constructor
  · rintro ⟨entry, hm, hends⟩
    cases entry with
    | finish => exact .inl hm
    | abort stage e => exact .inr ⟨stage, e, hm⟩
    | _ => cases hends
  · rintro (hm | ⟨stage, e, hm⟩)
    · exact ⟨_, hm, rfl⟩
    · exact ⟨_, hm, rfl⟩

theorem isOk_iff {result : Except FleetError Unit} : result.isOk = true ↔ result = .ok () := by
  cases result with
  | ok _ => exact iff_of_true rfl rfl
  | error _ => exact iff_of_false Bool.false_ne_true nofun

/-- A procedure has succeeded when it came to its end, was never aborted, and all results are good,
also those that were entered after its end. -/
theorem written_succeeded : (written procedure entries).succeeded = true ↔
    Entry.finish ∈ entries ∧ (∀ stage e, Entry.abort stage e ∉ entries) ∧
      ∀ result ∈ entries.filterMap Entry.result?, result = .ok () := by
  have hgood : (written procedure entries).hosts.all HostOutcome.ok = true ↔
      ∀ result ∈ entries.filterMap Entry.result?, result = .ok () := by
    rw [← Function.id_comp HostOutcome.ok, ← List.all_map, written_ok, List.all_map,
      List.all_eq_true]
    exact forall₂_congr fun result _ => isOk_iff
  unfold succeeded
  rw [Bool.and_eq_true, hgood, beq_iff_eq, written_outcome, Entry.outcomeAfter_eq_completed,
    and_assoc]

end Written

/-! ## Summaries -/

section Summaries

variable {r : Report} {took : String}

/-- The lines of a summary after the first. -/
def restOfSummary (r : Report) : String :=
  String.join ((r.hostLines ++ r.snapshots.map Snapshot.summaryLine ++
    r.transfers.map Transfer.summaryLine).map (· ++ "\n"))

theorem summaryWith_eq :
    r.summaryWith took = r.headLine took ++ "\n" ++ r.restOfSummary := by
  unfold summaryWith restOfSummary
  rw [List.cons_append, List.cons_append, List.map_cons, String.join_cons]

/-- The words for a success are those of no other end, whatever stands after them. -/
theorem outcomeText_completed_iff (tail : String) :
    (∃ rest, r.outcomeText ++ " (" ++ tail = "completed (" ++ rest) ↔ r.succeeded = true := by
  unfold outcomeText
  cases houtcome : r.outcome with
  | running =>
    refine iff_of_false (fun ⟨rest, h⟩ => ?_) (by simp [succeeded, houtcome])
    simpa using congrArg String.toList h
  | aborted stage kind error =>
    refine iff_of_false (fun ⟨rest, h⟩ => ?_) (by simp [succeeded, houtcome])
    simpa using congrArg String.toList h
  | completed =>
    by_cases hsucceeded : r.succeeded = true
    · simp only [hsucceeded, if_true]
      exact iff_of_true ⟨tail, rfl⟩ trivial
    · simp only [hsucceeded]
      refine iff_of_false (fun ⟨rest, h⟩ => ?_) nofun
      simpa using congrArg String.toList h

/-- A summary begins as that of a completed procedure exactly when the report has succeeded. -/
theorem summaryWith_completed_iff :
    (∃ rest, r.summaryWith took = r.procedure.toText ++ ": completed (" ++ rest) ↔
      r.succeeded = true := by
  have hcolon : ": completed (" = ": " ++ "completed (" := by decide
  rw [← outcomeText_completed_iff (took ++ ")" ++ "\n" ++ r.restOfSummary), summaryWith_eq,
    headLine, hcolon]
  refine exists_congr fun rest => ?_
  simp only [String.append_assoc, String.append_right_inj]

/-- A summary with results counts the good ones and all of them. -/
theorem summaryWith_counts (h : r.hosts ≠ []) : ∃ rest, r.summaryWith took =
    r.headLine took ++ "\nhosts: " ++ toString (r.hosts.filter HostOutcome.ok).length ++ "/" ++
      toString r.hosts.length ++ " ok\n" ++ rest := by
  have hlines : r.hostLines =
      ("hosts: " ++ toString (r.hosts.filter HostOutcome.ok).length ++ "/" ++
        toString r.hosts.length ++ " ok") :: r.hosts.map HostOutcome.summaryLine := by
    unfold hostLines
    rw [if_neg (mt List.isEmpty_iff.mp h)]
  rw [summaryWith_eq, restOfSummary, hlines, List.cons_append, List.cons_append, List.map_cons,
    String.join_cons]
  generalize String.join _ = rest
  refine ⟨rest, ?_⟩
  have hline : "\nhosts: " = "\n" ++ "hosts: " := by decide
  have hend : " ok\n" = " ok" ++ "\n" := by decide
  rw [hline, hend]
  simp only [String.append_assoc]

end Summaries

/-! ## Reports and their entries -/

/-- What a report says of its entries, and what its summary says. -/
structure Records (procedure : Procedure) (entries : List Entry) (r : Report) : Prop where
  outcome : r.outcome = Entry.outcomeAfter entries
  succeeded : r.succeeded = true ↔
    Entry.finish ∈ entries ∧ (∀ stage e, Entry.abort stage e ∉ entries) ∧
      ∀ result ∈ entries.filterMap Entry.result?, result = .ok ()
  stages : r.stages = entries.filterMap Entry.stage?
  hosts : r.hosts = entries.filterMap Entry.outcome?
  finished : r.finished = true ↔
    Entry.finish ∈ entries ∨ ∃ stage e, Entry.abort stage e ∈ entries
  begins : ∀ elapsed, (∃ rest, r.summary elapsed = procedure.toText ++ ": completed (" ++ rest) ↔
    r.succeeded = true
  counts : ∀ elapsed, entries.filterMap Entry.result? ≠ [] →
    ∃ rest, r.summary elapsed =
      r.headLine (elapsedText (if r.finished then elapsed else .zero)) ++ "\nhosts: " ++
      toString ((entries.filterMap Entry.result?).filter Except.isOk).length ++ "/" ++
      toString (entries.filterMap Entry.result?).length ++ " ok\n" ++ rest

/-- Whatever is entered, and in whatever order, the report says what was entered: how the procedure
ended, whether it has succeeded, its stages and results, and whether it has ended; and the summary
says the same.  A procedure that was aborted has not succeeded, whatever is entered after that. -/
theorem written_records (procedure : Procedure) (entries : List Entry) :
    (written procedure entries).Records procedure entries ∧
      ∀ stage e, Entry.abort stage e ∈ entries → ∀ later,
        (written procedure (entries ++ later)).succeeded = false := by
  refine ⟨⟨written_outcome, written_succeeded, written_stages, written_hosts,
    written_finished_iff, fun elapsed => ?_, fun elapsed hresults => ?_⟩, ?_⟩
  · rw [← summaryWith_completed_iff, written_procedure]
    rfl
  · rw [← written_good, ← written_length]
    refine summaryWith_counts fun hnone => hresults (List.eq_nil_of_length_eq_zero ?_)
    rw [← written_length, hnone]
    rfl
  · intro stage e hm later
    refine Bool.eq_false_iff.mpr fun hsucceeded => ?_
    exact (written_succeeded.mp hsucceeded).2.1 stage e (List.mem_append_left later hm)

/-- An end that comes after an abort, and before another. -/
example : (written .reboot [.abort "stop" .cancelled, .finish, .abort "start" .cancelled]).outcome =
    .aborted "start" .cancelled FleetError.cancelled.message := rfl

end NodeFleet.Report
