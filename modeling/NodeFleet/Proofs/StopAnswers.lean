import NodeFleet.Proofs.Escapes
import NodeFleet.Proofs.Heeding
import NodeFleet.Proofs.Lowercase
import NodeFleet.Proofs.Replying
import NodeFleet.Proofs.Rosters
import NodeFleet.Proofs.Stopping

/-!
# NodeFleet.Proofs.StopAnswers — what each answer to a request to stop leads to

The answer to a request to stop is text, and every text is one of three: an acceptance, after which
there is a wait; a refusal that only says that the daemon is not up, which counts as a stop; or
another refusal.  An answer that is no acceptance is looked at once more in the reason of its
refusal, which may hold it in quoted form; quoting does not change what it says.

* `saysNotRunning_quoted`: the phrase is found in the quoted text when it is in the text itself.
* `Fleet.stopVerdict`, `stopDaemon_cases`: what an answer is taken for.
* `Fleet.StopsBy`, `stopHost_cases`: what is done after an answer, and how the stop ends.
* `Fleet.Classifies`, `stop_answers_classified`: the same, read by the result.
-/

namespace NodeFleet

variable {l : Log}

/-! ## Answers -/

/-- The reason with which an answer that does not accept a stop is refused. -/
def Reply.stopReason (reply : Reply) : String :=
  if mentionsError reply.text then reply.text
  else "unrecognized response: " ++ Text.quoted reply.text

theorem isPlainPhrase_notRunning : Text.IsPlainPhrase "couldn't connect to server".toList where
  plain c hc := by
    have hall : "couldn't connect to server".toList.all (fun c => decide (Text.IsPlain c)) = true :=
      by decide
    exact of_decide_eq_true (List.all_eq_true.mp hall c hc)
  begins := by simp
  wide := ⟨'o', by decide, by decide⟩

/-- A quoted answer says that the daemon is not up exactly when the answer itself does. -/
theorem saysNotRunning_quoted (text : String) :
    saysNotRunning ("unrecognized response: " ++ Text.quoted text) = saysNotRunning text :=
  Text.mentions_quoted isPlainPhrase_notRunning (by decide) text

theorem Reply.saysNotRunning_stopReason (reply : Reply) :
    saysNotRunning reply.stopReason = saysNotRunning reply.text := by
  unfold stopReason
  split
  · rfl
  · exact saysNotRunning_quoted reply.text

theorem stop_refusal?_eq (reply : Reply) :
    (ReplyKind.stop.read reply).refusal? =
      if Text.mentions "stopping" reply.text then none else some reply.stopReason := by
  simp only [ReplyKind.read, Reply.stopReason]
  split
  · rfl
  · split
    · rfl
    · rfl

theorem stop_refusal?_eq_none {reply : Reply} :
    (ReplyKind.stop.read reply).refusal? = none ↔ Text.mentions "stopping" reply.text := by
  rw [stop_refusal?_eq]
  split
  · simp [*]
  · simp [*]

theorem stop_refusal?_eq_some {reply : Reply} {reason : String} :
    (ReplyKind.stop.read reply).refusal? = some reason ↔
      ¬ Text.mentions "stopping" reply.text ∧ reason = reply.stopReason := by
  rw [stop_refusal?_eq]
  split
  · simp [*]
  · simp [*, eq_comm]

/-! ## Waits -/

/-- What a log begins with was answered by the world. -/
theorem Program.log_eq_cons {α σ : Type} {world : World σ} {s : σ} {p : Program α} {q : Request}
    {answer : q.Answer} {rest : Log} (h : p.log world s = ⟨q, answer⟩ :: rest) :
    answer = (world q s).1 ∧ ∃ next : Program α, rest = next.log world (world q s).2 := by
  cases p with
  | done a => cases h
  | ask q' next =>
    obtain ⟨heq, rfl⟩ := List.cons.inj h
    cases heq
    exact ⟨rfl, _, rfl⟩

/-- The log of a wait that the operator does not cut short. -/
def Log.waitOut (delay : Duration) : Log :=
  ⟨.cancelled, false⟩ :: if delay = .zero then [] else [⟨.sleep delay, true⟩]

/-- A wait goes well exactly when it is not cut short. -/
theorem settle_verdict {delay : Duration} {r : Except FleetError Unit}
    (h : (settle delay).run.Yields l r) :
    (Calm l ∧ l = .waitOut delay ∧ r = .ok ()) ∨ (¬ Calm l ∧ r = .error .cancelled) := by
  obtain ⟨rfl, rfl⟩ | ⟨rfl, hzero, rfl⟩ | ⟨ended, rfl, hdelay, rfl⟩ := settle_cases h
  · exact .inr ⟨fun hcalm => absurd (hcalm _ List.mem_cons_self) Bool.noConfusion, rfl⟩
  · refine .inl ⟨List.forall_mem_singleton.mpr rfl, ?_, rfl⟩
    rw [Log.waitOut, if_pos hzero]
  · cases ended with
    | true =>
      refine .inl ⟨List.forall_mem_cons.mpr ⟨rfl, List.forall_mem_singleton.mpr rfl⟩, ?_, rfl⟩
      rw [Log.waitOut, if_neg hdelay]
    | false =>
      refine .inr ⟨fun hcalm => ?_, rfl⟩
      have hended : false = true := hcalm ⟨.sleep delay, false⟩ (by simp)
      cases hended

namespace Fleet

variable (fleet : Fleet) {host : Host} {reply : Reply} {r : Except FleetError Stopped}

/-! ## What follows an answer -/

/-- The answer to a request to stop, as it stands in a log. -/
def stopAnswered (host : Host) (reply : Reply) : Event :=
  ⟨.run host (fleet.command .stop), .ok reply⟩

/-- What an answer to a request to stop is taken for. -/
def stopVerdict (host : Host) (reply : Reply) : Except FleetError Stopped :=
  if Text.mentions "stopping" reply.text then .ok .now
  else if saysNotRunning reply.text then .ok .before
  else .error (.commandRejected host.name (fleet.command .stop).line reply.stopReason)

theorem stopVerdict_eq_now :
    fleet.stopVerdict host reply = .ok .now ↔ Text.mentions "stopping" reply.text := by
  unfold stopVerdict
  split
  · simp [*]
  · split
    · simp [*]
    · simp [*]

theorem stopVerdict_eq_before :
    fleet.stopVerdict host reply = .ok .before ↔
      ¬ Text.mentions "stopping" reply.text ∧ saysNotRunning reply.text := by
  unfold stopVerdict
  split
  · simp [*]
  · split
    · simp [*]
    · simp [*]

theorem stopVerdict_eq_error {e : FleetError} :
    fleet.stopVerdict host reply = .error e ↔
      (¬ Text.mentions "stopping" reply.text ∧ ¬ saysNotRunning reply.text) ∧
        e = .commandRejected host.name (fleet.command .stop).line reply.stopReason := by
  unfold stopVerdict
  split
  · simp [*]
  · split
    · simp [*]
    · simp [*, eq_comm]

/-- An answer is taken for what its text says, whether or not it is looked at in quoted form. -/
theorem stopDaemon_cases (h : (fleet.stopDaemon host).run.Yields l r) :
    (∃ cause, l = [⟨.run host (fleet.command .stop), .error cause⟩] ∧
      r = .error (.session host.name cause)) ∨
    ∃ reply, l = [fleet.stopAnswered host reply] ∧ r = fleet.stopVerdict host reply := by
  unfold stopDaemon at h
  rw [ExceptT.run_bind] at h
  obtain ⟨l₁, l₂, caught, rfl, h₁, h₂⟩ := Program.yields_bind.mp h
  obtain ⟨result, hresult, rfl⟩ := yields_caught.mp h₁
  -- a refusal is caught: where it says that nothing runs, the daemon counts as stopped
  cases result with
  | ok reading =>
    obtain ⟨reply, rfl, rfl, hnone⟩ := yields_expect_ok.mp hresult
    obtain ⟨rfl, rfl⟩ := Program.yields_run_pure.mp h₂
    have haccepted := stop_refusal?_eq_none.mp hnone
    exact .inr ⟨reply, rfl, (fleet.stopVerdict_eq_now.mpr haccepted).symm⟩
  | error e =>
    obtain ⟨cause, rfl, rfl⟩ | ⟨reply, reason, rfl, hsome, rfl⟩ := yields_expect_error.mp hresult
    · obtain ⟨rfl, rfl⟩ := Program.yields_run_throw.mp h₂
      exact .inl ⟨cause, rfl, rfl⟩
    · obtain ⟨hno, rfl⟩ := stop_refusal?_eq_some.mp hsome
      refine .inr ⟨reply, ?_⟩
      simp only [reply.saysNotRunning_stopReason] at h₂
      split at h₂
      · obtain ⟨rfl, rfl⟩ := Program.yields_run_pure.mp h₂
        exact ⟨rfl, (fleet.stopVerdict_eq_before.mpr ⟨hno, ‹_›⟩).symm⟩
      · obtain ⟨rfl, rfl⟩ := Program.yields_run_throw.mp h₂
        exact ⟨rfl, (fleet.stopVerdict_eq_error.mpr ⟨⟨hno, ‹_›⟩, rfl⟩).symm⟩

/-- What the answer to a request to stop leads to: what is done after it, and how the stop ends. -/
inductive StopsBy (host : Host) (reply : Reply) : Log → Except FleetError Stopped → Prop
  | accepted {wait : Log} {ended : Except FleetError Unit}
      (h : fleet.stopVerdict host reply = .ok .now)
      (hwait : fleet.stopWait.run.Yields wait ended) :
      StopsBy host reply wait (ended.map fun _ => .now)
  | other (h : fleet.stopVerdict host reply ≠ .ok .now) :
      StopsBy host reply [] (fleet.stopVerdict host reply)

/-- The steps in the session of a stop: a break of the session, or an answer and what it leads
to. -/
theorem stopSteps_cases (h : (fleet.stopSteps host).run.Yields l r) :
    (∃ cause, l = [⟨.run host (fleet.command .stop), .error cause⟩] ∧
      r = .error (.session host.name cause)) ∨
    ∃ reply wait, l = fleet.stopAnswered host reply :: wait ∧ fleet.StopsBy host reply wait r := by
  unfold stopSteps at h
  rw [ExceptT.run_bind] at h
  obtain ⟨l₁, l₂, stopped, rfl, h₁, h₂⟩ := Program.yields_bind.mp h
  obtain ⟨cause, rfl, rfl⟩ | ⟨reply, rfl, rfl⟩ := fleet.stopDaemon_cases h₁
  · obtain ⟨rfl, rfl⟩ := Program.yields_run_throw.mp h₂
    exact .inl ⟨cause, rfl, rfl⟩
  · refine .inr ⟨reply, l₂, rfl, ?_⟩
    -- only after an accepted stop is there a wait
    by_cases hnow : fleet.stopVerdict host reply = .ok .now
    · simp only [hnow, if_true] at h₂
      rw [ExceptT.run_bind] at h₂
      obtain ⟨wait, rest, ended, rfl, hwait, hrest⟩ := Program.yields_bind.mp h₂
      have hend : rest = [] ∧ r = ended.map fun _ => .now := by
        cases ended with
        | ok _ => exact hrest
        | error _ => exact hrest
      obtain ⟨rfl, rfl⟩ := hend
      rw [List.append_nil]
      exact .accepted hnow hwait
    · have hend : l₂ = [] ∧ r = fleet.stopVerdict host reply := by
        match hverdict : fleet.stopVerdict host reply with
        | .ok .now => exact absurd hverdict hnow
        | .ok .before => rwa [hverdict] at h₂
        | .error _ => rwa [hverdict] at h₂
      obtain ⟨rfl, rfl⟩ := hend
      exact .other hnow

/-- A stop is refused a session, or its session breaks, or it is answered and goes on as the answer
says. -/
theorem stopHost_cases (h : (fleet.stopHost host).run.Yields l r) :
    (∃ cause, l = Log.refused host cause) ∨
    (∃ cause, l = Log.session host [⟨.run host (fleet.command .stop), .error cause⟩]) ∨
    ∃ reply wait, l = Log.session host (fleet.stopAnswered host reply :: wait) ∧
      fleet.StopsBy host reply wait r := by
  obtain ⟨cause, rfl, -⟩ | ⟨inner, rfl, hinner⟩ := inSession_cases h
  · exact .inl ⟨cause, rfl⟩
  · obtain ⟨cause, rfl, -⟩ | ⟨reply, wait, rfl, hstops⟩ := fleet.stopSteps_cases hinner
    · exact .inr (.inl ⟨cause, rfl⟩)
    · exact .inr (.inr ⟨reply, wait, rfl, hstops⟩)

/-! ## What each answer leads to -/

theorem calm_answered (host : Host) (reply : Reply) {wait : Log} :
    Calm (Log.session host (fleet.stopAnswered host reply :: wait)) ↔ Calm wait := by
  rw [calm_session]
  exact List.forall_mem_cons.trans (and_iff_right trivial)

/-- A stop that was answered, read by its result: every text is taken for one of three answers, and
the first of them leads to the only wait. -/
structure Classifies (host : Host) (reply : Reply) (l : Log) (r : Except FleetError Stopped) :
    Prop where
  now : r = .ok .now ↔ Text.mentions "stopping" reply.text ∧ Calm l
  before : r = .ok .before ↔
    ¬ Text.mentions "stopping" reply.text ∧ saysNotRunning reply.text
  rejected : r = .error (.commandRejected host.name (fleet.command .stop).line reply.stopReason) ↔
    ¬ Text.mentions "stopping" reply.text ∧ ¬ saysNotRunning reply.text
  cancelled : r = .error .cancelled ↔ Text.mentions "stopping" reply.text ∧ ¬ Calm l
  waits : Text.mentions "stopping" reply.text → Calm l →
    l = Log.session host (fleet.stopAnswered host reply ::
      Log.waitOut (.ofSeconds fleet.config.timing.stopSettle))
  goesOn : ¬ Text.mentions "stopping" reply.text →
    l = Log.session host [fleet.stopAnswered host reply]

variable {fleet} in
theorem StopsBy.classifies {wait : Log} (h : fleet.StopsBy host reply wait r) :
    fleet.Classifies host reply (Log.session host (fleet.stopAnswered host reply :: wait)) r := by
  cases h with
  | accepted hnow hwait =>
    have hstopping := fleet.stopVerdict_eq_now.mp hnow
    obtain ⟨hcalm, rfl, rfl⟩ | ⟨hcut, rfl⟩ := settle_verdict hwait
    · have hcalm := (fleet.calm_answered host reply).mpr hcalm
      constructor <;> simp [Except.map, hstopping, hcalm]
    -- the wait after the answer was cut short
    · have hcut := mt (fleet.calm_answered host reply).mp hcut
      constructor <;> simp [Except.map, hstopping, hcut]
  | other hother =>
    have hno := mt fleet.stopVerdict_eq_now.mpr hother
    constructor
    case now => exact iff_of_false hother fun h => hno h.1
    case before => exact fleet.stopVerdict_eq_before
    case rejected => exact fleet.stopVerdict_eq_error.trans (and_iff_left rfl)
    case cancelled =>
      refine iff_of_false (fun h => ?_) fun h => hno h.1
      cases (fleet.stopVerdict_eq_error.mp h).2
    case waits => exact fun h => absurd h hno
    case goesOn => exact fun _ => rfl

/-- In a world that lets the host be reached and gives an answer to the request to stop, that answer
decides how the stop ends, by what the answer holds when it is put in small letters. -/
theorem stop_answers_classified {σ : Type} (world : World σ) (s : σ) (host : Host) (reply : Reply)
    (hreached : (world (.connect host) s).1 = .ok ())
    (hanswer : (world (.run host (fleet.command .stop)) (world (.connect host) s).2).1 =
      .ok reply) :
    fleet.Classifies host reply ((fleet.stopHost host).run.log world s)
        ((fleet.stopHost host).run.run world s).1 ∧
      saysNotRunning ("unrecognized response: " ++ Text.quoted reply.text) =
        saysNotRunning reply.text ∧
      (saysNotRunning reply.text → ReplyKind.masternodeStatus.read reply = .running false) ∧
      ∀ lowered, Text.IsLowered reply.text lowered →
        (Text.mentions "stopping" reply.text ↔ "stopping".toList <:+: lowered.toList) ∧
        (saysNotRunning reply.text ↔
          "couldn't connect to server".toList <:+: lowered.toList) := by
  refine ⟨?_, saysNotRunning_quoted reply.text, fun hdown => ?_, fun lowered hlowered => ?_⟩
  · obtain ⟨cause, hl⟩ | ⟨cause, hl⟩ | ⟨reply', wait, hl, hstops⟩ :=
      fleet.stopHost_cases (Program.yields_log world (fleet.stopHost host).run s)
    · obtain ⟨hconnect, -⟩ := Program.log_eq_cons hl
      cases hconnect.trans hreached
    · obtain ⟨-, next, hl⟩ := Program.log_eq_cons hl
      obtain ⟨hrun, -⟩ := Program.log_eq_cons hl.symm
      cases hrun.trans hanswer
    · obtain ⟨-, next, hrest⟩ := Program.log_eq_cons hl
      obtain ⟨hrun, -⟩ := Program.log_eq_cons hrest.symm
      cases hrun.trans hanswer
      rw [hl]
      exact hstops.classifies
  · simp [ReplyKind.read, hdown]
  · have hfound {phrase : String} (hphrase : phrase ∈ searchedPhrases) :
        Text.mentions phrase reply.text ↔ phrase.toList <:+: lowered.toList := by
      rw [searchedPhrases_lowered hlowered phrase hphrase, Text.occursIn_iff]
    exact ⟨hfound (by decide), hfound (by decide)⟩

/-- A masternode whose daemon is not up, which does not call that an error. -/
theorem stop_answers_classified_unmarked :
    let world := World.replying fun _ _ => "Couldn't connect to server: no reply"
    let reply : Reply := ⟨"", ["Couldn't connect to server: no reply"], some 0⟩
    (world (.connect .mn) ()).1 = .ok () ∧
      (world (.run .mn (pair.command .stop)) (world (.connect .mn) ()).2).1 = .ok reply ∧
      mentionsError reply.text = false ∧
      ((pair.stopHost .mn).run.run world ()).1 = .ok .before ∧
      (pair.stopHost .mn).run.log world () = Log.session .mn [pair.stopAnswered .mn reply] := by
  obtain ⟨hclass, -⟩ := stop_answers_classified pair
    (World.replying fun _ _ => "Couldn't connect to server: no reply") () .mn
    ⟨"", ["Couldn't connect to server: no reply"], some 0⟩ rfl rfl
  have hstopping : ¬ Text.mentions "stopping"
      (Reply.text ⟨"", ["Couldn't connect to server: no reply"], some 0⟩) := by decide
  exact ⟨rfl, rfl, by decide, hclass.before.mpr ⟨hstopping, by decide⟩, hclass.goesOn hstopping⟩

end Fleet

end NodeFleet
