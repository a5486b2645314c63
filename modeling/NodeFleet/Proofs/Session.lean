import NodeFleet.Proofs.Log
import NodeFleet.Program.Session

/-!
# NodeFleet.Proofs.Session — the logs of steps on one host

For each step on a host: the logs that it can leave, and what its result is.  These lemmas say all
that the steps can do, so that nothing built from them has to look into them again.

* `Log.session`: a session with what is done in it.  `Log.refused`: a connection that failed.
* `yields_exchange_ok`, `yields_expect_ok`, `yields_expectToken_ok`, ...: single commands.
* `yields_inSession_ok`, `yields_inSession_error`: a step in a session of its own.
-/

namespace NodeFleet

/-- A session to a host, with what is done in it. -/
def Log.session (host : Host) (body : Log) : Log :=
  ⟨.connect host, .ok ()⟩ :: (body ++ [⟨.close host, ()⟩])

/-- A connection to a host that failed. -/
def Log.refused (host : Host) (cause : RemoteError) : Log := [⟨.connect host, .error cause⟩]

variable {α : Type} {l : Log} {host : Host} {command : Command}

/-! ## Steps of one request -/

theorem yields_ofExcept {result r : Except FleetError α} :
    (Step.ofExcept result).run.Yields l r ↔ l = [] ∧ r = result := Iff.rfl

theorem yields_ofRequest {wrap : RemoteError → FleetError} {p : Program (Except RemoteError α)}
    {r : Except FleetError α} :
    (Step.ofRequest wrap p).run.Yields l r ↔
      ∃ answer, p.Yields l answer ∧ r = answer.mapError wrap :=
  Program.yields_map

/-- A step that is caught hands on how it ends. -/
theorem yields_caught {step : Step α} {r : Except FleetError (Except FleetError α)} :
    step.caught.run.Yields l r ↔ ∃ result, step.run.Yields l result ∧ r = .ok result :=
  Program.yields_run_lift

theorem yields_exchange {r : Except FleetError Reply} :
    (exchange host command).run.Yields l r ↔
      ∃ answer : Except RemoteError Reply,
        l = [⟨.run host command, answer⟩] ∧ r = answer.mapError (.session host.name) := by
  unfold exchange
  rw [yields_ofRequest]
  exact exists_congr fun answer => and_congr_left' Program.yields_request

theorem yields_exchange_ok {reply : Reply} :
    (exchange host command).run.Yields l (.ok reply) ↔ l = [⟨.run host command, .ok reply⟩] := by
  rw [yields_exchange]
  constructor
  · rintro ⟨answer | answer, rfl, h⟩
    · cases h
    · cases h
      rfl
  · rintro rfl
    exact ⟨.ok reply, rfl, rfl⟩

theorem yields_exchange_error {e : FleetError} :
    (exchange host command).run.Yields l (.error e) ↔
      ∃ cause, l = [⟨.run host command, .error cause⟩] ∧ e = .session host.name cause := by
  rw [yields_exchange]
  constructor
  · rintro ⟨answer | answer, rfl, h⟩
    · cases h
      exact ⟨answer, rfl, rfl⟩
    · cases h
  · rintro ⟨cause, rfl, rfl⟩
    exact ⟨.error cause, rfl, rfl⟩

/-- A command goes well when its answer is read as something that is no refusal. -/
theorem yields_expect_ok {kind : ReplyKind} {reading : Reading} :
    (expect host command kind).run.Yields l (.ok reading) ↔
      ∃ reply, l = [⟨.run host command, .ok reply⟩] ∧ kind.read reply = reading ∧
        reading.refusal? = none := by
  unfold expect
  rw [Program.yields_bind_ok]
  constructor
  · rintro ⟨l₁, l₂, reply, rfl, h₁, h₂⟩
    rw [yields_exchange_ok] at h₁
    subst h₁
    dsimp only at h₂
    split at h₂
    · cases (Program.yields_run_throw.mp h₂).2
    · obtain ⟨rfl, h⟩ := Program.yields_run_pure.mp h₂
      cases h
      exact ⟨reply, rfl, rfl, ‹_›⟩
  · rintro ⟨reply, rfl, rfl, h⟩
    refine ⟨_, [], reply, rfl, yields_exchange_ok.mpr rfl, ?_⟩
    dsimp only
    rw [h]
    exact ⟨rfl, rfl⟩

/-- A command fails when the session breaks, or when its answer is a refusal. -/
theorem yields_expect_error {kind : ReplyKind} {e : FleetError} :
    (expect host command kind).run.Yields l (.error e) ↔
      (∃ cause, l = [⟨.run host command, .error cause⟩] ∧ e = .session host.name cause) ∨
        ∃ reply reason, l = [⟨.run host command, .ok reply⟩] ∧
          (kind.read reply).refusal? = some reason ∧
          e = .commandRejected host.name command.line reason := by
  unfold expect
  rw [Program.yields_bind_error, yields_exchange_error]
  refine or_congr_right ?_
  constructor
  · rintro ⟨l₁, l₂, reply, rfl, h₁, h₂⟩
    rw [yields_exchange_ok] at h₁
    subst h₁
    dsimp only at h₂
    split at h₂
    · obtain ⟨rfl, h⟩ := Program.yields_run_throw.mp h₂
      cases h
      exact ⟨reply, _, rfl, ‹_›, rfl⟩
    · cases (Program.yields_run_pure.mp h₂).2
  · rintro ⟨reply, reason, rfl, h, rfl⟩
    refine ⟨_, [], reply, rfl, yields_exchange_ok.mpr rfl, ?_⟩
    dsimp only
    rw [h]
    exact ⟨rfl, rfl⟩

/-- However it ends, a command is sent once. -/
theorem expect_sends {kind : ReplyKind} {r : Except FleetError Reading}
    (h : (expect host command kind).run.Yields l r) :
    ∃ answer, l = [⟨.run host command, answer⟩] := by
  cases r with
  | ok reading =>
    obtain ⟨reply, rfl, -⟩ := yields_expect_ok.mp h
    exact ⟨_, rfl⟩
  | error e =>
    obtain ⟨cause, rfl, -⟩ | ⟨reply, _, rfl, -⟩ := yields_expect_error.mp h
    · exact ⟨_, rfl⟩
    · exact ⟨_, rfl⟩

/-- A command generates the word that its answer holds. -/
theorem yields_expectToken_ok {word : String} :
    (expectToken host command).run.Yields l (.ok word) ↔
      ∃ reply, l = [⟨.run host command, .ok reply⟩] ∧ token reply = .ok word := by
  unfold expectToken
  rw [Program.yields_bind_ok]
  constructor
  · rintro ⟨l₁, l₂, reply, rfl, h₁, h₂⟩
    rw [yields_exchange_ok] at h₁
    subst h₁
    split at h₂
    · obtain ⟨rfl, h⟩ := Program.yields_run_pure.mp h₂
      cases h
      exact ⟨reply, rfl, ‹_›⟩
    · cases (Program.yields_run_throw.mp h₂).2
  · rintro ⟨reply, rfl, h⟩
    refine ⟨_, [], reply, rfl, yields_exchange_ok.mpr rfl, ?_⟩
    rw [h]
    exact ⟨rfl, rfl⟩

/-- A command fails to generate a word when the session breaks, or when its answer holds none. -/
theorem yields_expectToken_error {e : FleetError} :
    (expectToken host command).run.Yields l (.error e) ↔
      (∃ cause, l = [⟨.run host command, .error cause⟩] ∧ e = .session host.name cause) ∨
        ∃ reply reason, l = [⟨.run host command, .ok reply⟩] ∧ token reply = .error reason ∧
          e = .commandRejected host.name command.line reason := by
  unfold expectToken
  rw [Program.yields_bind_error, yields_exchange_error]
  refine or_congr_right ?_
  constructor
  · rintro ⟨l₁, l₂, reply, rfl, h₁, h₂⟩
    rw [yields_exchange_ok] at h₁
    subst h₁
    split at h₂
    · cases (Program.yields_run_pure.mp h₂).2
    · obtain ⟨rfl, h⟩ := Program.yields_run_throw.mp h₂
      cases h
      exact ⟨reply, _, rfl, ‹_›, rfl⟩
  · rintro ⟨reply, reason, rfl, h, rfl⟩
    refine ⟨_, [], reply, rfl, yields_exchange_ok.mpr rfl, ?_⟩
    rw [h]
    exact ⟨rfl, rfl⟩

theorem yields_writeFile {path : String} {contents : ByteArray} {r : Except FleetError Unit} :
    (writeFile host path contents).run.Yields l r ↔
      ∃ answer : Except RemoteError Unit,
        l = [⟨.write host path contents, answer⟩] ∧ r = answer.mapError (writeFailure host) := by
  unfold writeFile
  rw [yields_ofRequest]
  exact exists_congr fun answer => and_congr_left' Program.yields_request

/-- A configuration file is written once its directory has been made, or asked to be made. -/
theorem yields_writeConfigFile {daemon : Daemon} {path contents : String}
    {r : Except FleetError Unit} :
    (writeConfigFile host daemon path contents).run.Yields l r ↔
      (∃ cause, l = [⟨.run host ⟨daemon, .makeConfigDir⟩, .error cause⟩] ∧
        r = .error (.session host.name cause)) ∨
      ∃ (reply : Reply) (answer : Except RemoteError Unit),
        l = [⟨.run host ⟨daemon, .makeConfigDir⟩, .ok reply⟩,
          ⟨.write host path contents.toUTF8, answer⟩] ∧
        r = answer.mapError (writeFailure host) := by
  unfold writeConfigFile
  rw [ExceptT.run_bind, Program.yields_bind]
  constructor
  · rintro ⟨l₁, l₂, reply | e, rfl, h₁, h₂⟩
    · obtain ⟨cause, rfl, rfl⟩ := yields_exchange_error.mp h₁
      obtain ⟨rfl, rfl⟩ := Program.yields_pure.mp h₂
      exact .inl ⟨cause, rfl, rfl⟩
    · rw [yields_exchange_ok] at h₁
      subst h₁
      obtain ⟨answer, rfl, rfl⟩ := yields_writeFile.mp h₂
      exact .inr ⟨e, answer, rfl, rfl⟩
  · rintro (⟨cause, rfl, rfl⟩ | ⟨reply, answer, rfl, rfl⟩)
    · exact ⟨_, [], _, (List.append_nil _).symm, yields_exchange_error.mpr ⟨cause, rfl, rfl⟩, rfl,
        rfl⟩
    · exact ⟨_, _, _, rfl, yields_exchange_ok.mpr rfl, yields_writeFile.mpr ⟨answer, rfl, rfl⟩⟩

/-! ## Sessions -/

theorem withSession_run (host : Host) (body : Program α) :
    (withSession host body).run = (do
      match ← Program.connect host with
      | .ok _ => do
        let a ← body
        Program.close host
        pure (.ok a)
      | .error cause => pure (.error (.connectFailure host.name cause))) := by
  unfold withSession Step.ofRequest
  rw [ExceptT.run_bind, ExceptT.run_mk, map_eq_pure_bind, bind_assoc]
  congr 1
  funext answer
  cases answer with
  | error cause => rfl
  | ok _ => exact Program.run_lift_bind body _

/-- A program runs in its session from the opening to the closing; without a session it does not
run. -/
theorem yields_withSession {body : Program α} {r : Except FleetError α} :
    (withSession host body).run.Yields l r ↔
      (∃ cause, l = Log.refused host cause ∧ r = .error (.connectFailure host.name cause)) ∨
        ∃ inner a, l = Log.session host inner ∧ body.Yields inner a ∧ r = .ok a := by
  rw [withSession_run, Program.yields_bind]
  constructor
  · rintro ⟨l₁, l₂, cause | _, rfl, h₁, h₂⟩
    · obtain rfl := Program.yields_request.mp h₁
      obtain ⟨rfl, rfl⟩ := Program.yields_pure.mp h₂
      exact .inl ⟨cause, rfl, rfl⟩
    · obtain rfl := Program.yields_request.mp h₁
      obtain ⟨inner, l₃, a, rfl, h, h₃⟩ := Program.yields_bind.mp h₂
      obtain ⟨l₄, l₅, _, rfl, h₄, rfl, rfl⟩ := Program.yields_bind.mp h₃
      obtain rfl := Program.yields_request.mp h₄
      exact .inr ⟨inner, a, by simp [Log.session], h, rfl⟩
  · rintro (⟨cause, rfl, rfl⟩ | ⟨inner, a, rfl, h, rfl⟩)
    · exact ⟨_, [], .error cause, rfl, Program.yields_request.mpr rfl, rfl, rfl⟩
    · refine ⟨_, inner ++ [⟨.close host, ()⟩], .ok (), rfl, Program.yields_request.mpr rfl, ?_⟩
      refine Program.yields_bind.mpr ⟨inner, _, a, rfl, h, ?_⟩
      exact Program.yields_bind.mpr ⟨_, [], (), rfl, Program.yields_request.mpr rfl, rfl, rfl⟩

/-- A step in a session of its own goes well when the session is opened and the step goes well. -/
theorem yields_inSession_ok {step : Step α} {a : α} :
    (inSession host step).run.Yields l (.ok a) ↔
      ∃ inner, l = Log.session host inner ∧ step.run.Yields inner (.ok a) := by
  unfold inSession
  rw [Program.yields_bind_ok]
  constructor
  · rintro ⟨l₁, l₂, result, rfl, h₁, rfl, rfl⟩
    obtain ⟨cause, rfl, h⟩ | ⟨inner, b, rfl, h, hb⟩ := yields_withSession.mp h₁
    · cases h
    · cases hb
      exact ⟨inner, List.append_nil _, h⟩
  · rintro ⟨inner, rfl, h⟩
    exact ⟨_, [], .ok a, (List.append_nil _).symm,
      yields_withSession.mpr (.inr ⟨inner, _, rfl, h, rfl⟩), rfl, rfl⟩

/-- A step in a session of its own fails when no session is opened, or when the step fails; then the
session is closed all the same. -/
theorem yields_inSession_error {step : Step α} {e : FleetError} :
    (inSession host step).run.Yields l (.error e) ↔
      (∃ cause, l = Log.refused host cause ∧ e = .connectFailure host.name cause) ∨
        ∃ inner, l = Log.session host inner ∧ step.run.Yields inner (.error e) := by
  unfold inSession
  rw [Program.yields_bind_error, yields_withSession]
  constructor
  · rintro ((⟨cause, rfl, h⟩ | ⟨inner, a, rfl, -, h⟩) | ⟨l₁, l₂, result, rfl, h₁, rfl, rfl⟩)
    · cases h
      exact .inl ⟨cause, rfl, rfl⟩
    · cases h
    · obtain ⟨cause, rfl, h⟩ | ⟨inner, b, rfl, h, hb⟩ := yields_withSession.mp h₁
      · cases h
      · cases hb
        exact .inr ⟨inner, List.append_nil _, h⟩
  · rintro (⟨cause, rfl, rfl⟩ | ⟨inner, rfl, h⟩)
    · exact .inl (.inl ⟨cause, rfl, rfl⟩)
    · exact .inr ⟨_, [], .error e, (List.append_nil _).symm,
        yields_withSession.mpr (.inr ⟨inner, _, rfl, h, rfl⟩), rfl, rfl⟩

/-- A step in a session of its own ends as the step does, unless no session is opened. -/
theorem inSession_cases {step : Step α} {r : Except FleetError α}
    (h : (inSession host step).run.Yields l r) :
    (∃ cause, l = Log.refused host cause ∧ r = .error (.connectFailure host.name cause)) ∨
      ∃ inner, l = Log.session host inner ∧ step.run.Yields inner r := by
  cases r with
  | ok a => exact .inr (yields_inSession_ok.mp h)
  | error e =>
    obtain ⟨cause, rfl, rfl⟩ | hinner := yields_inSession_error.mp h
    · exact .inl ⟨cause, rfl, rfl⟩
    · exact .inr hinner

theorem mem_session {inner : Log} {e : Event} :
    e ∈ Log.session host inner ↔
      e = ⟨.connect host, .ok ()⟩ ∨ e ∈ inner ∨ e = ⟨.close host, ()⟩ := by
  simp [Log.session]

/-- What is picked out of a session is picked out of what is asked in it, if neither its opening nor
its closing is. -/
theorem filterMap_session {β : Type} {f : Event → Option β} {inner : Log}
    (hconnect : f ⟨.connect host, .ok ()⟩ = none) (hclose : f ⟨.close host, ()⟩ = none) :
    (Log.session host inner).filterMap f = inner.filterMap f := by
  have hlast : [(⟨.close host, ()⟩ : Event)].filterMap f = [] := List.filterMap_cons_none hclose
  unfold Log.session
  rw [List.filterMap_cons_none hconnect, List.filterMap_append, hlast, List.append_nil]

theorem yields_query_ok {kind : ReplyKind} {reading : Reading} :
    (query host command kind).run.Yields l (.ok reading) ↔
      ∃ reply, l = Log.session host [⟨.run host command, .ok reply⟩] ∧ kind.read reply = reading ∧
        reading.refusal? = none := by
  unfold query
  rw [yields_inSession_ok]
  constructor
  · rintro ⟨inner, rfl, h⟩
    obtain ⟨reply, rfl, hread, hnone⟩ := yields_expect_ok.mp h
    exact ⟨reply, rfl, hread, hnone⟩
  · rintro ⟨reply, rfl, hread, hnone⟩
    exact ⟨_, rfl, yields_expect_ok.mpr ⟨reply, rfl, hread, hnone⟩⟩

theorem yields_queryToken_ok {word : String} :
    (queryToken host command).run.Yields l (.ok word) ↔
      ∃ reply, l = Log.session host [⟨.run host command, .ok reply⟩] ∧ token reply = .ok word := by
  unfold queryToken
  rw [yields_inSession_ok]
  constructor
  · rintro ⟨inner, rfl, h⟩
    obtain ⟨reply, rfl, hword⟩ := yields_expectToken_ok.mp h
    exact ⟨reply, rfl, hword⟩
  · rintro ⟨reply, rfl, hword⟩
    exact ⟨_, rfl, yields_expectToken_ok.mpr ⟨reply, rfl, hword⟩⟩

/-! ## Waits -/

/-- A wait: one that is cancelled before it begins, one of no length, or one that is waited out
unless it is cut short. -/
theorem settle_cases {delay : Duration} {r : Except FleetError Unit}
    (h : (settle delay).run.Yields l r) :
    (l = [⟨.cancelled, true⟩] ∧ r = .error .cancelled) ∨
      (l = [⟨.cancelled, false⟩] ∧ delay = .zero ∧ r = .ok ()) ∨
        ∃ ended : Bool, l = [⟨.cancelled, false⟩, ⟨.sleep delay, ended⟩] ∧ delay ≠ .zero ∧
          r = if ended then .ok () else .error .cancelled := by
  unfold settle at h
  rw [Program.run_lift_bind, Program.yields_bind] at h
  obtain ⟨l₁, l₂, cancelled, rfl, h₁, h₂⟩ := h
  obtain rfl := Program.yields_request.mp h₁
  cases cancelled with
  | true =>
    obtain ⟨rfl, rfl⟩ := Program.yields_run_throw.mp h₂
    exact .inl ⟨rfl, rfl⟩
  | false =>
    refine .inr ?_
    by_cases hd : delay = .zero
    · simp only [hd, ne_eq, not_true_eq_false, ite_false, Bool.false_eq_true] at h₂
      obtain ⟨rfl, rfl⟩ := Program.yields_run_pure.mp h₂
      exact .inl ⟨rfl, hd, rfl⟩
    · simp only [ne_eq, hd, not_false_eq_true, ite_true, Bool.false_eq_true, ite_false] at h₂
      rw [Program.run_lift_bind, Program.yields_bind] at h₂
      obtain ⟨l₃, l₄, ended, rfl, h₃, h₄⟩ := h₂
      obtain rfl := Program.yields_request.mp h₃
      refine .inr ⟨ended, ?_⟩
      cases ended with
      | true =>
        obtain ⟨rfl, rfl⟩ := Program.yields_run_pure.mp h₄
        exact ⟨rfl, hd, rfl⟩
      | false =>
        obtain ⟨rfl, rfl⟩ := Program.yields_run_throw.mp h₄
        exact ⟨rfl, hd, rfl⟩

end NodeFleet
