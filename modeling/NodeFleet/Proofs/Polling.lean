import NodeFleet.Proofs.Delays
import NodeFleet.Proofs.Rounds

/-!
# NodeFleet.Proofs.Polling — a poll that is neither cancelled nor out of time

Such a poll ends by its question alone: with the first answer, or when the last attempt that its
policy grants has not been answered.

* `Log.IsPoll`: what is asked, with a look at the cancellation before each and the interval between.
* `next_calm`, `askUntil_calm`, `poll_calm`: what a poll has asked when it ends, and how it ends.
* `Log.IsPoll.filterMap`, `Log.IsPoll.apart`: nothing of interest is asked between the questions,
  and from one to the next the interval is waited out.
* `Inquiry`, `Log.inquiries`: what came of queries in sessions of their own.
* `World.polling`: a world in which they come to what is told.
-/

namespace NodeFleet

/-- What comes before an attempt: a look at the cancellation, and for all but the first a wait for
the interval and a look at the clock. -/
def Log.IsLook (interval : Duration) (first : Bool) (l : Log) : Prop :=
  match first with
  | true => l = [⟨.cancelled, false⟩]
  | false => ∃ now, l = [⟨.cancelled, false⟩, ⟨.sleep interval, true⟩, ⟨.clock, now⟩]

/-- Questions that are asked one after the other, each after a look. -/
inductive Log.Paced (interval : Duration) : Bool → List Log → Log → Prop
  | nil {first : Bool} : Paced interval first [] []
  | cons {first : Bool} {look asked l : Log} {rest : List Log}
    (hlook : Log.IsLook interval first look) (hrest : Paced interval false rest l) :
    Paced interval first (asked :: rest) (look ++ (asked ++ l))

/-- The log of a poll: the clock is read, the questions are asked, and nothing comes after them that
concerns a host. -/
def Log.IsPoll (interval : Duration) (asked : List Log) (l : Log) : Prop :=
  ∃ now stretch last, l = ⟨.clock, now⟩ :: (stretch ++ last) ∧
    Log.Paced interval true asked stretch ∧ Only Request.IsAside last

/-! ## How a poll ends -/

section Ends

variable {α ι : Type} {question : Program (Option α)} {poller : Poller} {l : Log}

/-- Without a cancellation and a deadline an attempt is granted, unless the last one was granted
before. -/
theorem next_calm {r : Except PollError Poller} (hdeadline : poller.policy.deadline? = none)
    (h : poller.next.run.Yields l r) (hcalm : Calm l) :
    (poller.policy.bound ≤ poller.attempts ∧ l = [⟨.cancelled, false⟩] ∧
      r = .error (.exhausted poller.attempts)) ∨
    poller.attempts < poller.policy.bound ∧
      Log.IsLook poller.policy.interval (poller.attempts == 0) l ∧
      r = .ok { poller with attempts := poller.attempts + 1 } := by
  obtain ⟨hattempt, hlater⟩ := Poller.next_attempt h
  cases r with
  | ok later =>
    obtain rfl := hlater _ rfl
    cases hattempt with
    | first hnone hleft =>
      rw [hnone] at hleft ⊢
      exact .inr ⟨hleft, rfl, rfl⟩
    | later hsome hleft =>
      rw [beq_eq_false_iff_ne.mpr hsome]
      exact .inr ⟨hleft, ⟨_, rfl⟩, rfl⟩
  | error e =>
    cases hattempt with
    | cancelled => exact nomatch hcalm _ List.mem_cons_self
    | exhausted hspent => exact .inl ⟨hspent, rfl, rfl⟩
    | cutShort => exact nomatch hcalm ⟨.sleep poller.policy.interval, false⟩ (by simp)
    | late _ _ hpassed => rw [hdeadline] at hpassed; cases hpassed

/-- The attempts that were made, when `n` were granted before: the last of them was answered, and no
other; or none was answered, and no more are granted. -/
inductive Ended (answer? : ι → Option α) (bound n : Nat) :
    List ι → Except PollError (α × Nat) → Prop
  | answered {earlier : List ι} {i : ι} {a : α} (hnone : ∀ j ∈ earlier, answer? j = none)
    (hsome : answer? i = some a) (hgranted : n + (earlier.length + 1) ≤ bound) :
    Ended answer? bound n (earlier ++ [i]) (.ok (a, n + (earlier.length + 1)))
  | exhausted {attempts : List ι} (hnone : ∀ j ∈ attempts, answer? j = none)
    (hspent : n + attempts.length = bound) :
    Ended answer? bound n attempts (.error (.exhausted bound))

/-- One more attempt that was not answered. -/
theorem Ended.cons {answer? : ι → Option α} {bound n : Nat} {i : ι} {attempts : List ι}
    {r : Except PollError (α × Nat)} (hnone : answer? i = none)
    (h : Ended answer? bound (n + 1) attempts r) : Ended answer? bound n (i :: attempts) r := by
  cases h with
  | @answered earlier j a hearlier hsome hgranted =>
    have hlength : n + 1 + (earlier.length + 1) = n + ((i :: earlier).length + 1) := by
      rw [List.length_cons]
      omega
    rw [hlength] at hgranted ⊢
    exact .answered (List.forall_mem_cons.mpr ⟨hnone, hearlier⟩) hsome hgranted
  | exhausted hattempts hspent =>
    refine .exhausted (List.forall_mem_cons.mpr ⟨hnone, hattempts⟩) ?_
    rw [List.length_cons]
    omega

variable {told : ι → Log} {answer? : ι → Option α}
  (hquestion : ∀ l a?, question.Yields l a? → ∃ i, l = told i ∧ a? = answer? i)
include hquestion

/-- Asking goes on until there is an answer, or no more attempts are granted. -/
theorem askUntil_calm {fuel : Nat} {r : Except PollError (α × Nat)}
    (hdeadline : poller.policy.deadline? = none) (hleft : poller.attempts ≤ poller.policy.bound)
    (hfuel : poller.policy.bound < poller.attempts + fuel)
    (h : (poller.askUntil question fuel).run.Yields l r) (hcalm : Calm l) :
    ∃ attempts stretch last, l = stretch ++ last ∧
      Log.Paced poller.policy.interval (poller.attempts == 0) (attempts.map told) stretch ∧
      Only Request.IsAside last ∧ Ended answer? poller.policy.bound poller.attempts attempts r := by
  -- on the fuel, which outlasts the attempts that are left
  induction fuel generalizing poller l with
  | zero => omega
  | succ fuel ih =>
    unfold Poller.askUntil at h
    rw [ExceptT.run_bind, Program.yields_bind] at h
    obtain ⟨l₁, l₂, granted, rfl, hnext, h⟩ := h
    obtain ⟨hcalm₁, hcalm₂⟩ := calm_append.mp hcalm
    obtain ⟨hspent, rfl, rfl⟩ | ⟨hmore, hlook, rfl⟩ := next_calm hdeadline hnext hcalm₁
    · obtain ⟨rfl, rfl⟩ := Program.yields_pure.mp h
      rw [Nat.le_antisymm hleft hspent]
      exact ⟨[], [], _, rfl, .nil, only_singleton.mpr trivial,
        .exhausted (fun _ h => absurd h List.not_mem_nil) rfl⟩
    · dsimp only at h
      rw [Program.run_lift_bind, Program.yields_bind] at h
      obtain ⟨asked, l₄, a?, rfl, hask, h⟩ := h
      obtain ⟨i, rfl, rfl⟩ := hquestion _ _ hask
      cases hanswer : answer? i with
      | some a =>
        rw [hanswer] at h
        obtain ⟨rfl, rfl⟩ := Program.yields_run_pure.mp h
        refine ⟨[i], _, [], (List.append_nil _).symm, .cons hlook .nil, Composes.nil, ?_⟩
        have hnone : ∀ j ∈ ([] : List ι), answer? j = none := fun _ h => absurd h List.not_mem_nil
        exact .answered hnone hanswer hmore
      | none =>
        rw [hanswer] at h
        have hfuel' : poller.policy.bound < poller.attempts + 1 + fuel := by omega
        obtain ⟨attempts, stretch, last, rfl, hpaced, hlast, hended⟩ :=
          @ih { poller with attempts := poller.attempts + 1 } _ hdeadline hmore hfuel' h
            (calm_append.mp hcalm₂).2
        exact ⟨i :: attempts, l₁ ++ (told i ++ stretch), last, by simp, .cons hlook hpaced,
          hlast, hended.cons hanswer⟩

/-- A poll that is neither cancelled nor out of time. -/
theorem poll_calm {settings : PollSettings} {awaited : String} {r : Except FleetError (α × Nat)}
    (hdeadline : settings.deadlineSeconds? = none)
    (h : (poll settings awaited question).run.Yields l r) (hcalm : Calm l) :
    ∃ attempts result, Log.IsPoll settings.policy.interval (attempts.map told) l ∧
      Ended answer? settings.policy.bound 0 attempts result ∧
      r = result.mapError (PollError.toFleetError awaited) := by
  obtain ⟨l₁, l₂, result, rfl, huntil, rfl, rfl⟩ := Program.yields_bind.mp h
  unfold pollUntil Poller.start at huntil
  rw [Program.run_lift_bind, Program.yields_bind] at huntil
  obtain ⟨l₃, l₄, poller, rfl, hstart, hask⟩ := huntil
  obtain ⟨l₅, l₆, now, rfl, hread, rfl, rfl⟩ := Program.yields_bind.mp hstart
  obtain rfl := Program.yields_request.mp hread
  have hpolicy : settings.policy.deadline? = none := by
    unfold PollSettings.policy
    rw [hdeadline]
    rfl
  have hcalm₄ : Calm l₄ := by simp_all [Calm]
  obtain ⟨attempts, stretch, last, rfl, hpaced, hlast, hended⟩ :=
    askUntil_calm hquestion hpolicy (Nat.zero_le _) (by simp) hask hcalm₄
  exact ⟨attempts, result, ⟨now, stretch, last, by simp, hpaced, hlast⟩, hended, rfl⟩

end Ends

/-! ## What is asked in a poll -/

namespace Log

variable {interval : Duration} {first : Bool} {asked : List Log} {l : Log}

theorem IsLook.aside (h : IsLook interval first l) : Only Request.IsAside l := by
  intro e he
  cases first with
  | true =>
    obtain rfl : l = _ := h
    obtain rfl := List.mem_singleton.mp he
    trivial
  | false =>
    obtain ⟨now, rfl⟩ := h
    obtain rfl | rfl | rfl : e = ⟨.cancelled, false⟩ ∨ e = ⟨.sleep interval, true⟩ ∨
        e = ⟨.clock, now⟩ := by simpa using he
    all_goals trivial

theorem filterMap_aside {β : Type} {f : Event → Option β}
    (hf : ∀ e, e.request.IsAside → f e = none) (h : Only Request.IsAside l) :
    l.filterMap f = [] :=
  List.filterMap_eq_nil_iff.mpr fun e he => hf e (h e he)

theorem Paced.filterMap {β : Type} {f : Event → Option β}
    (hf : ∀ e, e.request.IsAside → f e = none) (h : Paced interval first asked l) :
    l.filterMap f = asked.flatMap (·.filterMap f) := by
  induction h with
  | nil => rfl
  | cons hlook _ ih =>
    rw [List.filterMap_append, List.filterMap_append, ih, filterMap_aside hf hlook.aside,
      List.nil_append, List.flatMap_cons]

/-- A session is opened at the very beginning, if one is. -/
def OpensFirst (l : Log) : Prop :=
  ∀ before e after, l = before ++ e :: after → e.request.Connects → before = []

variable {before middle after : Log} {x y : Event}

/-- The interval is waited out before a session is opened in a later question. -/
theorem Paced.waits (h : Paced interval false asked l) (hl : l = before ++ y :: after)
    (hy : y.request.Connects) : interval.millis ≤ Log.waited before := by
  cases h with
  | nil => exact absurd hl (by simp)
  | @cons _ look _ _ _ hlook _ =>
    obtain ⟨mid, rfl, -⟩ | ⟨rest, rfl, -⟩ := split_append hl
    · obtain ⟨now, rfl⟩ := hlook
      simp [Log.waited, Event.waited]
    · exact absurd hy (hlook.aside y (by simp)).not_connects

/-- From a question to the opening of a session in a later one the interval is waited out. -/
theorem Paced.apart (h : Paced interval first asked l) (hasked : ∀ log ∈ asked, OpensFirst log)
    (hl : l = before ++ x :: (middle ++ y :: after)) (hx : ¬ x.request.IsAside)
    (hy : y.request.Connects) : interval.millis ≤ Log.waited middle := by
  induction h generalizing before with
  | nil => exact absurd hl (by simp)
  | @cons _ look a l rest hlook hrest ih =>
    obtain ⟨hopens, hothers⟩ := List.forall_mem_cons.mp hasked
    obtain ⟨mid, rfl, hmid⟩ | ⟨left, rfl, -⟩ := split_append hl
    · obtain ⟨late, rfl, hlate⟩ | ⟨left, rfl, hleft⟩ := split_append hmid
      · exact ih hothers hlate
      · -- the session is opened after the question that `x` belongs to
        obtain ⟨wait, rfl, hwait⟩ | ⟨tail, rfl, -⟩ := split_append hleft.symm
        · have hwaited := hrest.waits hwait hy
          rw [waited_append]
          omega
        · have hnone := hopens (mid ++ x :: middle) y tail (by simp) hy
          exact absurd hnone (by simp)
    · exact absurd (hlook.aside x (by simp)) hx

/-- What is picked from a poll is what is picked from its questions. -/
theorem IsPoll.filterMap {β : Type} {f : Event → Option β}
    (hf : ∀ e, e.request.IsAside → f e = none) (h : IsPoll interval asked l) :
    l.filterMap f = asked.flatMap (·.filterMap f) := by
  obtain ⟨now, stretch, last, rfl, hpaced, hlast⟩ := h
  rw [List.filterMap_cons_none (hf ⟨.clock, now⟩ trivial), List.filterMap_append,
    hpaced.filterMap hf, filterMap_aside hf hlast, List.append_nil]

/-- From a question of a poll to the opening of a session in a later one the interval is waited
out. -/
theorem IsPoll.apart (h : IsPoll interval asked l) (hasked : ∀ log ∈ asked, OpensFirst log)
    (hl : l = before ++ x :: (middle ++ y :: after)) (hx : ¬ x.request.IsAside)
    (hy : y.request.Connects) : interval.millis ≤ Log.waited middle := by
  obtain ⟨now, stretch, last, rfl, hpaced, hlast⟩ := h
  -- neither of the two is the look at the clock, or comes after the questions
  obtain ⟨-, hclock⟩ | ⟨early, rfl, hrest⟩ := List.cons_eq_append_iff.mp hl
  · obtain ⟨rfl, -⟩ := List.cons.inj hclock
    exact absurd trivial hx
  obtain ⟨mid, -, rfl⟩ | ⟨rest, rfl, hlater⟩ := split_append hrest
  · exact absurd (hlast x (by simp)) hx
  obtain ⟨mid, -, rfl⟩ | ⟨rest, rfl, -⟩ := split_append hlater.symm
  · exact absurd hy (hlast y (by simp)).not_connects
  · exact hpaced.apart hasked rfl hx hy

end Log

/-! ## Queries, one by one -/

/-- What came of a query in a session of its own. -/
inductive Inquiry where
  /-- No session was opened. -/
  | refused (cause : RemoteError)
  /-- The session broke. -/
  | broken (cause : RemoteError)
  | answered (reply : Reply)
  deriving DecidableEq

namespace Inquiry

variable {host : Host} {command : Command} {kind : ReplyKind}

/-- The log of the query. -/
def log (host : Host) (command : Command) : Inquiry → Log
  | refused cause => Log.refused host cause
  | broken cause => Log.session host [⟨.run host command, .error cause⟩]
  | answered reply => Log.session host [⟨.run host command, .ok reply⟩]

/-- The reading of the answer, if it is no refusal. -/
def reading? (kind : ReplyKind) : Inquiry → Option Reading
  | answered reply => if (kind.read reply).refusal?.isNone then some (kind.read reply) else none
  | _ => none

/-- A query is an inquiry, and goes well when that has a reading. -/
theorem of_query {l : Log} {r : Except FleetError Reading}
    (h : (query host command kind).run.Yields l r) :
    ∃ i : Inquiry, l = i.log host command ∧ r.toOption = i.reading? kind := by
  obtain ⟨cause, rfl, rfl⟩ | ⟨inner, rfl, hinner⟩ := inSession_cases h
  · exact ⟨.refused cause, rfl, rfl⟩
  cases r with
  | ok reading =>
    obtain ⟨reply, rfl, rfl, hnone⟩ := yields_expect_ok.mp hinner
    exact ⟨.answered reply, rfl, by simp [reading?, Except.toOption, hnone]⟩
  | error e =>
    obtain ⟨cause, rfl, -⟩ | ⟨reply, reason, rfl, hsome, -⟩ := yields_expect_error.mp hinner
    · exact ⟨.broken cause, rfl, rfl⟩
    · exact ⟨.answered reply, rfl, by simp [reading?, Except.toOption, hsome]⟩

end Inquiry

/-- The inquiry that the event ends, if it does. -/
def Event.inquiry? : Event → Option Inquiry
  | ⟨.connect _, .error cause⟩ => some (.refused cause)
  | ⟨.run _ _, .error cause⟩ => some (.broken cause)
  | ⟨.run _ _, .ok reply⟩ => some (.answered reply)
  | _ => none

/-- What came of the queries of a log, in order. -/
def Log.inquiries (l : Log) : List Inquiry := l.filterMap Event.inquiry?

theorem Event.inquiry?_aside (e : Event) (h : e.request.IsAside) : e.inquiry? = none := by
  obtain ⟨r, answer⟩ := e
  cases r with
  | connect _ | run _ _ | write _ _ _ | close _ => exact absurd h id
  | _ => rfl

theorem Request.connection?_aside (e : Event) (h : e.request.IsAside) :
    e.request.connection? = none := by
  obtain ⟨r, answer⟩ := e
  cases r with
  | connect _ => exact absurd h id
  | _ => rfl

namespace Inquiry

variable (host : Host) (command : Command) (i : Inquiry)

theorem inquiries_log : (i.log host command).inquiries = [i] := by
  cases i <;> rfl

theorem connections_log : (i.log host command).connections = [host] := by
  cases i <;> rfl

theorem opensFirst_log : (i.log host command).OpensFirst := by
  have hrest (first : Event) {rest : Log} (h : ∀ e ∈ rest, ¬ e.request.Connects) :
      Log.OpensFirst (first :: rest) := fun before e after hl he => by
    obtain ⟨hbefore, -⟩ | ⟨before, -, hafter⟩ := List.cons_eq_append_iff.mp hl
    · exact hbefore
    · exact absurd he (h e (by simp [hafter]))
  have hrun (answer : (Request.run host command).Answer) :
      (Log.session host [⟨.run host command, answer⟩]).OpensFirst :=
    hrest _ (by simp [Request.Connects])
  cases i with
  | refused cause => exact hrest _ (by simp)
  | broken cause => exact hrun _
  | answered reply => exact hrun _

end Inquiry

/-! ## A fleet with a bounded poll -/

/-- The description of the pair, with three attempts to a poll. -/
def Config.bounded : Config :=
  { Config.pair with timing := { Timing.immediate with poll := ⟨5, some 3, none⟩ } }

theorem Roster.ofConfig_bounded : Roster.ofConfig .bounded = .ok .pair :=
  Roster.ofConfig_ok (by decide +kernel) rfl rfl rfl rfl rfl

/-- A main host and a masternode, with three attempts to a poll and five seconds between them. -/
def Fleet.bounded : Fleet := ⟨.bounded, .pair, false, Roster.ofConfig_bounded⟩

/-! ## Worlds in which queries come to what is told -/

/-- A world in which nothing is cancelled and one query after the other comes to what is told; every
request takes a millisecond, or as long as it waits.  The state is the number of queries that have
ended, and the time. -/
def World.polling (results : Nat → Inquiry) : World (Nat × Nat)
  | .connect _, (n, now) =>
    match results n with
    | .refused cause => (.error cause, (n + 1, now + 1))
    | _ => (.ok (), (n, now + 1))
  | .run _ _, (n, now) =>
    match results n with
    | .answered reply => (.ok reply, (n + 1, now + 1))
    | .broken cause | .refused cause => (.error cause, (n + 1, now + 1))
  | .clock, (n, now) => (⟨now⟩, (n, now))
  | .sleep length, (n, now) => (true, (n, now + length.millis))
  | .cancelled, (n, now) => (false, (n, now))
  | .write _ _ _, (n, now) => (.ok (), (n, now + 1))
  | .close _, (n, now) => ((), (n, now + 1))
  | .ping _, (n, now) => (true, (n, now + 1))
  | .launch _ _, (n, now) => (.ok (), (n, now + 1))
  | .load _, (n, now) => (.error "no such file", (n, now + 1))

theorem World.polling_keepsTime (results : Nat → Inquiry) : (World.polling results).KeepsTime where
  onward r s := by
    obtain ⟨n, now⟩ := s
    cases r with
    | connect _ | run _ _ =>
      show now ≤ _
      simp only [World.now, World.polling]
      split <;> exact Nat.le_succ now
    | clock | cancelled => exact Nat.le_refl now
    | sleep length => exact Nat.le_add_right now length.millis
    | _ => exact Nat.le_succ now
  sleeps length s _ := Nat.le_refl (s.2 + length.millis)

theorem World.polling_calm {α : Type} (results : Nat → Inquiry) (p : Program α) (s : Nat × Nat) :
    Calm (p.log (.polling results) s) :=
  World.NeverCancels.calm ⟨fun _ => rfl, fun _ _ => rfl⟩ p s

end NodeFleet
