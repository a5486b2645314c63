import NodeFleet.Program.Poll
import NodeFleet.Proofs.Log

/-!
# NodeFleet.Proofs.Attempts — what a call for one attempt can come to

A poller that is called for an attempt looks at the cancellation, counts, waits unless it has not
granted any, and looks at the clock.  The number of attempts granted so far, the answers and the
policy decide between six endings; whatever holds of polls is read off these.

* `PollPolicy.Attempt`: the endings, each with all that is asked.
* `Poller.next_attempt`: every call has one of them.
-/

namespace NodeFleet

/-- What a call for an attempt asks when `n` have been granted, and what comes of it. -/
inductive PollPolicy.Attempt (policy : PollPolicy) (started : Duration) (n : Nat) :
    Log → Except PollError Nat → Prop
  | cancelled : Attempt policy started n [⟨.cancelled, true⟩] (.error (.cancelled n))
  | exhausted (hspent : policy.bound ≤ n) :
    Attempt policy started n [⟨.cancelled, false⟩] (.error (.exhausted n))
  | first (hnone : n = 0) (hleft : n < policy.bound) :
    Attempt policy started n [⟨.cancelled, false⟩] (.ok (n + 1))
  | cutShort (hsome : n ≠ 0) (hleft : n < policy.bound) :
    Attempt policy started n [⟨.cancelled, false⟩, ⟨.sleep policy.interval, false⟩]
      (.error (.cancelled n))
  | late {now deadline : Duration} (hsome : n ≠ 0) (hleft : n < policy.bound)
    (hdeadline : policy.deadline? = some deadline)
    (hpassed : started.millis + deadline.millis ≤ now.millis) :
    Attempt policy started n
      [⟨.cancelled, false⟩, ⟨.sleep policy.interval, true⟩, ⟨.clock, now⟩]
      (.error (.deadlinePassed n deadline))
  | later {now : Duration} (hsome : n ≠ 0) (hleft : n < policy.bound)
    (hintime : ∀ deadline, policy.deadline? = some deadline →
      now.millis < started.millis + deadline.millis) :
    Attempt policy started n
      [⟨.cancelled, false⟩, ⟨.sleep policy.interval, true⟩, ⟨.clock, now⟩] (.ok (n + 1))

namespace Poller

variable {poller : Poller} {l : Log}

theorem passed?_eq_some {now deadline : Duration} : poller.passed? now = some deadline ↔
    poller.policy.deadline? = some deadline ∧
      poller.started.millis + deadline.millis ≤ now.millis := by
  unfold passed?
  rw [Option.filter_eq_some_iff, decide_eq_true_iff]

/-- The pause before an attempt that is not the first: it is cut short, or the deadline has passed
when it is over, or neither. -/
theorem pause_later {r : Except PollError Unit} (hsome : poller.attempts ≠ 0)
    (h : poller.pause.run.Yields l r) :
    (l = [⟨.sleep poller.policy.interval, false⟩] ∧ r = .error (.cancelled poller.attempts)) ∨
    ∃ now, l = [⟨.sleep poller.policy.interval, true⟩, ⟨.clock, now⟩] ∧
      ((∃ deadline, poller.passed? now = some deadline ∧
          r = .error (.deadlinePassed poller.attempts deadline)) ∨
        poller.passed? now = none ∧ r = .ok ()) := by
  unfold pause at h
  simp only [hsome, ne_eq, not_false_eq_true, ite_true] at h
  rw [Program.run_lift_bind, Program.yields_bind] at h
  obtain ⟨l₁, l₂, ended, rfl, hslept, h⟩ := h
  obtain rfl := Program.yields_request.mp hslept
  cases ended with
  | false =>
    obtain ⟨rfl, rfl⟩ := Program.yields_run_throw.mp h
    exact .inl ⟨rfl, rfl⟩
  | true =>
    simp only [ite_true] at h
    rw [Program.run_lift_bind, Program.yields_bind] at h
    obtain ⟨l₃, l₄, now, rfl, hread, h⟩ := h
    obtain rfl := Program.yields_request.mp hread
    split at h
    · obtain ⟨rfl, rfl⟩ := Program.yields_run_throw.mp h
      exact .inr ⟨now, rfl, .inl ⟨_, ‹_›, rfl⟩⟩
    · obtain ⟨rfl, rfl⟩ := Program.yields_run_pure.mp h
      exact .inr ⟨now, rfl, .inr ⟨‹_›, rfl⟩⟩

/-- A call for an attempt has one of six endings; what is granted is one more attempt. -/
theorem next_attempt {r : Except PollError Poller} (h : poller.next.run.Yields l r) :
    poller.policy.Attempt poller.started poller.attempts l (r.map Poller.attempts) ∧
      ∀ later, r = .ok later → later = { poller with attempts := poller.attempts + 1 } := by
  unfold next at h
  rw [Program.run_lift_bind, Program.yields_bind] at h
  obtain ⟨l₁, l₂, cancelled, rfl, hasked, h⟩ := h
  obtain rfl := Program.yields_request.mp hasked
  cases cancelled with
  | true =>
    obtain ⟨rfl, rfl⟩ := Program.yields_run_throw.mp h
    exact ⟨.cancelled, nofun⟩
  | false =>
    -- not cancelled: first the bound is looked at, then comes the wait, and last the deadline
    by_cases hspent : poller.policy.bound ≤ poller.attempts
    · simp only [hspent, ite_true, Bool.false_eq_true, ite_false] at h
      obtain ⟨rfl, rfl⟩ := Program.yields_run_throw.mp h
      exact ⟨.exhausted hspent, nofun⟩
    · have hleft := Nat.lt_of_not_le hspent
      simp only [hspent, ite_false, Bool.false_eq_true] at h
      rw [ExceptT.run_bind, Program.yields_bind] at h
      obtain ⟨l₃, l₄, paused, rfl, hpause, h⟩ := h
      by_cases hnone : poller.attempts = 0
      · unfold pause at hpause
        simp only [hnone, ne_eq, not_true_eq_false, ite_false] at hpause
        obtain ⟨rfl, rfl⟩ := Program.yields_run_pure.mp hpause
        obtain ⟨rfl, rfl⟩ := Program.yields_run_pure.mp h
        exact ⟨.first hnone hleft, fun later hlater => (Except.ok.inj hlater).symm⟩
      · obtain ⟨rfl, rfl⟩ | ⟨now, rfl, ⟨deadline, hpassed, rfl⟩ | ⟨hpassed, rfl⟩⟩ :=
          pause_later hnone hpause
        · obtain ⟨rfl, rfl⟩ := Program.yields_pure.mp h
          exact ⟨.cutShort hnone hleft, nofun⟩
        · obtain ⟨rfl, rfl⟩ := Program.yields_pure.mp h
          obtain ⟨hdeadline, hpassed⟩ := passed?_eq_some.mp hpassed
          exact ⟨.late hnone hleft hdeadline hpassed, nofun⟩
        · obtain ⟨rfl, rfl⟩ := Program.yields_run_pure.mp h
          refine ⟨.later hnone hleft fun deadline hdeadline => Nat.lt_of_not_le fun hlate => ?_,
            fun later hlater => (Except.ok.inj hlater).symm⟩
          rw [passed?_eq_some.mpr ⟨hdeadline, hlate⟩] at hpassed
          cases hpassed

end Poller

end NodeFleet
