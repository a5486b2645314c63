import NodeFleet.Proofs.Costs

/-!
# NodeFleet.Proofs.Rounds — a poll is made of attempts, and a cancellation is heard before each

The log of a poll is that of its attempts, one after the other: each begins with a look at the
operator's cancellation, waits out the interval unless it is the first, and asks the question.
There are no more attempts than the poller may grant, and none begins once the operator has
cancelled.

* `Log.IsPause`, `IsAttempt`, `Polled`: the log of a poll.
* `next_cases`, `askUntil_polled`, `poll_polled`: every poll has such a log, whatever is answered.
* `Polled.costs`: what a poll costs.
* `Log.Fired`, `HaltsOnceFired`, `Polled.halts`: what a poll still asks once the operator has
  cancelled.
-/

namespace NodeFleet

/-! ## Attempts -/

/-- No pause, or an interval that is waited out, and a look at the clock. -/
def Log.IsPause (l : Log) : Prop :=
  l = [] ∨ ∃ interval now, l = [⟨.sleep interval, true⟩, ⟨.clock, now⟩]

section Rounds

variable {α : Type} {question : Program (Option α)} {l : Log} {attempts : List Log}

/-- The log of an attempt: the operator has not cancelled, there is a pause, and the question is
asked. -/
def IsAttempt (question : Program (Option α)) (l : Log) : Prop :=
  ∃ pause asked answer?, l = ⟨.cancelled, false⟩ :: (pause ++ asked) ∧ Log.IsPause pause ∧
    question.Yields asked answer?

/-- The end of a poll that was not answered: what is asked before the next attempt is refused. -/
structure Log.IsEnd (l : Log) : Prop where
  aside : Only Request.IsAside l
  short : l.length ≤ 3

/-- The log of a poll: the clock is read, attempts are made, and then there is an end. -/
def Polled (question : Program (Option α)) (attempts : List Log) (l : Log) : Prop :=
  ∃ now last, l = ⟨.clock, now⟩ :: (attempts.flatten ++ last) ∧
    (∀ attempt ∈ attempts, IsAttempt question attempt) ∧ Log.IsEnd last

theorem Log.isEnd_nil : Log.IsEnd [] := ⟨Composes.nil, by decide⟩

/-- An attempt is granted after a look at the operator's cancellation and a pause, and only while
there are fewer than may be granted; or there is an end. -/
theorem next_cases {poller : Poller} {r : Except PollError Poller}
    (h : poller.next.run.Yields l r) :
    (∃ pause, l = ⟨.cancelled, false⟩ :: pause ∧ Log.IsPause pause ∧
        poller.attempts < poller.policy.bound ∧
        r = .ok { poller with attempts := poller.attempts + 1 }) ∨
      (∃ e, r = .error e) ∧ Log.IsEnd l := by
  obtain ⟨hattempt, hlater⟩ := Poller.next_attempt h
  cases r with
  | ok later =>
    obtain rfl := hlater _ rfl
    cases hattempt with
    | first _ hleft => exact .inl ⟨[], rfl, .inl rfl, hleft, rfl⟩
    | later _ hleft => exact .inl ⟨_, rfl, .inr ⟨_, _, rfl⟩, hleft, rfl⟩
  | error e =>
    have haside : Only Request.IsAside l :=
      leaves_next (fun r hr _ => only_singleton.mpr hr) poller l _ h
    have hshort : l.length ≤ 3 := by cases hattempt <;> simp
    exact .inr ⟨⟨e, rfl⟩, haside, hshort⟩

/-- However many attempts the fuel allows, there are no more than the poller may still grant. -/
theorem askUntil_polled {fuel : Nat} {poller : Poller} {r : Except PollError (α × Nat)}
    (h : (poller.askUntil question fuel).run.Yields l r) :
    ∃ attempts last, l = List.flatten attempts ++ last ∧
      (∀ attempt ∈ attempts, IsAttempt question attempt) ∧ Log.IsEnd last ∧
      attempts.length ≤ poller.policy.bound - poller.attempts := by
  -- on the fuel: another attempt is made only where there was no answer
  induction fuel generalizing poller l with
  | zero =>
    obtain ⟨rfl, -⟩ := Program.yields_run_throw.mp h
    exact ⟨[], [], rfl, by simp, Log.isEnd_nil, Nat.zero_le _⟩
  | succ fuel ih =>
    unfold Poller.askUntil at h
    rw [ExceptT.run_bind, Program.yields_bind] at h
    obtain ⟨l₁, l₂, granted, rfl, hnext, h⟩ := h
    obtain ⟨pause, rfl, hpause, hleft, rfl⟩ | ⟨⟨e, rfl⟩, hend⟩ := next_cases hnext
    · dsimp only at h
      rw [Program.run_lift_bind, Program.yields_bind] at h
      obtain ⟨asked, l₄, answer?, rfl, hquestion, h⟩ := h
      have hattempt : IsAttempt question (⟨.cancelled, false⟩ :: (pause ++ asked)) :=
        ⟨pause, asked, answer?, rfl, hpause, hquestion⟩
      cases answer? with
      | some answer =>
        obtain ⟨rfl, -⟩ := Program.yields_run_pure.mp h
        refine ⟨[_], [], ?_, List.forall_mem_singleton.mpr hattempt, Log.isEnd_nil, ?_⟩
        · simp
        · exact Nat.sub_pos_of_lt hleft
      | none =>
        obtain ⟨attempts, last, rfl, hall, hlast, hmost⟩ := ih h
        refine ⟨_ :: attempts, last, ?_, List.forall_mem_cons.mpr ⟨hattempt, hall⟩, hlast, ?_⟩
        · simp
        · simp only [List.length_cons] at hmost ⊢
          omega
    · obtain ⟨rfl, -⟩ := Program.yields_pure.mp h
      refine ⟨[], l₁, ?_, by simp, hend, Nat.zero_le _⟩
      rw [List.append_nil]
      rfl

/-- A poll is made of attempts, of which there are no more than its policy allows. -/
theorem poll_polled {settings : PollSettings} {awaited : String}
    {r : Except FleetError (α × Nat)} (h : (poll settings awaited question).run.Yields l r) :
    ∃ attempts, Polled question attempts l ∧ attempts.length ≤ settings.policy.bound := by
  obtain ⟨l₁, l₂, result, rfl, huntil, rfl, -⟩ := Program.yields_bind.mp h
  unfold pollUntil Poller.start at huntil
  rw [Program.run_lift_bind, Program.yields_bind] at huntil
  obtain ⟨l₃, l₄, poller, rfl, hstart, hask⟩ := huntil
  obtain ⟨l₅, l₆, now, rfl, hread, rfl, rfl⟩ := Program.yields_bind.mp hstart
  obtain rfl := Program.yields_request.mp hread
  obtain ⟨attempts, last, rfl, hall, hlast, hmost⟩ := askUntil_polled hask
  exact ⟨attempts, ⟨now, last, by simp, hall, hlast⟩, hmost⟩

/-! ## What polls cost -/

theorem IsAttempt.costs {c n : Nat} (h : IsAttempt question l)
    (hquestion : Leaves (Costs c n) question) : Costs c (n + 3) l := by
  obtain ⟨pause, asked, answer?, rfl, hpause, hasked⟩ := h
  have hlook : Costs 0 1 [⟨.cancelled, false⟩] := ⟨Nat.le_refl 0, Nat.le_refl 1⟩
  have hpaused : Costs 0 2 pause := by
    obtain rfl | ⟨interval, now, rfl⟩ := hpause
    · exact Costs.nil
    · exact ⟨Nat.le_refl 0, Nat.le_refl 2⟩
  refine (hlook.append (hpaused.append (hquestion asked _ hasked))).mono ?_ ?_
  · omega
  · omega

theorem Polled.costs {c n : Nat} (h : Polled question attempts l)
    (hquestion : Leaves (Costs c n) question) :
    Costs (attempts.length * c) (attempts.length * (n + 3) + 4) l := by
  obtain ⟨now, last, rfl, hall, hlast⟩ := h
  have hclock : Costs 0 1 [⟨.clock, now⟩] := ⟨Nat.le_refl 0, Nat.le_refl 1⟩
  have hend : Costs 0 3 last :=
    .of_only (hlast.aside.mono fun _ => Request.IsAside.not_connects) hlast.short
  have hattempts : Costs (attempts.length * c) (attempts.length * (n + 3)) attempts.flatten :=
    .flatten fun attempt hm => (hall attempt hm).costs hquestion
  refine (hclock.append (hattempts.append hend)).mono ?_ ?_
  · omega
  · omega

/-! ## Polls once the operator has cancelled -/

/-- The operator has cancelled: every look at the cancellation finds it, and no wait comes to its
end. -/
def Log.Fired (l : Log) : Prop := ∀ e ∈ l, ¬ e.request.IsPrompt → ¬ e.IsCalm

/-- Once the operator has cancelled, a poll is connected to a host only for what was left of the
attempt under way; no attempt begins. -/
def HaltsOnceFired (question : Program (Option α)) (polls : Log) : Prop :=
  ∀ before after, polls = before ++ after → Log.Fired after →
    ∃ rest last, after = rest ++ last ∧ Log.connections last = [] ∧
      (rest = [] ∨ ∃ early begun, before = early ++ begun ∧ begun ≠ [] ∧
        IsAttempt question (begun ++ rest))

theorem Log.IsEnd.connections (h : Log.IsEnd l) : l.connections = [] := by
  have hcosts : Costs 0 3 l := .of_only (h.aside.mono fun _ => Request.IsAside.not_connects) h.short
  exact List.length_eq_zero_iff.mp (Nat.le_zero.mp hcosts.connections)

/-- No attempt begins once the operator has cancelled. -/
theorem Log.Fired.not_attempt {rest : Log} (h : Log.Fired (l ++ rest)) :
    ¬ IsAttempt question l := by
  rintro ⟨pause, asked, answer?, rfl, -, -⟩
  exact h _ List.mem_cons_self id rfl

/-- Attempts that have not begun are not made once the operator has cancelled. -/
theorem Log.Fired.no_attempts {last : Log} (h : Log.Fired (attempts.flatten ++ last))
    (hall : ∀ attempt ∈ attempts, IsAttempt question attempt) : attempts = [] := by
  cases attempts with
  | nil => rfl
  | cons attempt rest =>
    rw [List.flatten_cons, List.append_assoc] at h
    exact absurd (hall attempt List.mem_cons_self) h.not_attempt

/-- Attempts and the end of a poll halt once the operator has cancelled. -/
theorem attempts_halt {last : Log} (hall : ∀ attempt ∈ attempts, IsAttempt question attempt)
    (hlast : Log.IsEnd last) : HaltsOnceFired question (attempts.flatten ++ last) := by
  induction attempts with
  | nil =>
    intro before after h _
    refine ⟨[], after, rfl, ?_, .inl rfl⟩
    have hnone := hlast.connections
    rw [show last = before ++ after from h, connections_append] at hnone
    exact (List.append_eq_nil_iff.mp hnone).2
  | cons attempt rest ih =>
    obtain ⟨hone, hrest⟩ := List.forall_mem_cons.mp hall
    intro before after h hfired
    rw [List.flatten_cons, List.append_assoc] at h
    obtain ⟨mid, rfl, hlate⟩ | ⟨left, rfl, rfl⟩ := List.append_eq_append_iff.mp h
    · obtain ⟨rest', last', hafter, hnone, hunder⟩ := ih hrest mid after hlate hfired
      refine ⟨rest', last', hafter, hnone, hunder.imp id ?_⟩
      rintro ⟨early, begun, rfl, hbegun, hattempt⟩
      exact ⟨attempt ++ early, begun, (List.append_assoc _ _ _).symm, hbegun, hattempt⟩
    · -- the attempt is under way, or has not begun
      by_cases hbegun : before = []
      · subst hbegun
        exact absurd hone (Log.Fired.not_attempt hfired)
      · have hnone : rest = [] := by
          have hlate : Log.Fired (rest.flatten ++ last) := fun e he =>
            hfired e (List.mem_append_right left he)
          exact hlate.no_attempts hrest
        subst hnone
        exact ⟨left, last, rfl, hlast.connections, .inr ⟨[], before, rfl, hbegun, hone⟩⟩

/-- A poll halts once the operator has cancelled. -/
theorem Polled.halts (h : Polled question attempts l) : HaltsOnceFired question l := by
  obtain ⟨now, last, rfl, hall, hlast⟩ := h
  intro before after hl hfired
  obtain ⟨rfl, rfl⟩ | ⟨before, rfl, hlate⟩ := List.cons_eq_append_iff.mp hl
  · -- nothing has begun
    have hlate : Log.Fired (attempts.flatten ++ last) := fun e he =>
      hfired e (List.mem_cons_of_mem _ he)
    obtain rfl := hlate.no_attempts hall
    exact ⟨[], _, rfl, hlast.connections, .inl rfl⟩
  · obtain ⟨rest, last', hafter, hnone, hunder⟩ :=
      attempts_halt hall hlast before after hlate hfired
    refine ⟨rest, last', hafter, hnone, hunder.imp id ?_⟩
    rintro ⟨early, begun, rfl, hbegun, hattempt⟩
    exact ⟨_ :: early, begun, rfl, hbegun, hattempt⟩

end Rounds

end NodeFleet
