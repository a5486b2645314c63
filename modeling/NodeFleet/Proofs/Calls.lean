import Mathlib.Control.Monad.Basic
import NodeFleet.Proofs.Polling

/-!
# NodeFleet.Proofs.Calls — a poller that is called for attempts again and again

A poller is called for one attempt after the other, by whoever goes on with other things between the
calls.  What denies a call denies all that come after it, as long as the operator does not take a
cancellation back and the clock does not go back.

* `Log.IsOnward`: nothing goes back.
* `Call`, `Poller.Calls`, `Poller.callsIn`: calls, and those that are made in a world.
* `Calls.suffix`: calls after other calls are those of a poller that has granted as many more.
* `PollPolicy.Closed`, `Calls.all_denied`: no call is granted once one has been denied.
* `Call.IsLawful`, `Poller.calls_lawful`: the laws of all calls for attempts.
-/

namespace NodeFleet

/-! ## Cancellations and times -/

/-- The time that is read off the clock. -/
def Event.time? : Event → Option Nat
  | ⟨.clock, now⟩ => some now.millis
  | _ => none

namespace Log

/-- Nothing goes back: once a cancellation has been met every look finds it, and the clock does not
show an earlier time than before. -/
structure IsOnward (l : Log) : Prop where
  cancelled : l.Pairwise fun e e' => ¬ e.IsCalm → e'.request = .cancelled → ¬ e'.IsCalm
  clock : (l.filterMap Event.time?).Pairwise (· ≤ ·)

variable {past l l' : Log}

theorem IsOnward.sublist (h : l.IsOnward) (hsub : l'.Sublist l) : l'.IsOnward :=
  ⟨h.cancelled.sublist hsub, h.clock.sublist (hsub.filterMap _)⟩

/-- Without a cancellation only the clock matters. -/
theorem isOnward_of_calm (hcalm : Calm l) (hclock : (l.filterMap Event.time?).Pairwise (· ≤ ·)) :
    l.IsOnward :=
  ⟨List.pairwise_of_forall_mem_list fun e he _ _ hfired => absurd (hcalm e he) hfired, hclock⟩

/-- A look after a cancellation finds it. -/
theorem IsOnward.look (h : IsOnward (past ++ l)) {e : Event} (he : e ∈ past) (hfired : ¬ e.IsCalm)
    {answer : Bool} (hlook : ⟨.cancelled, answer⟩ ∈ l) : answer = true :=
  eq_true_of_ne_false ((List.pairwise_append.mp h.cancelled).2.2 e he _ hlook hfired rfl)

/-- What the clock shows later is not earlier. -/
theorem IsOnward.le (h : IsOnward (past ++ l)) {early late : Duration}
    (hearly : ⟨.clock, early⟩ ∈ past) (hlate : ⟨.clock, late⟩ ∈ l) :
    early.millis ≤ late.millis := by
  have hread {l : Log} {now : Duration} (hmem : ⟨.clock, now⟩ ∈ l) :
      now.millis ∈ l.filterMap Event.time? := List.mem_filterMap.mpr ⟨_, hmem, rfl⟩
  have hclock := h.clock
  rw [List.filterMap_append, List.pairwise_append] at hclock
  exact hclock.2.2 _ (hread hearly) _ (hread hlate)

end Log

/-! ## Many calls -/

/-- A call for an attempt: what has been asked since the call before, what the call asks, and the
number of the attempt or why there is none. -/
structure Call where
  before : Log
  asked : Log
  result : Except PollError Nat

namespace Call

/-- What is asked in calls and between them. -/
def log (calls : List Call) : Log := calls.flatMap fun call => call.before ++ call.asked

/-- The number of attempts that are granted in calls. -/
def granted (calls : List Call) : Nat := calls.countP (·.result.isOk)

theorem log_append {earlier later : List Call} :
    log (earlier ++ later) = log earlier ++ log later := List.flatMap_append

theorem log_cons {call : Call} {calls : List Call} :
    log (call :: calls) = call.before ++ call.asked ++ log calls := List.flatMap_cons

theorem granted_ok {k : Nat} {before asked : Log} {calls : List Call} :
    granted (⟨before, asked, .ok k⟩ :: calls) = granted calls + 1 := List.countP_cons_of_pos rfl

theorem granted_error {e : PollError} {before asked : Log} {calls : List Call} :
    granted (⟨before, asked, .error e⟩ :: calls) = granted calls :=
  List.countP_cons_of_neg Bool.false_ne_true

theorem granted_append {earlier later : List Call} :
    granted (earlier ++ later) = granted earlier + granted later := List.countP_append

end Call

/-- Calls for attempts of one poller, which counts those that it grants. -/
inductive Poller.Calls : Poller → List Call → Prop
  | nil {poller : Poller} : Calls poller []
  | granted {poller later : Poller} {before asked : Log} {rest : List Call}
    (hnext : poller.next.run.Yields asked (.ok later)) (hrest : Calls later rest) :
    Calls poller (⟨before, asked, .ok later.attempts⟩ :: rest)
  | denied {poller : Poller} {e : PollError} {before asked : Log} {rest : List Call}
    (hnext : poller.next.run.Yields asked (.error e)) (hrest : Calls poller rest) :
    Calls poller (⟨before, asked, .error e⟩ :: rest)

/-- The calls of a poller in a world, each after a program of its own. -/
def Poller.callsIn {σ : Type} (world : World σ) : List (Program Unit) → Poller → σ → List Call
  | [], _, _ => []
  | between :: rest, poller, s =>
    let ready := (between.run world s).2
    let called := poller.next.run.run world ready
    let call := Call.mk (between.log world s) (poller.next.run.log world ready)
    match called.1 with
    | .ok later => call (.ok later.attempts) :: later.callsIn world rest called.2
    | .error e => call (.error e) :: poller.callsIn world rest called.2

namespace Poller

variable {poller : Poller} {earlier rest : List Call} {call : Call}

/-- The calls in any world are calls of the poller. -/
theorem callsIn_calls {σ : Type} (world : World σ) (between : List (Program Unit))
    (poller : Poller) (s : σ) : poller.Calls (poller.callsIn world between s) := by
  induction between generalizing poller s with
  | nil => exact .nil
  | cons program between ih =>
    have hnext := Program.yields_log world poller.next.run (program.run world s).2
    unfold callsIn
    dsimp only
    cases hcalled : (poller.next.run.run world (program.run world s).2).1 with
    | ok later =>
      rw [hcalled] at hnext
      exact .granted hnext (ih _ _)
    | error e =>
      rw [hcalled] at hnext
      exact .denied hnext (ih _ _)

theorem length_callsIn {σ : Type} (world : World σ) (between : List (Program Unit))
    (poller : Poller) (s : σ) : (poller.callsIn world between s).length = between.length := by
  induction between generalizing poller s with
  | nil => rfl
  | cons program between ih =>
    unfold callsIn
    dsimp only
    split
    all_goals exact congrArg Nat.succ (ih _ _)

/-- Nothing is cancelled in the calls where the operator never cancels. -/
theorem callsIn_calm {σ : Type} {world : World σ} (hworld : world.NeverCancels)
    (between : List (Program Unit)) (poller : Poller) (s : σ) :
    Calm (Call.log (poller.callsIn world between s)) := by
  induction between generalizing poller s with
  | nil => exact fun _ he => absurd he List.not_mem_nil
  | cons program between ih =>
    have hbefore := hworld.calm program s
    have hasked := hworld.calm poller.next.run (program.run world s).2
    unfold callsIn
    dsimp only
    split
    all_goals
      rw [Call.log_cons]
      exact calm_append.mpr ⟨calm_append.mpr ⟨hbefore, hasked⟩, ih _ _⟩

theorem Calls.head (h : poller.Calls (call :: rest)) :
    poller.policy.Attempt poller.started poller.attempts call.asked call.result := by
  cases h with
  | granted hnext => exact (next_attempt hnext).1
  | denied hnext => exact (next_attempt hnext).1

/-- Calls after other calls are those of a poller that has granted as many more. -/
theorem Calls.suffix (h : poller.Calls (earlier ++ rest)) :
    { poller with attempts := poller.attempts + Call.granted earlier }.Calls rest := by
  induction earlier generalizing poller with
  | nil => exact h
  | cons call earlier ih =>
    cases h with
    | granted hnext hrest =>
      obtain rfl := (next_attempt hnext).2 _ rfl
      have hcount : poller.attempts + (Call.granted earlier + 1) =
          poller.attempts + 1 + Call.granted earlier := by omega
      rw [Call.granted_ok, hcount]
      exact ih hrest
    | denied hnext hrest =>
      rw [Call.granted_error]
      exact ih hrest

end Poller

/-! ## No attempt after a call that was denied -/

namespace PollPolicy

variable {policy : PollPolicy} {started : Duration} {n : Nat} {l past : Log}

/-- No attempt is granted any more after what has been asked: a cancellation has been met, as many
attempts have been granted as may be, or the deadline had passed at a look at the clock. -/
def Closed (policy : PollPolicy) (started : Duration) (n : Nat) (past : Log) : Prop :=
  (∃ e ∈ past, ¬ e.IsCalm) ∨ policy.bound ≤ n ∨
    n ≠ 0 ∧ ∃ now deadline, ⟨.clock, now⟩ ∈ past ∧ policy.deadline? = some deadline ∧
      started.millis + deadline.millis ≤ now.millis

theorem Closed.mono (h : policy.Closed started n past) {more : Log} (hsub : past ⊆ more) :
    policy.Closed started n more := by
  obtain ⟨e, he, hfired⟩ | hspent | ⟨hsome, now, deadline, hread, hpassed⟩ := h
  · exact .inl ⟨e, hsub he, hfired⟩
  · exact .inr (.inl hspent)
  · exact .inr (.inr ⟨hsome, now, deadline, hsub hread, hpassed⟩)

/-- A call that is denied says how many attempts were granted, and no attempt is granted any
more. -/
theorem Attempt.closed {e : PollError} (h : policy.Attempt started n l (.error e)) :
    e.attempts = n ∧ policy.Closed started n l := by
  cases h with
  | cancelled => exact ⟨rfl, .inl ⟨_, List.mem_cons_self, fun hcalm => nomatch hcalm⟩⟩
  | exhausted hspent => exact ⟨rfl, .inr (.inl hspent)⟩
  | cutShort =>
    exact ⟨rfl, .inl ⟨⟨.sleep policy.interval, false⟩, by simp, fun hcalm => nomatch hcalm⟩⟩
  | late hsome _ hdeadline hpassed =>
    exact ⟨rfl, .inr (.inr ⟨hsome, _, _, by simp, hdeadline, hpassed⟩)⟩

theorem Attempt.lt_bound {k : Nat} (h : policy.Attempt started n l (.ok k)) :
    n < policy.bound := by
  cases h <;> assumption

/-- An attempt that is granted is the next one, and nothing stood against it. -/
theorem Attempt.of_ok {k : Nat} (h : policy.Attempt started n l (.ok k))
    (honward : Log.IsOnward (past ++ l)) :
    k = n + 1 ∧ ¬ policy.Closed started n past := by
  have hlook : (⟨.cancelled, false⟩ : Event) ∈ l := by cases h <;> exact List.mem_cons_self
  have hnumber : k = n + 1 := by cases h <;> rfl
  refine ⟨hnumber, ?_⟩
  rintro (⟨e, he, hfired⟩ | hspent | ⟨hsome, now, deadline, hread, hdeadline, hpassed⟩)
  · exact absurd (honward.look he hfired hlook) Bool.false_ne_true
  · exact absurd hspent (Nat.not_le_of_lt h.lt_bound)
  · cases h with
    | first hnone => exact hsome hnone
    | @later late _ _ hintime =>
      have hlater : now.millis ≤ late.millis := honward.le hread (by simp)
      exact absurd (Nat.le_trans hpassed hlater) (Nat.not_le_of_lt (hintime deadline hdeadline))

end PollPolicy

/-- Once nothing is granted any more, every call is denied, and the count stays as it is. -/
theorem Poller.Calls.all_denied {poller : Poller} {calls : List Call} {past : Log}
    (h : poller.Calls calls)
    (hclosed : poller.policy.Closed poller.started poller.attempts past)
    (honward : Log.IsOnward (past ++ Call.log calls)) :
    ∀ call ∈ calls, ∃ e, call.result = .error e ∧ e.attempts = poller.attempts := by
  induction h generalizing past with
  | nil => exact fun _ hm => absurd hm List.not_mem_nil
  | @granted poller later before asked rest hnext =>
    rw [Call.log_cons, ← List.append_assoc, ← List.append_assoc] at honward
    obtain ⟨-, hopen⟩ :=
      (next_attempt hnext).1.of_ok (honward.sublist (List.sublist_append_left _ _))
    exact absurd (hclosed.mono (List.subset_append_left past before)) hopen
  | @denied poller e before asked rest hnext hrest ih =>
    rw [Call.log_cons, ← List.append_assoc] at honward
    have hclosed' := hclosed.mono (List.subset_append_left past (before ++ asked))
    obtain ⟨hcount, -⟩ := (next_attempt hnext).1.closed
    exact List.forall_mem_cons.mpr ⟨⟨e, rfl, hcount⟩, ih hclosed' honward⟩

/-! ## The laws of calls -/

namespace PollPolicy

variable {policy : PollPolicy} {started : Duration} {n : Nat} {l : Log}

/-- Under a policy that grants none, its number of attempts is nothing. -/
theorem bound_eq_zero : policy.bound = 0 ↔ policy.maxAttempts? = some 0 := by
  unfold bound
  cases policy.maxAttempts? with
  | none => exact iff_of_false (by decide) nofun
  | some m => exact (Option.some_inj (a := m) (b := 0)).symm

/-- As long as no attempt has been granted, a call looks at the cancellation and nothing else. -/
theorem Attempt.of_none {r : Except PollError Nat} (h : policy.Attempt started 0 l r) :
    ∃ cancelled : Bool, l = [⟨.cancelled, cancelled⟩] ∧ r =
      if cancelled then .error (.cancelled 0)
      else if policy.maxAttempts? = some 0 then .error (.exhausted 0) else .ok 1 := by
  cases h with
  | cancelled => exact ⟨true, rfl, rfl⟩
  | exhausted hspent =>
    exact ⟨false, rfl, (if_pos (bound_eq_zero.mp (Nat.le_zero.mp hspent))).symm⟩
  | first _ hleft =>
    exact ⟨false, rfl, (if_neg fun h => Nat.ne_of_gt hleft (bound_eq_zero.mpr h)).symm⟩
  | cutShort hsome => exact absurd rfl hsome
  | late hsome => exact absurd rfl hsome
  | later hsome => exact absurd rfl hsome

/-- Where attempts have been granted, the next one is granted after a whole interval, and before the
deadline. -/
theorem Attempt.of_some {k : Nat} (h : policy.Attempt started n l (.ok k)) (hsome : n ≠ 0) :
    ∃ now, l = [⟨.cancelled, false⟩, ⟨.sleep policy.interval, true⟩, ⟨.clock, now⟩] ∧
      ∀ deadline, policy.deadline? = some deadline →
        now.millis < started.millis + deadline.millis := by
  cases h with
  | first hnone => exact absurd hnone hsome
  | later _ _ hintime => exact ⟨_, rfl, hintime⟩

/-- No call that grants an attempt is cancelled. -/
theorem Attempt.calm {k : Nat} (h : policy.Attempt started n l (.ok k)) : Calm l := by
  cases h with
  | first => exact calm_look
  | later => exact calm_waited _ _

/-- Why a call may be denied: it finds a cancellation, as many attempts have been granted as the
policy allows, or the deadline has passed at the end of the wait. -/
def HasReason (policy : PollPolicy) (started : Duration) (asked : Log) : PollError → Prop
  | .cancelled _ => ¬ Calm asked
  | .exhausted n => policy.maxAttempts? = some n
  | .deadlinePassed _ deadline => policy.deadline? = some deadline ∧
    ∃ now, asked = [⟨.cancelled, false⟩, ⟨.sleep policy.interval, true⟩, ⟨.clock, now⟩] ∧
      started.millis + deadline.millis ≤ now.millis

/-- A call that is denied has a reason, as long as the attempts can be counted. -/
theorem Attempt.reason {e : PollError} (h : policy.Attempt started n l (.error e))
    (hmost : n ≤ policy.bound) (hfew : policy.maxAttempts? = none → n < mostAttempts) :
    policy.HasReason started l e := by
  cases h with
  | cancelled => exact fun hcalm => nomatch hcalm _ List.mem_cons_self
  | exhausted hspent =>
    have hbound := Nat.le_antisymm hspent hmost
    unfold bound at hbound
    show policy.maxAttempts? = some n
    cases hmax : policy.maxAttempts? with
    | none =>
      rw [hmax, Option.getD_none] at hbound
      exact absurd (hfew hmax) (Nat.not_lt_of_le (Nat.le_of_eq hbound))
    | some m => rw [← hbound, hmax, Option.getD_some]
  | cutShort =>
    exact fun hcalm => nomatch hcalm ⟨.sleep policy.interval, false⟩ (by simp)
  | late _ _ hdeadline hpassed => exact ⟨hdeadline, _, rfl, hpassed⟩

end PollPolicy

namespace Call

/-- The laws of a call for an attempt, after the calls before it. -/
structure IsLawful (policy : PollPolicy) (started : Duration) (earlier : List Call) (call : Call)
    (later : List Call) : Prop where
  /-- The attempt that is granted is the next one. -/
  number {k : Nat} (hgranted : call.result = .ok k) : k = granted earlier + 1
  /-- The first attempt is granted at once, unless there is a cancellation or the policy grants
  none. -/
  first (hnone : granted earlier = 0) : ∃ cancelled : Bool,
    call.asked = [⟨.cancelled, cancelled⟩] ∧ call.result =
      if cancelled then .error (.cancelled 0)
      else if policy.maxAttempts? = some 0 then .error (.exhausted 0) else .ok 1
  /-- A later one is granted after a whole interval, before the deadline. -/
  paced {k : Nat} (hsome : granted earlier ≠ 0) (hgranted : call.result = .ok k) : ∃ now,
    call.asked = [⟨.cancelled, false⟩, ⟨.sleep policy.interval, true⟩, ⟨.clock, now⟩] ∧
    ∀ deadline, policy.deadline? = some deadline → now.millis < started.millis + deadline.millis
  /-- None is granted once there has been a cancellation, before the call or in it. -/
  uncancelled {k : Nat} (hgranted : call.result = .ok k) :
    Calm (log earlier ++ call.before ++ call.asked)
  /-- An error has its reason and the number of attempts granted; every later call fails as well,
  with the same number. -/
  denied {e : PollError} (hdenied : call.result = .error e) :
    policy.HasReason started call.asked e ∧
    e.attempts = granted earlier ∧
    ∀ other ∈ later, ∃ e', other.result = .error e' ∧ e'.attempts = granted earlier

end Call

namespace Poller

variable {poller : Poller} {earlier later calls : List Call} {call : Call}

theorem yields_start {policy : PollPolicy} {l : Log} :
    (start policy).Yields l poller ↔ ∃ now, l = [⟨.clock, now⟩] ∧ poller = ⟨policy, now, 0⟩ := by
  constructor
  · intro h
    obtain ⟨l₁, l₂, now, rfl, hread, rfl, rfl⟩ := Program.yields_bind.mp h
    obtain rfl := Program.yields_request.mp hread
    exact ⟨now, rfl, rfl⟩
  · rintro ⟨now, rfl, rfl⟩
    exact Program.yields_bind.mpr ⟨_, [], now, rfl, Program.yields_request.mpr rfl, rfl, rfl⟩

/-- There are no more attempts than the policy allows. -/
theorem Calls.granted_le (h : poller.Calls calls) (hmost : poller.attempts ≤ poller.policy.bound) :
    poller.attempts + Call.granted calls ≤ poller.policy.bound := by
  induction h with
  | nil => exact hmost
  | granted hnext hrest ih =>
    obtain ⟨hattempt, hlater⟩ := next_attempt hnext
    obtain rfl := hlater _ rfl
    have hrest := ih hattempt.lt_bound
    rw [Call.granted_ok]
    dsimp only at hrest
    omega
  | denied hnext hrest ih =>
    rw [Call.granted_error]
    exact ih hmost

/-- Without a cancellation and a deadline the calls are granted one after the other, until as many
are granted as may be. -/
theorem Calls.results {m : Nat} (h : poller.Calls calls)
    (hmax : poller.policy.maxAttempts? = some m) (hdeadline : poller.policy.deadline? = none)
    (hcalm : Calm (Call.log calls)) (hmost : poller.attempts ≤ m) :
    calls.map Call.result = (List.range calls.length).map fun i =>
      if poller.attempts + i < m then .ok (poller.attempts + i + 1) else .error (.exhausted m) := by
  have hbound {poller : Poller} (hmax : poller.policy.maxAttempts? = some m) :
      poller.policy.bound = m := by
    unfold PollPolicy.bound
    rw [hmax, Option.getD_some]
  -- call by call; once one is denied the count stays at the bound, so that all others are
  induction h with
  | nil => rfl
  | @granted poller later before asked rest hnext hrest ih =>
    obtain ⟨hattempt, hlater⟩ := next_attempt hnext
    obtain rfl := hlater _ rfl
    have hleft : poller.attempts < m := hbound hmax ▸ hattempt.lt_bound
    rw [Call.log_cons] at hcalm
    rw [List.map_cons, ih hmax hdeadline (calm_append.mp hcalm).2 hleft, List.length_cons,
      List.range_succ_eq_map, List.map_cons, List.map_map]
    refine List.cons_eq_cons.mpr ⟨(if_pos hleft).symm, List.map_congr_left fun i _ => ?_⟩
    have hplace : poller.attempts + 1 + i = poller.attempts + (i + 1) := by omega
    dsimp only [Function.comp_apply]
    rw [hplace]
  | @denied poller e before asked rest hnext hrest ih =>
    rw [Call.log_cons] at hcalm
    obtain ⟨hnow, hafter⟩ := calm_append.mp hcalm
    obtain ⟨hspent, rfl⟩ : m ≤ poller.attempts ∧ e = .exhausted poller.attempts := by
      obtain ⟨hspent, -, heq⟩ | ⟨-, -, heq⟩ := next_calm hdeadline hnext (calm_append.mp hnow).2
      · exact ⟨hbound hmax ▸ hspent, Except.error.inj heq⟩
      · cases heq
    obtain rfl := Nat.le_antisymm hmost hspent
    have hnone (i : Nat) : ¬ poller.attempts + i < poller.attempts := by omega
    rw [List.map_cons, ih hmax hdeadline hafter hmost, List.length_cons, List.range_succ_eq_map,
      List.map_cons, List.map_map]
    simp only [hnone, if_false, Function.comp_def]

/-- Every call of a new poller obeys the laws. -/
theorem Calls.isLawful (h : poller.Calls (earlier ++ call :: later)) (hnew : poller.attempts = 0)
    (hfew : poller.policy.maxAttempts? = none →
      Call.granted earlier < PollPolicy.mostAttempts)
    (honward : Log.IsOnward (Call.log (earlier ++ call :: later))) :
    call.IsLawful poller.policy poller.started earlier later := by
  have hsuffix := h.suffix
  rw [hnew, Nat.zero_add] at hsuffix
  rw [Call.log_append, Call.log_cons, List.append_assoc, ← List.append_assoc] at honward
  have hattempt := hsuffix.head
  -- the clock goes on through the earlier calls and this one, and through this one and the later
  have hnow : Log.IsOnward (Call.log earlier ++ call.before ++ call.asked) :=
    honward.sublist ((List.sublist_append_left _ _).append_left _)
  have hlater : Log.IsOnward (call.asked ++ Call.log later) :=
    honward.sublist (List.sublist_append_right _ _)
  refine ⟨fun hgranted => ?_, fun hnone => ?_, fun hsome hgranted => ?_, fun hgranted => ?_,
    fun {e} hdenied => ⟨?_, ?_⟩⟩
  · rw [hgranted] at hattempt
    exact (hattempt.of_ok hnow).1
  · rw [hnone] at hattempt
    exact hattempt.of_none
  · rw [hgranted] at hattempt
    exact hattempt.of_some hsome
  · rw [hgranted] at hattempt
    have hopen := (hattempt.of_ok hnow).2
    refine calm_append.mpr ⟨fun e he => ?_, hattempt.calm⟩
    exact Classical.not_not.mp fun hfired => hopen (.inl ⟨e, he, hfired⟩)
  · rw [hdenied] at hattempt
    have hall := h.granted_le (hnew ▸ Nat.zero_le _)
    rw [hnew, Call.granted_append] at hall
    have hmost : Call.granted earlier ≤ poller.policy.bound := by omega
    exact hattempt.reason hmost hfew
  · cases hsuffix with
    | granted => cases hdenied
    | denied hnext hrest =>
      cases hdenied
      obtain ⟨hcount, hclosed⟩ := (next_attempt hnext).1.closed
      exact ⟨hcount, hrest.all_denied hclosed hlater⟩

/-- The laws of a poller that is called again and again, whatever is done between the calls and
whatever is answered, as long as nothing goes back and no number of an attempt is beyond what can be
counted.  The attempts granted are numbered from one.  The first is granted without a wait, whatever
the deadline; each later one after a whole interval, before the deadline, and not after a
cancellation.  An error has the number of those granted, and all calls after it fail with the same
number.  Where the policy has a number of attempts, no more are granted; without a cancellation and
a deadline exactly as many are, and all other calls say so. -/
theorem calls_lawful {policy : PollPolicy} {l : Log} (hstart : (start policy).Yields l poller)
    (hcalls : poller.Calls calls)
    (hfew : policy.maxAttempts? = none → ∀ earlier call later, calls = earlier ++ call :: later →
      Call.granted earlier < PollPolicy.mostAttempts)
    (honward : Log.IsOnward (Call.log calls)) :
    (∀ earlier call later, calls = earlier ++ call :: later →
      call.IsLawful policy poller.started earlier later) ∧
    ∀ m, policy.maxAttempts? = some m → Call.granted calls ≤ m ∧
      (policy.deadline? = none → Calm (Call.log calls) →
        calls.map Call.result = (List.range calls.length).map fun i =>
          if i < m then .ok (i + 1) else .error (.exhausted m)) := by
  obtain ⟨now, -, rfl⟩ := yields_start.mp hstart
  refine ⟨fun earlier call later hsplit => ?_, fun m hmax => ⟨?_, fun hdeadline hcalm => ?_⟩⟩
  · subst hsplit
    exact hcalls.isLawful rfl (fun hnone => hfew hnone earlier call later rfl) honward
  · have hmost := hcalls.granted_le (Nat.zero_le _)
    unfold PollPolicy.bound at hmost
    rwa [Nat.zero_add, hmax] at hmost
  · have hresults := hcalls.results hmax hdeadline hcalm (Nat.zero_le m)
    simpa only [Nat.zero_add] using hresults

/-- Called five times within a policy of fifty milliseconds, a poller that waits for twenty between
attempts grants three and then none. -/
theorem calls_lawful_ticking :
    ∃ policy poller calls, (start policy).Yields [⟨.clock, ⟨0⟩⟩] poller ∧ poller.Calls calls ∧
      Log.IsOnward (Call.log calls) ∧
      calls.map Call.result = [.ok 1, .ok 2, .ok 3, .error (.deadlinePassed 3 ⟨50⟩),
        .error (.deadlinePassed 3 ⟨50⟩)] ∧
      ∀ earlier call later, calls = earlier ++ call :: later →
        call.IsLawful policy poller.started earlier later := by
  let policy : PollPolicy := ⟨⟨20⟩, none, some ⟨50⟩⟩
  let poller : Poller := ⟨policy, ⟨0⟩, 0⟩
  let calls := poller.callsIn .ticking (List.replicate 5 (.done ())) 0
  have hstart : (start policy).Yields [⟨.clock, ⟨0⟩⟩] poller := yields_start.mpr ⟨⟨0⟩, rfl, rfl⟩
  have hcalls : poller.Calls calls := callsIn_calls ..
  have hworld : World.ticking.NeverCancels := ⟨fun _ => rfl, fun _ _ => rfl⟩
  have hcalm : Calm (Call.log calls) := callsIn_calm hworld _ poller 0
  have honward : Log.IsOnward (Call.log calls) := Log.isOnward_of_calm hcalm (by decide +kernel)
  have hlength : calls.length = 5 := length_callsIn ..
  have hresults : calls.map Call.result = [.ok 1, .ok 2, .ok 3, .error (.deadlinePassed 3 ⟨50⟩),
      .error (.deadlinePassed 3 ⟨50⟩)] := by decide +kernel
  have hfew : ∀ earlier call later, calls = earlier ++ call :: later →
      Call.granted earlier < PollPolicy.mostAttempts := by
    intro earlier call later hsplit
    have hcount : Call.granted earlier ≤ earlier.length := List.countP_le_length
    have hall := congrArg List.length hsplit
    rw [hlength, List.length_append, List.length_cons] at hall
    unfold PollPolicy.mostAttempts
    omega
  exact ⟨policy, poller, calls, hstart, hcalls, honward, hresults,
    (calls_lawful hstart hcalls (fun _ => hfew) honward).1⟩

end Poller

end NodeFleet
