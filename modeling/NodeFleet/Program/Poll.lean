import NodeFleet.Config.Basic
import NodeFleet.Program.Session

/-!
# NodeFleet.Program.Poll — asking again and again

A poller grants attempts: the first at once, each later one after the interval, until the operator
cancels, the attempts are used up, or the deadline has passed.

* `Poller.next`: the next attempt.
* `pollUntil`: asks a question at each attempt until it has an answer.  `poll`: the same as a step
  of a procedure.
-/

namespace NodeFleet

/-- The pace and the bounds of repeated attempts. -/
structure PollPolicy where
  interval : Duration
  maxAttempts? : Option Nat
  deadline? : Option Duration
  deriving DecidableEq, Repr, Inhabited

/-- The policy of a fleet's settings. -/
def PollSettings.policy (settings : PollSettings) : PollPolicy where
  interval := .ofSeconds settings.intervalSeconds
  maxAttempts? := settings.maxAttempts?
  deadline? := settings.deadlineSeconds?.map .ofSeconds

namespace PollPolicy

/-- Whether only success or cancellation ends the attempts. -/
def isUnbounded (policy : PollPolicy) : Bool :=
  policy.maxAttempts?.isNone && policy.deadline?.isNone

/-- The largest count of 32 bits.  With the next attempt a counter of that size overflows; here a
poller that has no bound of its own ends as exhausted, after more than four thousand million
attempts. -/
def mostAttempts : Nat := 4294967295

/-- The number of attempts that may be granted. -/
def bound (policy : PollPolicy) : Nat := policy.maxAttempts?.getD mostAttempts

end PollPolicy

/-- Why there is no further attempt; each cause carries the number of attempts granted before. -/
inductive PollError where
  | cancelled (attempts : Nat)
  | exhausted (attempts : Nat)
  | deadlinePassed (attempts : Nat) (deadline : Duration)
  deriving DecidableEq, Repr, Inhabited

namespace PollError

/-- The wording of the end of the attempts. -/
def message : PollError → String
  | cancelled attempts => "cancelled after " ++ toString attempts ++ " attempts"
  | exhausted attempts => "gave up after " ++ toString attempts ++ " attempts"
  | deadlinePassed attempts deadline =>
    "deadline of " ++ deadline.toText ++ " passed after " ++ toString attempts ++ " attempts"

/-- The number of attempts granted. -/
def attempts : PollError → Nat
  | cancelled n | exhausted n | deadlinePassed n _ => n

end PollError

/-- Attempts under a policy, counted and timed. -/
structure Poller where
  policy : PollPolicy
  started : Duration
  attempts : Nat
  deriving DecidableEq, Repr, Inhabited

namespace Poller

/-- A poller that has not granted anything. -/
def start (policy : PollPolicy) : Program Poller := do
  let now ← Program.clock
  pure ⟨policy, now, 0⟩

/-- The deadline, if it has passed at a time. -/
def passed? (poller : Poller) (now : Duration) : Option Duration :=
  poller.policy.deadline?.filter fun deadline =>
    poller.started.millis + deadline.millis ≤ now.millis

/-- Waits out the interval before an attempt that is not the first. -/
def pause (poller : Poller) : ExceptT PollError Program Unit := do
  if poller.attempts ≠ 0 then
    unless ← Program.sleep poller.policy.interval do
      throw (.cancelled poller.attempts)
    match poller.passed? (← Program.clock) with
    | some deadline => throw (.deadlinePassed poller.attempts deadline)
    | none => pure ()

/-- Grants one more attempt. -/
def next (poller : Poller) : ExceptT PollError Program Poller := do
  if ← Program.isCancelled then throw (.cancelled poller.attempts)
  if poller.policy.bound ≤ poller.attempts then throw (.exhausted poller.attempts)
  poller.pause
  pure { poller with attempts := poller.attempts + 1 }

end Poller

/-- Asks at the next attempts, at most `fuel` of them; the answer comes with the number of
attempts. -/
def Poller.askUntil (question : Program (Option α)) :
    Nat → Poller → ExceptT PollError Program (α × Nat)
  | 0, poller => throw (.exhausted poller.attempts)
  | fuel + 1, poller => do
    let poller ← poller.next
    match ← question with
    | some answer => pure (answer, poller.attempts)
    | none => askUntil question fuel poller

/-- Asks until there is an answer, which comes with the number of attempts, or the poller grants no
more. -/
def pollUntil (policy : PollPolicy) (question : Program (Option α)) :
    ExceptT PollError Program (α × Nat) := do
  let poller ← Poller.start policy
  poller.askUntil question (policy.bound + 1)

/-- How a failure to poll is filed; a cancellation stays one. -/
def PollError.toFleetError (awaited : String) : PollError → FleetError
  | .cancelled _ => .cancelled
  | e => .unconfirmed awaited e.attempts

/-- Asks until there is an answer, which comes with the number of attempts. -/
def poll (settings : PollSettings) (awaited : String) (question : Program (Option α)) :
    Step (α × Nat) :=
  ExceptT.mk do
    let result ← (pollUntil settings.policy question).run
    pure (result.mapError (PollError.toFleetError awaited))

end NodeFleet
