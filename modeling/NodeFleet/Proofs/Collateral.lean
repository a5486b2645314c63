import NodeFleet.Proofs.ColdLine
import NodeFleet.Proofs.PrintedLines

/-!
# NodeFleet.Proofs.Collateral — a payment counts as confirmed only where it was seen

* `poll_ok`: a poll ends well only by an answer to its question.
* `awaitConfirmation_ok`: a confirmation was read in a listing of the host.
-/

namespace NodeFleet

/-! ## Polls -/

section Polls

variable {α : Type} {question : Program (Option α)} {l : Log} {answer : α × Nat}

theorem askUntil_ok {fuel : Nat} {poller : Poller}
    (h : (poller.askUntil question fuel).run.Yields l (.ok answer)) :
    ∃ l₁ l₂, l = l₁ ++ l₂ ∧ question.Yields l₂ (some answer.1) := by
  -- on the fuel: the last attempt is the one with an answer
  induction fuel generalizing poller l with
  | zero => cases (Program.yields_run_throw.mp h).2
  | succ fuel ih =>
    obtain ⟨l₁, l₂, poller, rfl, -, h⟩ := Program.yields_bind_ok.mp h
    obtain ⟨l₃, l₄, answer?, rfl, hask, h⟩ := Program.yields_bind_ok.mp h
    obtain ⟨_, hquestion, heq⟩ := Program.yields_run_lift.mp hask
    cases heq
    cases answer? with
    | some a =>
      obtain ⟨rfl, heq⟩ := Program.yields_run_pure.mp h
      cases heq
      refine ⟨l₁, l₃, ?_, hquestion⟩
      rw [List.append_nil]
    | none =>
      obtain ⟨k₁, k₂, rfl, hk⟩ := ih h
      refine ⟨l₁ ++ (l₃ ++ k₁), k₂, ?_, hk⟩
      rw [List.append_assoc, List.append_assoc]

/-- A poll ends well with the answer that its question got last. -/
theorem poll_ok {settings : PollSettings} {awaited : String}
    (h : (poll settings awaited question).run.Yields l (.ok answer)) :
    ∃ l₁ l₂, l = l₁ ++ l₂ ∧ question.Yields l₂ (some answer.1) := by
  obtain ⟨l₁, l₂, result, rfl, huntil, rfl, hresult⟩ := Program.yields_bind.mp h
  cases result with
  | error e => cases hresult
  | ok a =>
    cases hresult
    rw [List.append_nil]
    obtain ⟨k₁, k₂, poller, rfl, -, hask⟩ := Program.yields_bind_ok.mp huntil
    obtain ⟨m₁, m₂, rfl, hm⟩ := askUntil_ok hask
    exact ⟨k₁ ++ m₁, m₂, (List.append_assoc k₁ m₁ m₂).symm, hm⟩

end Polls

namespace Fleet

variable (fleet : Fleet) {l : Log} {hash : String}

/-- A transaction counts as listed by an answer that confirms it. -/
theorem lists_some {host : Host} (h : (fleet.lists host hash).Yields l (some ())) :
    ∃ listing, l = Log.session host [⟨.run host (fleet.command .outputs), .ok listing⟩] ∧
      confirms listing hash := by
  obtain ⟨l₁, l₂, result, rfl, hquery, h⟩ := Program.yields_bind.mp h
  split at h
  · obtain ⟨rfl, -⟩ := Program.yields_pure.mp h
    obtain ⟨listing, rfl, hread, -⟩ := yields_query_ok.mp hquery
    rw [List.append_nil]
    exact ⟨listing, rfl, by simpa [ReplyKind.read] using hread⟩
  · cases (Program.yields_pure.mp h).2

/-- A confirmation was read in a listing of the host. -/
theorem awaitConfirmation_ok {host : Host} {attempts : Nat}
    (h : (fleet.awaitConfirmation host hash).run.Yields l (.ok attempts)) :
    ∃ l₁ listing l₂,
      l = l₁ ++ ⟨.run host (fleet.command .outputs), .ok listing⟩ :: l₂ ∧ hash ≠ "" ∧
        ∃ line ∈ listing.lines, Text.occursIn hash line := by
  obtain ⟨l₁, l₂, answer, rfl, hpoll, rfl, -⟩ := Program.yields_bind_ok.mp h
  obtain ⟨k₁, k₂, rfl, hlists⟩ := poll_ok hpoll
  obtain ⟨listing, rfl, hconfirms⟩ := fleet.lists_some hlists
  obtain ⟨hhash, hline⟩ := confirms_iff.mp hconfirms
  refine ⟨k₁ ++ [⟨.connect host, .ok ()⟩], listing, [⟨.close host, ()⟩], ?_, hhash, hline⟩
  simp [Log.session]

end Fleet

end NodeFleet
