import NodeFleet.Program.Basic

/-!
# NodeFleet.Proofs.Log — what a program asks, and what it is answered

A run of a program in a world leaves a log: its requests in order, each with the answer it got.
`Yields` says which logs, with which results, a program can leave when nothing is known of the
answers.  Every run in every world is one of them (`yields_log`), so a law on `Yields` is a law on
every behaviour of the fleet, the clock and the operator.

* `Event`, `Log`, `Program.log`: the log of a run.
* `Program.Yields`: the logs and results that are possible.
* `yields_andThen`, `yields_bind_ok`, `yields_bind_error`: the log of one part after another, also
  where the first part may fail.
* `Composes`, `Leaves`: a property of logs that one part after another keeps, and that a program
  ends with, whatever it is answered.
-/

namespace NodeFleet

/-- A request with the answer it got. -/
structure Event where
  request : Request
  answer : request.Answer

/-- What was asked and answered, in order. -/
abbrev Log : Type := List Event

/-- What stands in one list after another stands in the second, or in the first. -/
theorem split_append {α : Type} {xs ys before after : List α} {a : α}
    (h : xs ++ ys = before ++ a :: after) :
    (∃ mid, before = xs ++ mid ∧ ys = mid ++ a :: after) ∨
      ∃ rest, xs = before ++ a :: rest ∧ after = rest ++ ys := by
  obtain ⟨mid, rfl, hmid⟩ | ⟨mid, rfl, hmid⟩ := List.append_eq_append_iff.mp h
  · exact .inl ⟨mid, rfl, hmid⟩
  · obtain ⟨rfl, rfl⟩ | ⟨rest, rfl, rfl⟩ := List.cons_eq_append_iff.mp hmid
    · exact .inl ⟨[], by simp, rfl⟩
    · exact .inr ⟨rest, rfl, rfl⟩

namespace Program

variable {α β σ : Type} {l : Log}

/-- What a run asks, with the answers. -/
def log (world : World σ) : Program α → σ → Log
  | done _, _ => []
  | ask r next, s =>
    let answered := world r s
    ⟨r, answered.1⟩ :: (next answered.1).log world answered.2

/-- Some answers make the program leave this log and end with this result. -/
def Yields : Program α → Log → α → Prop
  | done a, l, b => l = [] ∧ b = a
  | ask r next, l, b => ∃ answer rest, l = ⟨r, answer⟩ :: rest ∧ (next answer).Yields rest b

@[simp] theorem yields_pure {a b : α} : (pure a : Program α).Yields l b ↔ l = [] ∧ b = a := Iff.rfl

theorem log_andThen (world : World σ) (p : Program α) (f : α → Program β) (s : σ) :
    (p.andThen f).log world s =
      p.log world s ++ (f (p.run world s).1).log world (p.run world s).2 := by
  induction p generalizing s with
  | done a => rfl
  | ask r next ih => exact congrArg (_ :: ·) (ih _ _)

/-- What is left of a run in a world is among what is possible. -/
theorem yields_log (world : World σ) (p : Program α) (s : σ) :
    p.Yields (p.log world s) (p.run world s).1 := by
  induction p generalizing s with
  | done a => exact ⟨rfl, rfl⟩
  | ask r next ih => exact ⟨_, _, rfl, ih _ _⟩

/-- The log of one program after another is the one log after the other. -/
theorem yields_andThen {p : Program α} {f : α → Program β} {b : β} :
    (p.andThen f).Yields l b ↔
      ∃ l₁ l₂ a, l = l₁ ++ l₂ ∧ p.Yields l₁ a ∧ (f a).Yields l₂ b := by
  induction p generalizing l with
  | done a =>
    constructor
    · intro h
      exact ⟨[], l, a, rfl, ⟨rfl, rfl⟩, h⟩
    · rintro ⟨l₁, l₂, a', rfl, ⟨rfl, rfl⟩, h⟩
      exact h
  | ask r next ih =>
    constructor
    · rintro ⟨answer, rest, rfl, h⟩
      obtain ⟨l₁, l₂, a, rfl, h₁, h₂⟩ := (ih answer).mp h
      exact ⟨_ :: l₁, l₂, a, rfl, ⟨answer, l₁, rfl, h₁⟩, h₂⟩
    · rintro ⟨l₁, l₂, a, rfl, ⟨answer, rest, rfl, h₁⟩, h₂⟩
      exact ⟨answer, rest ++ l₂, rfl, (ih answer).mpr ⟨rest, l₂, a, rfl, h₁, h₂⟩⟩

theorem yields_bind {p : Program α} {f : α → Program β} {b : β} :
    (p >>= f).Yields l b ↔
      ∃ l₁ l₂ a, l = l₁ ++ l₂ ∧ p.Yields l₁ a ∧ (f a).Yields l₂ b :=
  yields_andThen

theorem yields_map {p : Program α} {f : α → β} {b : β} :
    (f <$> p).Yields l b ↔ ∃ a, p.Yields l a ∧ b = f a := by
  rw [map_eq_pure_bind, yields_bind]
  constructor
  · rintro ⟨l₁, l₂, a, rfl, h, rfl, rfl⟩
    exact ⟨a, by simpa using h, rfl⟩
  · rintro ⟨a, h, rfl⟩
    exact ⟨l, [], a, (List.append_nil l).symm, h, rfl, rfl⟩

@[simp] theorem yields_request {r : Request} {a : r.Answer} :
    (request r).Yields l a ↔ l = [⟨r, a⟩] := by
  constructor
  · rintro ⟨answer, rest, rfl, rfl, rfl⟩
    rfl
  · rintro rfl
    exact ⟨a, [], rfl, rfl, rfl⟩

/-! ## Programs that may fail -/

section Failing

variable {ε : Type}

@[simp] theorem yields_run_pure {a : α} {r : Except ε α} :
    (pure a : ExceptT ε Program α).run.Yields l r ↔ l = [] ∧ r = .ok a := Iff.rfl

@[simp] theorem yields_run_throw {e : ε} {r : Except ε α} :
    (throw e : ExceptT ε Program α).run.Yields l r ↔ l = [] ∧ r = .error e := Iff.rfl

theorem run_lift_bind (p : Program α) (f : α → ExceptT ε Program β) :
    ((liftM p : ExceptT ε Program α) >>= f).run = p >>= fun a => (f a).run := by
  rw [ExceptT.run_bind]
  change (Except.ok <$> p) >>= _ = _
  rw [map_eq_pure_bind, bind_assoc]
  rfl

theorem yields_run_lift {p : Program α} {r : Except ε α} :
    (ExceptT.lift p).run.Yields l r ↔ ∃ a, p.Yields l a ∧ r = .ok a :=
  yields_map

/-- One part after another ends well when both do. -/
theorem yields_bind_ok {x : ExceptT ε Program α} {f : α → ExceptT ε Program β} {b : β} :
    (x >>= f).run.Yields l (.ok b) ↔
      ∃ l₁ l₂ a, l = l₁ ++ l₂ ∧ x.run.Yields l₁ (.ok a) ∧ (f a).run.Yields l₂ (.ok b) := by
  rw [ExceptT.run_bind, yields_bind]
  constructor
  · rintro ⟨l₁, l₂, a | a, rfl, h₁, h₂⟩
    · exact absurd h₂.2 (by simp)
    · exact ⟨l₁, l₂, a, rfl, h₁, h₂⟩
  · rintro ⟨l₁, l₂, a, rfl, h₁, h₂⟩
    exact ⟨l₁, l₂, .ok a, rfl, h₁, h₂⟩

/-- One part after another fails when the first does, and then the second does not begin, or when
the second does. -/
theorem yields_bind_error {x : ExceptT ε Program α} {f : α → ExceptT ε Program β} {e : ε} :
    (x >>= f).run.Yields l (.error e) ↔
      x.run.Yields l (.error e) ∨
        ∃ l₁ l₂ a, l = l₁ ++ l₂ ∧ x.run.Yields l₁ (.ok a) ∧ (f a).run.Yields l₂ (.error e) := by
  rw [ExceptT.run_bind, yields_bind]
  constructor
  · rintro ⟨l₁, l₂, a | a, rfl, h₁, h₂⟩
    · obtain ⟨rfl, h⟩ := h₂
      cases h
      rw [List.append_nil]
      exact .inl h₁
    · exact .inr ⟨l₁, l₂, a, rfl, h₁, h₂⟩
  · rintro (h | ⟨l₁, l₂, a, rfl, h₁, h₂⟩)
    · exact ⟨l, [], .error e, (List.append_nil l).symm, h, rfl, rfl⟩
    · exact ⟨l₁, l₂, .ok a, rfl, h₁, h₂⟩

end Failing

end Program

end NodeFleet
