import NodeFleet.Proofs.Heeding

/-!
# NodeFleet.Proofs.Timing — a run with the times on its clock

A log says what was asked in which order; with the times on the clock it also says how long after
each other.  Where a log waits between two parts, the parts are as far apart in time, as long as the
clock does not go back and no wait ends early.

* `World.now`, `World.KeepsTime`: the clock of a world, and what is asked of it.
* `Timed`, `Program.timeline`: the log of a run with the times.
* `Log.waited`, `Log.Gap`: how long a log waits, and two parts of a log with a wait between them.
* `Spaced`, `spaced_of_gap`: what the wait is for the times.
-/

namespace NodeFleet

/-! ## Waits in a log -/

/-- How long an event waits at least: the length of a wait that comes to its end. -/
def Event.waited : Event → Nat
  | ⟨.sleep length, ended⟩ => bif ended then length.millis else 0
  | _ => 0

/-- How long a log waits at least. -/
def Log.waited (l : Log) : Nat := l.foldr (fun e rest => e.waited + rest) 0

/-- Between two parts of a log nothing but a wait of at least this length is asked for. -/
def Log.Gap (delay : Duration) (before after : Log) : Prop :=
  ∃ early wait₁ wait₂ late, before = early ++ wait₁ ∧ after = wait₂ ++ late ∧ wait₁.IsWait ∧
    wait₂.IsWait ∧ delay.millis ≤ wait₁.waited + wait₂.waited

section Waits

variable {l l₁ l₂ before after : Log} {delay : Duration}

@[simp] theorem waited_cons (e : Event) : Log.waited (e :: l) = e.waited + l.waited := rfl

@[simp] theorem waited_append : Log.waited (l₁ ++ l₂) = l₁.waited + l₂.waited := by
  induction l₁ with
  | nil => exact (Nat.zero_add _).symm
  | cons e l₁ ih => rw [List.cons_append, waited_cons, waited_cons, ih, Nat.add_assoc]

/-- A wait at the beginning of what comes after. -/
theorem gap_of_wait (hwait : l.IsWait) (hd : delay.millis ≤ l.waited) :
    Log.Gap delay before (l ++ after) :=
  ⟨before, [], l, after, (List.append_nil before).symm, rfl,
    fun _ h => absurd h List.not_mem_nil, hwait, by simpa [Log.waited] using hd⟩

theorem Log.Gap.append_left (h : Log.Gap delay before after) (l : Log) :
    Log.Gap delay (l ++ before) after := by
  obtain ⟨early, wait₁, wait₂, late, rfl, rfl, h₁, h₂, hd⟩ := h
  exact ⟨l ++ early, wait₁, wait₂, late, (List.append_assoc l early wait₁).symm, rfl, h₁, h₂, hd⟩

theorem Log.Gap.append_right (h : Log.Gap delay before after) (l : Log) :
    Log.Gap delay before (after ++ l) := by
  obtain ⟨early, wait₁, wait₂, late, rfl, rfl, h₁, h₂, hd⟩ := h
  exact ⟨early, wait₁, wait₂, late ++ l, rfl, List.append_assoc wait₂ late l, h₁, h₂, hd⟩

end Waits

/-! ## Times -/

section Clocks

variable {σ α : Type}

/-- The time that the clock shows. -/
def World.now (world : World σ) (s : σ) : Nat := (world .clock s).1.millis

/-- The clock of the world does not go back, and a wait that comes to its end has taken its time. -/
structure World.KeepsTime (world : World σ) : Prop where
  onward (r : Request) (s : σ) : world.now s ≤ world.now (world r s).2
  sleeps (length : Duration) (s : σ) (ended : (world (.sleep length) s).1 = true) :
    world.now s + length.millis ≤ world.now (world (.sleep length) s).2

/-- An event with the times at which it was asked and answered. -/
structure Timed where
  event : Event
  asked : Nat
  answered : Nat

/-- The log in a list of timed events. -/
abbrev events (t : List Timed) : Log := t.map Timed.event

/-- What a run asks, with the answers and the times on its clock. -/
def Program.timeline (world : World σ) : Program α → σ → List Timed
  | done _, _ => []
  | ask r next, s =>
    let answered := world r s
    ⟨⟨r, answered.1⟩, world.now s, world.now answered.2⟩ ::
      (next answered.1).timeline world answered.2

/-- All that is asked in the second part is asked so much later than everything in the first part
was answered. -/
def Spaced (delay : Duration) (early late : List Timed) : Prop :=
  ∀ x ∈ early, ∀ y ∈ late, x.event.request.IsPrompt → y.event.request.IsPrompt →
    x.answered + delay.millis ≤ y.asked

namespace Program

theorem events_timeline (world : World σ) (p : Program α) (s : σ) :
    events (p.timeline world s) = p.log world s := by
  induction p generalizing s with
  | done a => rfl
  | ask r next ih => exact congrArg (_ :: ·) (ih _ _)

variable {world : World σ} (hw : world.KeepsTime) {p : Program α} {s : σ}
  {before middle after : List Timed} {x y : Timed}
include hw

/-- A request takes as long as it waits. -/
theorem waited_le (r : Request) (s : σ) :
    world.now s + Event.waited ⟨r, (world r s).1⟩ ≤ world.now (world r s).2 := by
  cases r with
  | sleep length =>
    by_cases hended : (world (.sleep length) s).1 = true
    · simpa [Event.waited, hended] using hw.sleeps length s hended
    · simpa [Event.waited, hended] using hw.onward (.sleep length) s
  | _ => exact hw.onward _ s

/-- What is asked in a run is asked after all that the run has waited before. -/
theorem waited_le_asked (ht : p.timeline world s = before ++ x :: after) :
    world.now s + (events before).waited ≤ x.asked := by
  induction p generalizing s before with
  | done a => exact absurd ht.symm (by simp [timeline])
  | ask r next ih =>
    obtain ⟨rfl, hx⟩ | ⟨rest, rfl, hrest⟩ := List.cons_eq_append_iff.mp ht
    · obtain rfl := (List.cons.inj hx).1
      exact Nat.le_refl _
    · have hlater := ih _ hrest
      have hfirst := waited_le hw r s
      simp only [events, List.map_cons, waited_cons] at hlater ⊢
      omega

/-- What is asked in a run is asked later than an earlier answer by all that is waited between. -/
theorem waited_between (ht : p.timeline world s = before ++ x :: (middle ++ y :: after)) :
    x.answered + (events middle).waited ≤ y.asked := by
  induction p generalizing s before with
  | done a => exact absurd ht.symm (by simp [timeline])
  | ask r next ih =>
    obtain ⟨rfl, hx⟩ | ⟨rest, rfl, hrest⟩ := List.cons_eq_append_iff.mp ht
    · obtain ⟨rfl, hlater⟩ := List.cons.inj hx
      exact waited_le_asked hw hlater.symm
    · exact ih _ hrest

/-- Where a log waits between two parts, these are as far apart in time. -/
theorem spaced_of_gap {early late : List Timed} {delay : Duration}
    (ht : p.timeline world s = early ++ late) (h : Log.Gap delay (events early) (events late)) :
    Spaced delay early late := by
  obtain ⟨l₁, wait₁, wait₂, l₂, hearly, hlate, hwait₁, hwait₂, hd⟩ := h
  obtain ⟨t₁, u₁, rfl, rfl, rfl⟩ := List.map_eq_append_iff.mp hearly
  obtain ⟨u₂, t₂, rfl, rfl, rfl⟩ := List.map_eq_append_iff.mp hlate
  intro x hx y hy hxp hyp
  -- neither of the two is part of the wait
  have hx : x ∈ t₁ := (List.mem_append.mp hx).resolve_right fun h =>
    hwait₁ _ (List.mem_map_of_mem h) hxp
  have hy : y ∈ t₂ := (List.mem_append.mp hy).resolve_left fun h =>
    hwait₂ _ (List.mem_map_of_mem h) hyp
  obtain ⟨before, rest, rfl⟩ := List.append_of_mem hx
  obtain ⟨rest', after, rfl⟩ := List.append_of_mem hy
  have hsplit : p.timeline world s =
      before ++ x :: ((rest ++ u₁ ++ u₂ ++ rest') ++ y :: after) := by
    rw [ht]
    simp
  have hbetween := waited_between hw hsplit
  simp only [events, List.map_append, waited_append] at hbetween
  omega

theorem spaced_of_nil_or_gap {early late : List Timed} {delay : Duration}
    (ht : p.timeline world s = early ++ late)
    (h : events late = [] ∨ Log.Gap delay (events early) (events late)) :
    Spaced delay early late := by
  obtain hnil | hgap := h
  · rw [List.map_eq_nil_iff.mp hnil]
    exact fun _ _ _ h => absurd h List.not_mem_nil
  · exact spaced_of_gap hw ht hgap

end Program

end Clocks

end NodeFleet
