import NodeFleet.Proofs.Delays

/-!
# NodeFleet.Proofs.Costs — how many sessions are tried, and how many requests are made

The cost of a log is the number of connections that are tried in it, and the number of its requests.
Parts one after the other cost what they cost together, whatever is answered, so that a bound for
each part gives one for the whole.

* `Costs`: a bound on both.
* `Sequencing`: layers in which the log of one part after another is the one log after the other.
* `costs_bind`, `costs_then`, `costs_free_bind`, `costs_forM`, `costs_inSession`, ...: the rules.
* `expect_costs`, `settle_costs`, `stopHost_costs`, ...: the steps on a host.
-/

namespace NodeFleet

/-- At most `c` connections are tried, and at most `n` requests are made. -/
structure Costs (c n : Nat) (l : Log) : Prop where
  connections : l.connections.length ≤ c
  requests : l.length ≤ n

theorem length_cons_mul {α : Type} (a : α) (xs : List α) (k : Nat) :
    (a :: xs).length * k = k + xs.length * k := by
  rw [List.length_cons, Nat.succ_mul, Nat.add_comm]

namespace Costs

variable {c c' n n' : Nat} {l l₁ l₂ : Log} {host : Host}

theorem nil : Costs c n [] := ⟨Nat.zero_le c, Nat.zero_le n⟩

theorem mono (h : Costs c n l) (hc : c ≤ c') (hn : n ≤ n') : Costs c' n' l :=
  ⟨Nat.le_trans h.connections hc, Nat.le_trans h.requests hn⟩

theorem append (h₁ : Costs c n l₁) (h₂ : Costs c' n' l₂) : Costs (c + c') (n + n') (l₁ ++ l₂) where
  connections := by
    rw [connections_append, List.length_append]
    exact Nat.add_le_add h₁.connections h₂.connections
  requests := by
    rw [List.length_append]
    exact Nat.add_le_add h₁.requests h₂.requests

theorem session (h : Costs c n l) : Costs (c + 1) (n + 2) (Log.session host l) := by
  have hopen : Costs 1 1 [⟨.connect host, .ok ()⟩] := ⟨Nat.le_refl 1, Nat.le_refl 1⟩
  have hclose : Costs 0 1 [⟨.close host, ()⟩] := ⟨Nat.le_refl 0, Nat.le_refl 1⟩
  exact (hopen.append (h.append hclose)).mono (by omega) (by omega)

theorem refused {cause : RemoteError} : Costs (c + 1) (n + 2) (Log.refused host cause) :=
  ⟨Nat.le_add_left 1 c, Nat.le_add_left 1 (n + 1)⟩

/-- Logs that are bounded alike cost as many times the bound as there are of them. -/
theorem flatten {logs : List Log} (h : ∀ l ∈ logs, Costs c n l) :
    Costs (logs.length * c) (logs.length * n) logs.flatten := by
  induction logs with
  | nil => exact nil
  | cons l rest ih =>
    obtain ⟨hone, hrest⟩ := List.forall_mem_cons.mp h
    rw [length_cons_mul, length_cons_mul]
    exact hone.append (ih hrest)

/-- Asking without a connection costs requests only. -/
theorem of_only (h : Only (fun r => ¬ r.Connects) l) (hn : l.length ≤ n) : Costs 0 n l := by
  refine ⟨?_, hn⟩
  have hnone : Log.connections l = [] := by
    refine List.filterMap_eq_nil_iff.mpr fun e he => ?_
    have hconnects := h e he
    cases hr : e.request with
    | connect host => exact absurd ⟨host, hr⟩ hconnects
    | _ => rfl
  rw [hnone]
  exact Nat.le_refl 0

end Costs

instance : Composes (Costs 0 0) where
  nil := Costs.nil
  append h₁ h₂ := h₁.append h₂

/-! ## Parts one after the other -/

/-- A layer in which the log of one part after another is the one log after the other. -/
class Sequencing (m : Type → Type) [Monad m] extends Logging m where
  leaves_end {α : Type} {P : Log → Prop} (h : P []) (a : α) : Leaves P (pure a)
  leaves_seq {α β : Type} {P Q R : Log → Prop} {x : m α} {f : α → m β} (hnil : Q [])
    (happend : ∀ l₁ l₂, P l₁ → Q l₂ → R (l₁ ++ l₂)) (hx : Leaves P x) (hf : ∀ a, Leaves Q (f a)) :
    Leaves R (x >>= f)

export Sequencing (leaves_end leaves_seq)

instance : Sequencing Program where
  leaves_end h a := by
    rintro l b ⟨rfl, -⟩
    exact h
  leaves_seq _ happend hx hf := by
    intro l b h
    obtain ⟨l₁, l₂, a, rfl, h₁, h₂⟩ := Program.yields_bind.mp h
    exact happend l₁ l₂ (hx l₁ a h₁) (hf a l₂ b h₂)

section Layers

variable {m : Type → Type} [Monad m] [Sequencing m] {α β ε σ : Type} {c c' n n' : Nat}
  {P : Log → Prop}

instance : Sequencing (ExceptT ε m) where
  leaves_end h a := leaves_end (m := m) h (Except.ok a)
  leaves_seq hnil happend hx hf := by
    refine leaves_seq (m := m) hnil happend hx fun r => ?_
    cases r with
    | ok a => exact hf a
    | error e => exact leaves_end (m := m) hnil (Except.error e)

instance : Sequencing (StateT σ m) where
  leaves_end h a := fun s => leaves_end (m := m) h (a, s)
  leaves_seq hnil happend hx hf := fun s =>
    leaves_seq (m := m) hnil happend (hx s) fun r => hf r.1 r.2

theorem costs_bind {x : m α} {f : α → m β} (hx : Leaves (Costs c n) x)
    (hf : ∀ a, Leaves (Costs c' n') (f a)) : Leaves (Costs (c + c') (n + n')) (x >>= f) :=
  leaves_seq Costs.nil (fun _ _ => Costs.append) hx hf

/-- What comes after a part that asks nothing makes all the requests. -/
theorem costs_free_bind {x : m α} {f : α → m β} (hx : Leaves (Costs 0 0) x)
    (hf : ∀ a, Leaves (Costs c n) (f a)) : Leaves (Costs c n) (x >>= f) := by
  rw [← Nat.zero_add c, ← Nat.zero_add n]
  exact costs_bind hx hf

/-- What comes before a part that asks nothing makes all the requests. -/
theorem costs_then {x : m α} {f : α → m β} (hx : Leaves (Costs c n) x)
    (hf : ∀ a, Leaves (Costs 0 0) (f a)) : Leaves (Costs c n) (x >>= f) := costs_bind hx hf

theorem costs_mono {x : m α} (h : Leaves (Costs c n) x) (hc : c ≤ c') (hn : n ≤ n') :
    Leaves (Costs c' n') x := leaves_mono (fun _ hl => hl.mono hc hn) h

theorem costs_forM {xs : List α} {f : α → m PUnit} (h : ∀ a, Leaves (Costs c n) (f a)) :
    Leaves (Costs (xs.length * c) (xs.length * n)) (xs.forM f) := by
  induction xs with
  | nil => exact leaves_end Costs.nil _
  | cons a xs ih =>
    rw [length_cons_mul, length_cons_mul]
    exact costs_bind (h a) fun _ => ih

section Lawful

variable [LawfulMonad m]

theorem costs_map (f : α → β) {x : m α} (h : Leaves (Costs c n) x) :
    Leaves (Costs c n) (f <$> x) := by
  rw [map_eq_pure_bind]
  exact costs_then h fun a => leaves_pure (f a)

theorem costs_lift_except {x : m α} (h : Leaves (Costs c n) x) :
    Leaves (Costs c n) (ExceptT.lift x : ExceptT ε m α) := costs_map (m := m) Except.ok h

theorem costs_mapM {xs : List α} {f : α → m β} (h : ∀ a, Leaves (Costs c n) (f a)) :
    Leaves (Costs (xs.length * c) (xs.length * n)) (xs.mapM f) := by
  induction xs with
  | nil =>
    rw [List.mapM_nil]
    exact leaves_end Costs.nil _
  | cons a xs ih =>
    rw [List.mapM_cons, length_cons_mul, length_cons_mul]
    exact costs_bind (h a) fun b => costs_then ih fun bs => leaves_pure _

end Lawful

theorem costs_lift_state {x : m α} (h : Leaves (Costs c n) x) :
    Leaves (Costs c n) (StateT.lift x : StateT σ m α) :=
  fun s => costs_then (m := m) h fun a => leaves_pure (a, s)

end Layers

/-! ## Steps -/

section Steps

variable {α : Type} {c n : Nat} {host : Host} {command : Command}

theorem costs_caught {step : Step α} (h : Leaves (Costs c n) step) :
    Leaves (Costs c n) step.caught := costs_lift_except (leaves_run.mpr h)

theorem exchange_costs : Leaves (Costs 0 1) (exchange host command) := by
  intro l r h
  obtain ⟨answer, rfl, -⟩ := yields_exchange.mp h
  exact ⟨Nat.le_refl 0, Nat.le_refl 1⟩

theorem expect_costs {kind : ReplyKind} : Leaves (Costs 0 1) (expect host command kind) := by
  refine costs_then exchange_costs fun reply => ?_
  dsimp only
  split
  · exact leaves_throw _
  · exact leaves_pure _

theorem expectToken_costs : Leaves (Costs 0 1) (expectToken host command) := by
  refine costs_then exchange_costs fun reply => ?_
  split
  · exact leaves_pure _
  · exact leaves_throw _

theorem writeFile_costs {path : String} {contents : ByteArray} :
    Leaves (Costs 0 1) (writeFile host path contents) := by
  intro l r h
  obtain ⟨answer, rfl, -⟩ := yields_writeFile.mp h
  exact ⟨Nat.le_refl 0, Nat.le_refl 1⟩

theorem writeConfigFile_costs {daemon : Daemon} {path contents : String} :
    Leaves (Costs 0 2) (writeConfigFile host daemon path contents) :=
  costs_bind exchange_costs fun _ => writeFile_costs

theorem settle_costs {delay : Duration} : Leaves (Costs 0 2) (settle delay) := by
  intro l r h
  obtain ⟨rfl, -⟩ | ⟨rfl, -, -⟩ | ⟨ended, rfl, -, -⟩ := settle_cases h
  · exact ⟨Nat.le_refl 0, by decide⟩
  · exact ⟨Nat.le_refl 0, by decide⟩
  · exact ⟨Nat.le_refl 0, Nat.le_refl 2⟩

/-- A session costs a connection more than what is done in it. -/
theorem costs_withSession {body : Program α} (h : Leaves (Costs c n) body) :
    Leaves (Costs (c + 1) (n + 2)) (withSession host body) := by
  intro l r hl
  obtain ⟨cause, rfl, -⟩ | ⟨inner, a, rfl, hinner, -⟩ := yields_withSession.mp hl
  · exact Costs.refused
  · exact (h inner a hinner).session

theorem costs_inSession {step : Step α} (h : Leaves (Costs c n) step) :
    Leaves (Costs (c + 1) (n + 2)) (inSession host step) :=
  costs_then (costs_withSession (leaves_run.mpr h)) fun result => leaves_ofExcept result

theorem query_costs {kind : ReplyKind} : Leaves (Costs 1 3) (query host command kind) :=
  costs_inSession expect_costs

theorem queryToken_costs : Leaves (Costs 1 3) (queryToken host command) :=
  costs_inSession expectToken_costs

end Steps

/-! ## The parts of a procedure -/

/-- Visits cost what each of them costs. -/
theorem Visits.costs {α : Type} {c n : Nat} {step : Host → Step α}
    {visits : List (Host × Except FleetError α)} {l : Log} (h : Visits step visits l)
    (hstep : ∀ host, Leaves (Costs c n) (step host)) :
    Costs (visits.length * c) (visits.length * n) l := by
  induction h with
  | nil => exact Costs.nil
  | cons hv _ ih =>
    rw [length_cons_mul, length_cons_mul]
    exact (hstep _ _ _ hv).append ih

namespace Conduct

variable {α : Type} {c n : Nat}

theorem costs_attempt {step : Step α} (h : Leaves (Costs c n) step) :
    Leaves (Costs c n) (attempt step) := costs_lift_state (costs_lift_except h)

theorem costs_need {stage : String} {step : Step α} (h : Leaves (Costs c n) step) :
    Leaves (Costs c n) (need stage step) := by
  refine costs_then (costs_attempt h) fun result => ?_
  cases result with
  | ok a => exact leaves_pure a
  | error e => exact leaves_abort stage e

theorem costs_eachHost {stage : String} {hosts : List Host} {step : Host → Step α}
    {detail : α → Option String} (h : ∀ host, Leaves (Costs c n) (step host)) :
    Leaves (Costs (hosts.length * c) (hosts.length * n)) (eachHost stage hosts step detail) := by
  refine costs_forM fun host => costs_then (costs_attempt (h host)) fun result => ?_
  refine leaves_ite (fun _ => leaves_bind (leaves_abort _ _) fun _ => ?_) fun _ => ?_
  all_goals exact leaves_settled _ _ _ _

theorem costs_inSession {stage : String} {host : Host} {body : Conduct α}
    (h : Leaves (Costs c n) body) :
    Leaves (Costs (c + 1) (n + 2)) (inSession stage host body) := by
  intro before l r hl
  obtain ⟨cause, rfl, -⟩ | ⟨inner, rfl, hinner⟩ := inSession_ends hl
  · exact Costs.refused
  · exact (h before inner r hinner).session

/-- What a part costs may depend on how the part before it ended. -/
theorem costs_bind_ends {β : Type} {c' n' : Nat} {x : Conduct α} {f : α → Conduct β}
    (hx : Leaves (Costs c n) x)
    (hf : ∀ before l a mid, x.Ends before l (.ok (a, mid)) → Leaves (Costs c' n') (f a)) :
    Leaves (Costs (c + c') (n + n')) (x >>= f) := by
  intro before l r h
  obtain ⟨last, rfl, hfirst⟩ | ⟨l₁, l₂, a, mid, rfl, hfirst, hrest⟩ := ends_bind_cases h
  · exact (hx before l _ hfirst).mono (Nat.le_add_right c c') (Nat.le_add_right n n')
  · exact (hx before l₁ _ hfirst).append (hf before l₁ a mid hfirst mid l₂ r hrest)

theorem costs_conclude {procedure : Procedure} {x : Conduct Unit} (h : Leaves (Costs c n) x) :
    Leaves (Costs c n) (conclude procedure x) := by
  intro l report hl
  obtain ⟨r, hends, -⟩ := conclude_ends hl
  exact h _ l r hends

end Conduct

/-! ## The steps on a host -/

namespace Fleet

variable (fleet : Fleet) (host : Host)

theorem stopDaemon_costs : Leaves (Costs 0 1) (fleet.stopDaemon host) := by
  refine costs_then (costs_caught expect_costs) fun result => ?_
  cases result with
  | ok _ => exact leaves_pure _
  | error e =>
    dsimp only
    split
    · exact leaves_ite (fun _ => leaves_pure _) fun _ => leaves_throw _
    · exact leaves_throw _

theorem stopHost_costs : Leaves (Costs 1 5) (fleet.stopHost host) := by
  have hwait (stopped : Stopped) : Leaves (Costs 0 2) (do
      if stopped = .now then fleet.stopWait
      pure stopped : Step Stopped) :=
    leaves_ite (fun _ => costs_then settle_costs fun _ => leaves_pure _) fun _ =>
      leaves_end Costs.nil _
  exact costs_inSession (costs_bind (fleet.stopDaemon_costs host) hwait)

theorem startDaemon_costs : Leaves (Costs 0 3) (fleet.startDaemon host) :=
  costs_bind expect_costs fun _ => settle_costs

theorem startAgain_costs : Leaves (Costs 1 5) (fleet.startAgain host) :=
  costs_inSession (fleet.startDaemon_costs host)

theorem wipe_costs : Leaves (Costs 0 1) (fleet.wipe host) :=
  costs_then expect_costs fun _ => leaves_pure _

end Fleet

end NodeFleet
