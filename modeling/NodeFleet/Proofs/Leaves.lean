import NodeFleet.Proofs.Log

/-!
# NodeFleet.Proofs.Leaves — properties that every part of a log has

Many laws on logs hold of the empty log and of one log after another (`Composes`): that only certain
requests are made, that sessions do not overlap.  For such a property it is enough to look at the
single requests of a program, and `Leaves` carries it through sequences, branches and loops, in each
of the layers in which procedures are written.

* `Logging.Leaves`: whatever is answered, the log has the property.
* `leaves_bind`, `leaves_ite`, `leaves_forM`, `leaves_mapM`: the rules.
* `Only`: every request is of a certain kind.
-/

namespace NodeFleet

/-- A property of logs that holds of the empty log, and of one log after another. -/
class Composes (P : Log → Prop) : Prop where
  nil : P []
  append {l₁ l₂ : Log} (h₁ : P l₁) (h₂ : P l₂) : P (l₁ ++ l₂)

/-- A layer of programs, in which it can be said of a part that whatever is answered, its log has a
property. -/
class Logging (m : Type → Type) [Monad m] where
  Leaves {α : Type} (P : Log → Prop) (x : m α) : Prop
  leaves_mono {α : Type} {P Q : Log → Prop} {x : m α} (h : ∀ l, P l → Q l) (hx : Leaves P x) :
    Leaves Q x
  leaves_pure {α : Type} {P : Log → Prop} [Composes P] (a : α) : Leaves P (pure a)
  leaves_bind {α β : Type} {P : Log → Prop} [Composes P] {x : m α} {f : α → m β}
    (hx : Leaves P x) (hf : ∀ a, Leaves P (f a)) : Leaves P (x >>= f)

export Logging (Leaves leaves_mono leaves_pure leaves_bind)

instance : Logging Program where
  Leaves P p := ∀ l a, p.Yields l a → P l
  leaves_mono h hx := fun l a hl => h l (hx l a hl)
  leaves_pure a := by
    rintro l b ⟨rfl, -⟩
    exact Composes.nil
  leaves_bind hx hf := by
    intro l b h
    obtain ⟨l₁, l₂, a, rfl, h₁, h₂⟩ := Program.yields_bind.mp h
    exact Composes.append (hx l₁ a h₁) (hf a l₂ b h₂)

section Layers

variable {m : Type → Type} [Monad m] [Logging m] {α β ε σ : Type} {P : Log → Prop}

instance : Logging (ExceptT ε m) where
  Leaves P x := Leaves P x.run
  leaves_mono h hx := leaves_mono (m := m) h hx
  leaves_pure a := leaves_pure (m := m) (Except.ok a)
  leaves_bind hx hf := by
    refine leaves_bind (m := m) hx fun r => ?_
    cases r with
    | ok a => exact hf a
    | error e => exact leaves_pure (m := m) (Except.error e)

instance : Logging (StateT σ m) where
  Leaves P x := ∀ s, Leaves P (x.run s)
  leaves_mono h hx := fun s => leaves_mono (m := m) h (hx s)
  leaves_pure a := fun s => leaves_pure (m := m) (a, s)
  leaves_bind hx hf := fun s => leaves_bind (m := m) (hx s) fun r => hf r.1 r.2

theorem leaves_run {x : ExceptT ε m α} : Leaves P x.run ↔ Leaves P x := Iff.rfl

theorem leaves_ite {c : Prop} [Decidable c] {x y : m α} (hx : c → Leaves P x)
    (hy : ¬ c → Leaves P y) : Leaves P (if c then x else y) := by
  split
  · exact hx ‹_›
  · exact hy ‹_›

variable [Composes P]

theorem leaves_throw (e : ε) : Leaves P (throw e : ExceptT ε m α) :=
  leaves_pure (m := m) (Except.error e)

theorem leaves_modify (change : σ → σ) : Leaves P (modify change : StateT σ m PUnit) :=
  fun s => leaves_pure (m := m) (PUnit.unit, change s)

theorem leaves_get : Leaves P (get : StateT σ m σ) := fun s => leaves_pure (m := m) (s, s)

theorem leaves_set (s : σ) : Leaves P (set s : StateT σ m PUnit) :=
  fun _ => leaves_pure (m := m) (PUnit.unit, s)

theorem leaves_lift_state {x : m α} (hx : Leaves P x) :
    Leaves P (StateT.lift x : StateT σ m α) :=
  fun s => leaves_bind (m := m) hx fun a => leaves_pure (a, s)

theorem leaves_forM {xs : List α} {f : α → m PUnit} (hf : ∀ a ∈ xs, Leaves P (f a)) :
    Leaves P (xs.forM f) := by
  induction xs with
  | nil => exact leaves_pure _
  | cons a xs ih =>
    refine leaves_bind (hf a List.mem_cons_self) fun _ => ?_
    exact ih fun b hb => hf b (List.mem_cons_of_mem _ hb)

section Lawful

variable [LawfulMonad m]

theorem leaves_map (f : α → β) {x : m α} (hx : Leaves P x) : Leaves P (f <$> x) := by
  rw [map_eq_pure_bind]
  exact leaves_bind hx fun a => leaves_pure (f a)

theorem leaves_lift_except {x : m α} (hx : Leaves P x) :
    Leaves P (ExceptT.lift x : ExceptT ε m α) :=
  leaves_map (m := m) Except.ok hx

theorem leaves_mapM {xs : List α} {f : α → m β} (hf : ∀ a ∈ xs, Leaves P (f a)) :
    Leaves P (xs.mapM f) := by
  induction xs with
  | nil =>
    rw [List.mapM_nil]
    exact leaves_pure _
  | cons a xs ih =>
    rw [List.mapM_cons]
    refine leaves_bind (hf a List.mem_cons_self) fun _ => ?_
    refine leaves_bind (ih fun b hb => hf b (List.mem_cons_of_mem _ hb)) fun _ => ?_
    exact leaves_pure _

end Lawful

end Layers

/-! ## Single requests -/

/-- Every request is of a certain kind. -/
def Only (ok : Request → Prop) (l : Log) : Prop := ∀ e ∈ l, ok e.request

instance (ok : Request → Prop) : Composes (Only ok) where
  nil := fun _ h => absurd h List.not_mem_nil
  append h₁ h₂ := fun e h => (List.mem_append.mp h).elim (h₁ e) (h₂ e)

theorem Only.mono {ok ok' : Request → Prop} {l : Log} (h : Only ok l) (hok : ∀ r, ok r → ok' r) :
    Only ok' l := fun e he => hok _ (h e he)

/-- Where a log starts with events of one kind, an event of another kind comes after them. -/
theorem prefix_before_of_forall {p : Event → Prop} {l₁ l₂ before after : Log} {e : Event}
    (h : ∀ e ∈ l₁, p e) (he : ¬ p e) (hl : l₁ ++ l₂ = before ++ e :: after) : l₁ <+: before := by
  obtain ⟨mid, rfl, -⟩ | ⟨rest, rfl, -⟩ := split_append hl
  · exact List.prefix_append l₁ mid
  · exact absurd (h e (by simp)) he

/-- The same for kinds of requests. -/
theorem Only.prefix_before {ok : Request → Prop} {l₁ l₂ before after : Log} {e : Event}
    (h : Only ok l₁) (he : ¬ ok e.request) (hl : l₁ ++ l₂ = before ++ e :: after) :
    l₁ <+: before := prefix_before_of_forall h he hl

theorem only_singleton {ok : Request → Prop} {e : Event} : Only ok [e] ↔ ok e.request := by
  simp [Only]

theorem leaves_request {P : Log → Prop} {r : Request} (h : ∀ answer, P [⟨r, answer⟩]) :
    Leaves P (Program.request r) := by
  intro l a hl
  obtain rfl := Program.yields_request.mp hl
  exact h a

end NodeFleet
