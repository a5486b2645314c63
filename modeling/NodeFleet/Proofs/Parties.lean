import NodeFleet.Proofs.Requests

/-!
# NodeFleet.Proofs.Parties — worlds whose hosts know only what they have been sent

Everything that a procedure asks is answered by somebody: by the host at some address, by the
operator's machine, or by the operator.  `Parties` are worlds in which each of them answers from
what it has been asked itself, so that no host sees what is done on another.

* `Parties.AgreeOff`: nobody but the hosts at one address behaves differently.  `Twins`: two such
  worlds, without a cancellation.
* `Program.Alike`: two programs, each in its own world, ask everybody else the same in the same
  order, and their results are related.
* `Program.Apart`: a program that, without a cancellation, concerns nobody else.
* `alike_bind`, `alike_same`, `alike_apart`: one part after another, a part that does not concern
  the address, and parts that concern nobody else.
-/

namespace NodeFleet

/-! ## Who answers -/

/-- Somebody who answers requests. -/
inductive Party where
  /-- The host at an address. -/
  | host (address : String)
  /-- The machine that the procedures run on. -/
  | desk
  /-- The operator, who may cancel. -/
  | operator
  deriving DecidableEq

/-- Who answers a request. -/
def Request.party : Request → Party
  | .connect host | .run host _ | .write host _ _ | .close host => .host host.address
  | .ping address => .host address
  | .clock | .launch _ _ | .load _ => .desk
  | .cancelled | .sleep _ => .operator

/-- The request concerns a host at another address, or the operator's machine. -/
def Request.Elsewhere (address : String) (r : Request) : Prop :=
  r.party ≠ .host address ∧ r.party ≠ .operator

instance (address : String) (r : Request) : Decidable (r.Elsewhere address) :=
  inferInstanceAs (Decidable (_ ∧ _))

/-- The request does not concern the hosts at an address. -/
def Request.Avoids (address : String) (r : Request) : Prop := r.party ≠ .host address

/-- The request concerns no other host than those at an address. -/
def Request.StaysAt (address : String) (r : Request) : Prop :=
  r.party = .host address ∨ r.party = .operator

theorem Request.StaysAt.not_elsewhere {address : String} {r : Request} (h : r.StaysAt address) :
    ¬ r.Elsewhere address := by
  rintro ⟨hhost, hoperator⟩
  exact h.elim hhost hoperator

theorem Request.StaysAt.avoids {address other : String} {r : Request} (h : r.StaysAt other)
    (hne : other ≠ address) : r.Avoids address := by
  intro hat
  rcases h with hother | hoperator
  · rw [hother] at hat
    cases hat
    exact hne rfl
  · rw [hoperator] at hat
    cases hat

/-- Commands and files on one host, and waits, concern that host only. -/
theorem Request.IsOn.staysAt {host : Host} {runs : Command → Prop}
    {writes : String → ByteArray → Prop} {r : Request} (h : r.IsOn host runs writes) :
    r.StaysAt host.address := by
  cases r with
  | run _ _ => exact .inl (by rw [← h.1]; rfl)
  | write _ _ _ => exact .inl (by rw [← h.1]; rfl)
  | cancelled => exact .inr rfl
  | sleep _ => exact .inr rfl
  | _ => exact absurd h id

section Sessions

variable {α : Type} {host : Host} {runs : Command → Prop} {writes : String → ByteArray → Prop}

/-- A session concerns its host only. -/
theorem withSession_staysAt {body : Program α}
    (h : Leaves (Only (Request.IsOn host runs writes)) body) :
    Leaves (Only (Request.StaysAt host.address)) (withSession host body) := by
  refine leaves_withSession (fun _ => ?_) ?_ ?_
  · exact only_singleton.mpr (.inl rfl)
  · exact leaves_mono (fun _ hl => hl.mono fun _ hr => hr.staysAt) h
  · exact only_singleton.mpr (.inl rfl)

theorem inSession_staysAt {step : Step α}
    (h : Leaves (Only (Request.IsOn host runs writes)) step) :
    Leaves (Only (Request.StaysAt host.address)) (inSession host step) :=
  leaves_bind (withSession_staysAt (leaves_run.mpr h)) fun result => leaves_ofExcept result

/-- What concerns a host at another address does not concern those at this one. -/
theorem leaves_avoids {m : Type → Type} [Monad m] [Logging m] {x : m α} {address other : String}
    (h : Leaves (Only (Request.StaysAt other)) x) (hne : other ≠ address) :
    Leaves (Only (Request.Avoids address)) x :=
  leaves_mono (fun _ hl => hl.mono fun _ hr => hr.avoids hne) h

end Sessions

/-- What everybody but the hosts at an address has been asked, in order. -/
def others (address : String) (sent : List Request) : List Request :=
  sent.filter fun r => r.Elsewhere address

section Others

variable {address : String} {sent sent₁ sent₂ : List Request}

theorem others_append : others address (sent₁ ++ sent₂) =
    others address sent₁ ++ others address sent₂ :=
  List.filter_append sent₁ sent₂

theorem others_eq_nil (h : ∀ r ∈ sent, r.StaysAt address) : others address sent = [] := by
  refine List.filter_eq_nil_iff.mpr fun r hr helse => ?_
  exact (h r hr).not_elsewhere (of_decide_eq_true helse)

/-- What one of the others has been asked can be told from what all of them have been asked. -/
theorem filter_party {p : Party} (hp : p ≠ .host address) (ho : p ≠ .operator) :
    sent.filter (·.party = p) = (others address sent).filter (·.party = p) := by
  unfold others
  rw [List.filter_filter]
  refine List.filter_congr fun r _ => ?_
  by_cases h : r.party = p
  · have helse : r.Elsewhere address := ⟨h ▸ hp, h ▸ ho⟩
    simp [h, helse]
  · simp [h]

end Others

/-! ## Worlds of parties -/

/-- How everybody answers: from what this party has been asked before, and what it is asked now. -/
abbrev Parties : Type := Party → List Request → (r : Request) → r.Answer

namespace Parties

variable {ps ps₁ ps₂ : Parties} {address : String}

/-- The world of the parties; its state is what has been asked so far. -/
def world (ps : Parties) : World (List Request) := fun r sent =>
  (ps r.party (sent.filter (·.party = r.party)) r, sent ++ [r])

/-- Nobody but the hosts at an address behaves differently. -/
def AgreeOff (ps₁ ps₂ : Parties) (address : String) : Prop :=
  ∀ p, p ≠ .host address → ps₁ p = ps₂ p

/-- The operator does not cancel, and lets every wait come to its end. -/
structure NeverCancels (ps : Parties) : Prop where
  cancelled (sent : List Request) : ps .operator sent .cancelled = false
  sleep (sent : List Request) (length : Duration) : ps .operator sent (.sleep length) = true

end Parties

/-- Two worlds that differ at most in the hosts at one address, and in which the operator never
cancels. -/
structure Twins where
  address : String
  first : Parties
  second : Parties
  agree : first.AgreeOff second address
  calm : first.NeverCancels

namespace Twins

variable (t : Twins)

theorem calm_second : t.second.NeverCancels := by
  have hoperator : t.first .operator = t.second .operator := t.agree _ Party.noConfusion
  constructor
  · intro sent
    rw [← hoperator]
    exact t.calm.cancelled sent
  · intro sent length
    rw [← hoperator]
    exact t.calm.sleep sent length

/-- Somebody else gives the same answer, if everybody else has been asked the same. -/
theorem answer_eq {r : Request} (hr : r.Avoids t.address) {s₁ s₂ : List Request}
    (hs : others t.address s₁ = others t.address s₂) :
    (t.first.world r s₁).1 = (t.second.world r s₂).1 := by
  by_cases ho : r.party = .operator
  · -- the operator may have been asked more in one run than in the other, but answers the same
    cases r with
    | cancelled => exact (t.calm.cancelled _).trans (t.calm_second.cancelled _).symm
    | sleep length => exact (t.calm.sleep _ length).trans (t.calm_second.sleep _ length).symm
    | _ => cases ho
  · show t.first r.party (s₁.filter (·.party = r.party)) r =
      t.second r.party (s₂.filter (·.party = r.party)) r
    rw [t.agree r.party hr, filter_party hr ho, hs, ← filter_party hr ho]

end Twins

/-! ## Runs without a cancellation -/

/-- The answer is not a cancellation. -/
def Event.IsCalm : Event → Prop
  | ⟨.cancelled, answer⟩ => answer = false
  | ⟨.sleep _, answer⟩ => answer = true
  | _ => True

/-- No answer is a cancellation. -/
def Calm (l : Log) : Prop := ∀ e ∈ l, e.IsCalm

theorem calm_append {l₁ l₂ : Log} : Calm (l₁ ++ l₂) ↔ Calm l₁ ∧ Calm l₂ :=
  List.forall_mem_append

/-- In the world nothing is ever cancelled. -/
structure World.NeverCancels {σ : Type} (world : World σ) : Prop where
  cancelled (s : σ) : (world .cancelled s).1 = false
  sleep (length : Duration) (s : σ) : (world (.sleep length) s).1 = true

theorem World.NeverCancels.calm {σ α : Type} {world : World σ} (h : world.NeverCancels)
    (p : Program α) (s : σ) : Calm (p.log world s) := by
  induction p generalizing s with
  | done a => exact fun _ he => absurd he List.not_mem_nil
  | ask r next ih =>
    refine List.forall_mem_cons.mpr ⟨?_, ih _ _⟩
    cases r with
    | cancelled => exact h.cancelled s
    | sleep length => exact h.sleep length s
    | _ => trivial

namespace Program

variable {α β γ δ : Type} {ps : Parties} {address : String}

theorem log_calm (hcalm : ps.NeverCancels) (p : Program α) (s : List Request) :
    Calm (p.log ps.world s) :=
  World.NeverCancels.calm ⟨fun _ => hcalm.cancelled _, fun length _ => hcalm.sleep _ length⟩ p s

/-- As long as the operator does not cancel, the program concerns no other hosts than those at the
address, and its result has a property. -/
def Apart (address : String) (Q : α → Prop) (p : Program α) : Prop :=
  ∀ l a, Calm l → p.Yields l a → Only (Request.StaysAt address) l ∧ Q a

theorem apart_pure {Q : α → Prop} {a : α} (h : Q a) : Apart address Q (pure a) := by
  rintro _ _ - ⟨rfl, rfl⟩
  exact ⟨Composes.nil, h⟩

theorem apart_bind {Q : α → Prop} {S : β → Prop} {p : Program α} {f : α → Program β}
    (hp : Apart address Q p) (hf : ∀ a, Q a → Apart address S (f a)) :
    Apart address S (p >>= f) := by
  intro l b hcalm h
  obtain ⟨l₁, l₂, a, rfl, h₁, h₂⟩ := yields_bind.mp h
  obtain ⟨hcalm₁, hcalm₂⟩ := calm_append.mp hcalm
  obtain ⟨hstays₁, ha⟩ := hp l₁ a hcalm₁ h₁
  obtain ⟨hstays₂, hb⟩ := hf a ha l₂ b hcalm₂ h₂
  exact ⟨Composes.append hstays₁ hstays₂, hb⟩

theorem apart_of_leaves {Q : α → Prop} {p : Program α}
    (h : Leaves (Only (Request.StaysAt address)) p)
    (hQ : ∀ l a, Calm l → p.Yields l a → Q a) : Apart address Q p :=
  fun l a hcalm hl => ⟨h l a hl, hQ l a hcalm hl⟩

/-! ## Two programs in two worlds -/

/-- What a run asks, in order. -/
def asked (p : Program α) (ps : Parties) : List Request :=
  (p.log ps.world []).map Event.request

/-- What has been asked after a run is what had been asked before it and what the run asks. -/
theorem run_state (p : Program α) (s : List Request) :
    (p.run ps.world s).2 = s ++ (p.log ps.world s).map Event.request := by
  induction p generalizing s with
  | done a => exact (List.append_nil s).symm
  | ask r next ih =>
    show ((next _).run ps.world (s ++ [r])).2 = s ++ r :: _
    rw [ih, List.append_assoc]
    rfl

/-- From states in which everybody but the hosts at the address has been asked the same, the two
programs come to such states again, and to results that are related. -/
def Alike (t : Twins) (R : α → β → Prop) (p₁ : Program α) (p₂ : Program β) : Prop :=
  ∀ s₁ s₂, others t.address s₁ = others t.address s₂ →
    others t.address (p₁.run t.first.world s₁).2 =
        others t.address (p₂.run t.second.world s₂).2 ∧
      R (p₁.run t.first.world s₁).1 (p₂.run t.second.world s₂).1

section Alike

variable {t : Twins} {R : α → β → Prop} {S : γ → δ → Prop} {p₁ : Program α} {p₂ : Program β}

theorem alike_pure {a : α} {b : β} (h : R a b) : Alike t R (pure a) (pure b) :=
  fun _ _ hs => ⟨hs, h⟩

theorem alike_mono {R' : α → β → Prop} (h : ∀ a b, R a b → R' a b) (hp : Alike t R p₁ p₂) :
    Alike t R' p₁ p₂ :=
  fun s₁ s₂ hs => (hp s₁ s₂ hs).imp_right (h _ _)

theorem alike_bind {f₁ : α → Program γ} {f₂ : β → Program δ} (hp : Alike t R p₁ p₂)
    (hf : ∀ a b, R a b → Alike t S (f₁ a) (f₂ b)) : Alike t S (p₁ >>= f₁) (p₂ >>= f₂) := by
  intro s₁ s₂ hs
  obtain ⟨hmid, hR⟩ := hp s₁ s₂ hs
  rw [bind_eq, bind_eq, run_andThen, run_andThen]
  exact hf _ _ hR _ _ hmid

/-- A program that does not concern the hosts at the address takes the same course in both
worlds. -/
theorem alike_same {p : Program α} (h : Leaves (Only (Request.Avoids t.address)) p) :
    Alike t Eq p p := by
  -- request by request: the same answer comes back, and what is asked next is the same
  induction p with
  | done a => exact fun _ _ hs => ⟨hs, rfl⟩
  | ask r next ih =>
    intro s₁ s₂ hs
    have hr : r.Avoids t.address :=
      h _ _ (yields_log t.first.world (ask r next) s₁) _ List.mem_cons_self
    have hanswer := t.answer_eq hr hs
    have hnext : Leaves (Only (Request.Avoids t.address)) (next (t.first.world r s₁).1) := by
      intro l a hl e he
      exact h (⟨r, _⟩ :: l) a ⟨_, l, rfl, hl⟩ e (List.mem_cons_of_mem _ he)
    have hsent : others t.address (s₁ ++ [r]) = others t.address (s₂ ++ [r]) := by
      rw [others_append, others_append, hs]
    have hrest := ih _ hnext _ _ hsent
    rw [hanswer] at hrest
    show others t.address ((next (t.first.world r s₁).1).run t.first.world (s₁ ++ [r])).2 =
        others t.address ((next (t.second.world r s₂).1).run t.second.world (s₂ ++ [r])).2 ∧
      ((next (t.first.world r s₁).1).run t.first.world (s₁ ++ [r])).1 =
        ((next (t.second.world r s₂).1).run t.second.world (s₂ ++ [r])).1
    rw [hanswer]
    exact hrest

/-- A run that concerns no other hosts than those at the address leaves no trace elsewhere. -/
theorem others_run {Q : α → Prop} {p : Program α} (h : Apart address Q p)
    (hcalm : ps.NeverCancels) (s : List Request) :
    others address (p.run ps.world s).2 = others address s := by
  have hnone : others address ((p.log ps.world s).map Event.request) = [] := by
    refine others_eq_nil fun r hr => ?_
    obtain ⟨e, he, rfl⟩ := List.mem_map.mp hr
    exact (h _ _ (log_calm hcalm p s) (yields_log ps.world p s)).1 e he
  rw [run_state, others_append, hnone, List.append_nil]

/-- Programs that concern no other hosts than those at the address are alike, whatever these hosts
do. -/
theorem alike_apart {Q₁ : α → Prop} {Q₂ : β → Prop} (h₁ : Apart t.address Q₁ p₁)
    (h₂ : Apart t.address Q₂ p₂) (hR : ∀ a b, Q₁ a → Q₂ b → R a b) : Alike t R p₁ p₂ := by
  intro s₁ s₂ hs
  have hfirst := h₁ _ _ (log_calm t.calm p₁ s₁) (yields_log t.first.world p₁ s₁)
  have hsecond := h₂ _ _ (log_calm t.calm_second p₂ s₂) (yields_log t.second.world p₂ s₂)
  refine ⟨?_, hR _ _ hfirst.2 hsecond.2⟩
  rw [others_run h₁ t.calm, others_run h₂ t.calm_second, hs]

/-- Two programs that are alike ask everybody else the same from the beginning. -/
theorem Alike.asked (h : Alike t R p₁ p₂) :
    others t.address (p₁.asked t.first) = others t.address (p₂.asked t.second) := by
  have hsent := (h [] [] rfl).1
  rw [run_state, run_state] at hsent
  exact hsent

end Alike

end Program

end NodeFleet
