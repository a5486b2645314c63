import NodeFleet.Proofs.Conducting
import NodeFleet.Proofs.Uncancelled

/-!
# NodeFleet.Proofs.Aligned — two runs of a procedure, side by side

In two worlds that differ at most in the hosts at one address, the parts of a procedure that concern
other hosts take the same course, and the parts that concern these hosts leave no trace outside of
their own entries.  So the two runs can be followed side by side, even where one of them does more
at the address than the other.

* `Report.others`: the results and the snapshots of all other hosts.
* `Conduct.Silent`: a part of a procedure that concerns the address only, and goes on.
* `Conduct.Alike`: two parts, each in its own world, that have everything else in common.
* `alike_bind`, `alike_left`, `alike_right`: one part after another, in both runs or in one.
* `alike_forM`, `alike_eachHost`: loops over lists that have the same other hosts.
* `alike_conclude`: whole procedures.
-/

namespace NodeFleet

/-! ## What is entered for the other hosts -/

namespace Report

/-- The results and the snapshots of the hosts at other addresses, in order. -/
def others (address : String) (r : Report) : List HostOutcome × List Snapshot :=
  (r.hosts.filter fun h => h.address ≠ address, r.snapshots.filter fun s => s.address ≠ address)

variable {α : Type} {address : String} {r r₁ r₂ : Report} {host : Host}

@[simp] theorem others_stageResult {stage : String} {host? : Option Host}
    {detail : α → Option String} {result : Except FleetError α} :
    (r.stageResult stage host? detail result).others address = r.others address := by
  cases result with
  | ok a => rfl
  | error e => rfl

theorem outcomeOf_address {name : String} {result : Except FleetError α} :
    (outcomeOf name address result).address = address := by
  cases result with
  | ok a => rfl
  | error e => rfl

theorem others_hostResult_at (h : host.address = address) (result : Except FleetError α) :
    (r.hostResult host result).others address = r.others address := by
  have hat : (outcomeOf host.name host.address result).address = address :=
    outcomeOf_address.trans h
  simp [others, hostResult, targetResult, hat]

theorem others_addSnapshot_at {s : Snapshot} (h : s.address = address) :
    (r.addSnapshot s).others address = r.others address := by
  simp [others, addSnapshot, h]

theorem others_hostResult_congr (h : r₁.others address = r₂.others address)
    (result : Except FleetError α) :
    (r₁.hostResult host result).others address = (r₂.hostResult host result).others address := by
  obtain ⟨hhosts, hsnapshots⟩ := Prod.mk.inj h
  simp only [others, hostResult, targetResult, List.filter_append, hhosts, hsnapshots]

theorem others_addSnapshot_congr (h : r₁.others address = r₂.others address) (s : Snapshot) :
    (r₁.addSnapshot s).others address = (r₂.addSnapshot s).others address := by
  obtain ⟨hhosts, hsnapshots⟩ := Prod.mk.inj h
  simp only [others, addSnapshot, List.filter_append, hhosts, hsnapshots]

end Report

/-- Lists that have the same hosts at other addresses, in the same order. -/
inductive SameElsewhere (address : String) : List Host → List Host → Prop
  | nil : SameElsewhere address [] []
  | both {host : Host} {hosts₁ hosts₂ : List Host} (h : SameElsewhere address hosts₁ hosts₂) :
    SameElsewhere address (host :: hosts₁) (host :: hosts₂)
  | left {host : Host} {hosts₁ hosts₂ : List Host} (hat : host.address = address)
    (h : SameElsewhere address hosts₁ hosts₂) : SameElsewhere address (host :: hosts₁) hosts₂
  | right {host : Host} {hosts₁ hosts₂ : List Host} (hat : host.address = address)
    (h : SameElsewhere address hosts₁ hosts₂) : SameElsewhere address hosts₁ (host :: hosts₂)

namespace SameElsewhere

variable {address : String} {hosts₁ hosts₂ : List Host}

theorem refl (hosts : List Host) : SameElsewhere address hosts hosts := by
  induction hosts with
  | nil => exact .nil
  | cons host rest ih => exact .both ih

/-- Lists of hosts at the address have no others. -/
theorem of_at (h₁ : ∀ host ∈ hosts₁, host.address = address)
    (h₂ : ∀ host ∈ hosts₂, host.address = address) : SameElsewhere address hosts₁ hosts₂ := by
  induction hosts₁ with
  | cons host rest ih =>
    obtain ⟨hat, hrest⟩ := List.forall_mem_cons.mp h₁
    exact .left hat (ih hrest)
  | nil =>
    induction hosts₂ with
    | nil => exact .nil
    | cons host rest ih =>
      obtain ⟨hat, hrest⟩ := List.forall_mem_cons.mp h₂
      exact .right hat (ih hrest)

theorem append {rest₁ rest₂ : List Host} (h : SameElsewhere address hosts₁ hosts₂)
    (hrest : SameElsewhere address rest₁ rest₂) :
    SameElsewhere address (hosts₁ ++ rest₁) (hosts₂ ++ rest₂) := by
  induction h with
  | nil => exact hrest
  | both _ ih => exact .both ih
  | left hat _ ih => exact .left hat ih
  | right hat _ ih => exact .right hat ih

end SameElsewhere

namespace Conduct

variable {α β γ δ : Type} {address : String}

/-! ## Parts that concern the address only -/

/-- As long as the operator does not cancel, the part concerns no other hosts than those at the
address, enters nothing for the others, and goes on with a result that has a property. -/
def Silent (address : String) (Q : α → Prop) (x : Conduct α) : Prop :=
  ∀ before, Program.Apart address
    (fun r => ∃ a after, r = .ok (a, after) ∧ Q a ∧
      after.others address = before.others address)
    (x.run before).run

theorem silent_pure {Q : α → Prop} {a : α} (h : Q a) : Silent address Q (pure a) :=
  fun before => Program.apart_pure ⟨a, before, rfl, h, rfl⟩

theorem silent_bind {Q : α → Prop} {S : β → Prop} {x : Conduct α} {f : α → Conduct β}
    (hx : Silent address Q x) (hf : ∀ a, Q a → Silent address S (f a)) :
    Silent address S (x >>= f) := by
  intro before
  rw [StateT.run_bind, ExceptT.run_bind]
  refine Program.apart_bind (hx before) ?_
  rintro _ ⟨a, mid, rfl, ha, hmid⟩
  have hrest := hf a ha mid
  rw [hmid] at hrest
  exact hrest

theorem silent_enter {change : Report → Report}
    (h : ∀ r, (change r).others address = r.others address) :
    Silent address (fun _ => True) (enter change) :=
  fun before => Program.apart_pure ⟨(), change before, rfl, trivial, h before⟩

theorem silent_lift {Q : α → Prop} {p : Program α} (h : Program.Apart address Q p) :
    Silent address Q (liftM p) := by
  intro before
  rw [run_lift]
  exact Program.apart_bind h fun a ha => Program.apart_pure ⟨a, before, rfl, ha, rfl⟩

theorem silent_attempt {step : Step α} (hstays : Leaves (Only (Request.StaysAt address)) step)
    (h : Uncancelled step) :
    Silent address (fun result => wasCancelled result = false) (attempt step) := by
  refine silent_lift (Program.apart_of_leaves hstays fun l result hcalm hl => ?_)
  unfold wasCancelled
  split
  · exact absurd hl (h l hcalm)
  · rfl

theorem silent_wait {stage : String} {delay : Duration} :
    Silent address (fun _ => True) (need stage (settle delay)) := by
  have hstays : Leaves (Only (Request.StaysAt address)) (settle delay) :=
    settle_only (.inr rfl) (.inr rfl)
  have hends : Program.Apart address (fun r => r = .ok ()) (settle delay).run :=
    Program.apart_of_leaves hstays fun _ _ hcalm hl => settle_calm hcalm hl
  refine silent_bind (silent_lift hends) ?_
  rintro _ rfl
  exact silent_pure trivial

/-! ## Parts in two runs -/

/-- How parts of procedures end alike: both go on or both stop, with the same entries for the other
hosts. -/
inductive EndAlike (address : String) (R : α → β → Prop) :
    Except Report (α × Report) → Except Report (β × Report) → Prop
  | goesOn {a : α} {b : β} {r₁ r₂ : Report} (hr : r₁.others address = r₂.others address)
    (h : R a b) : EndAlike address R (.ok (a, r₁)) (.ok (b, r₂))
  | stops {r₁ r₂ : Report} (hr : r₁.others address = r₂.others address) :
    EndAlike address R (.error r₁) (.error r₂)

/-- From two reports, the parts ask everybody but the hosts at the address the same, and end
alike. -/
def Alike (t : Twins) (R : α → β → Prop) (r₁ : Report) (x₁ : Conduct α) (r₂ : Report)
    (x₂ : Conduct β) : Prop :=
  Program.Alike t (EndAlike t.address R) (x₁.run r₁).run (x₂.run r₂).run

variable {t : Twins} {R : α → β → Prop} {S : γ → δ → Prop} {r₁ r₂ : Report}
  {x₁ : Conduct α} {x₂ : Conduct β}

theorem alike_pure {a : α} {b : β} (hr : r₁.others t.address = r₂.others t.address) (h : R a b) :
    Alike t R r₁ (pure a) r₂ (pure b) :=
  Program.alike_pure (.goesOn hr h)

theorem alike_ite {c : Prop} [Decidable c] {y₁ : Conduct α} {y₂ : Conduct β}
    (hx : c → Alike t R r₁ x₁ r₂ x₂) (hy : ¬ c → Alike t R r₁ y₁ r₂ y₂) :
    Alike t R r₁ (if c then x₁ else y₁) r₂ (if c then x₂ else y₂) := by
  by_cases hc : c
  · rw [if_pos hc, if_pos hc]
    exact hx hc
  · rw [if_neg hc, if_neg hc]
    exact hy hc

theorem alike_bind {f₁ : α → Conduct γ} {f₂ : β → Conduct δ} (hx : Alike t R r₁ x₁ r₂ x₂)
    (hf : ∀ a b r₁ r₂, r₁.others t.address = r₂.others t.address → R a b →
      Alike t S r₁ (f₁ a) r₂ (f₂ b)) :
    Alike t S r₁ (x₁ >>= f₁) r₂ (x₂ >>= f₂) := by
  unfold Alike
  rw [StateT.run_bind, StateT.run_bind, ExceptT.run_bind, ExceptT.run_bind]
  refine Program.alike_bind hx fun e₁ e₂ he => ?_
  cases he with
  | goesOn hr h => exact hf _ _ _ _ hr h
  | stops hr => exact Program.alike_pure (.stops hr)

/-- Two parts that concern the address only are alike, whatever the hosts there do. -/
theorem alike_silent {Q₁ : α → Prop} {Q₂ : β → Prop} (h₁ : Silent t.address Q₁ x₁)
    (h₂ : Silent t.address Q₂ x₂) (hR : ∀ a b, Q₁ a → Q₂ b → R a b)
    (hr : r₁.others t.address = r₂.others t.address) : Alike t R r₁ x₁ r₂ x₂ := by
  refine Program.alike_apart (h₁ r₁) (h₂ r₂) ?_
  rintro _ _ ⟨a, after₁, rfl, ha, hafter₁⟩ ⟨b, after₂, rfl, hb, hafter₂⟩
  exact .goesOn (hafter₁.trans (hr.trans hafter₂.symm)) (hR a b ha hb)

/-- One run may do something at the address first. -/
theorem alike_left {Q : α → Prop} {f : α → Conduct γ} {y : Conduct δ}
    (hx : Silent t.address Q x₁) (hr : r₁.others t.address = r₂.others t.address)
    (h : ∀ a r₁ r₂, r₁.others t.address = r₂.others t.address → Q a → Alike t S r₁ (f a) r₂ y) :
    Alike t S r₁ (x₁ >>= f) r₂ y := by
  have hnothing : Silent t.address (fun _ => True) (pure ()) := silent_pure trivial
  rw [← pure_bind () fun _ => y]
  refine alike_bind (R := fun a _ => Q a) (alike_silent hx hnothing (fun _ _ ha _ => ha) hr) ?_
  exact fun a _ r₁ r₂ hr ha => h a r₁ r₂ hr ha

/-- The other run may do something at the address first. -/
theorem alike_right {Q : β → Prop} {y : Conduct γ} {f : β → Conduct δ}
    (hx : Silent t.address Q x₂) (hr : r₁.others t.address = r₂.others t.address)
    (h : ∀ b r₁ r₂, r₁.others t.address = r₂.others t.address → Q b → Alike t S r₁ y r₂ (f b)) :
    Alike t S r₁ y r₂ (x₂ >>= f) := by
  have hnothing : Silent t.address (fun _ => True) (pure ()) := silent_pure trivial
  rw [← pure_bind () fun _ => y]
  refine alike_bind (R := fun _ b => Q b) (alike_silent hnothing hx (fun _ _ _ hb => hb) hr) ?_
  exact fun _ b r₁ r₂ hr hb => h b r₁ r₂ hr hb

/-! ### Parts that do not concern the address -/

theorem alike_lift {p : Program α} (h : Leaves (Only (Request.Avoids t.address)) p)
    (hr : r₁.others t.address = r₂.others t.address) :
    Alike t Eq r₁ (liftM p) r₂ (liftM p) := by
  unfold Alike
  rw [run_lift, run_lift]
  refine Program.alike_bind (Program.alike_same h) fun a b hab => ?_
  exact Program.alike_pure (.goesOn hr hab)

theorem alike_enter {change₁ change₂ : Report → Report}
    (h : (change₁ r₁).others t.address = (change₂ r₂).others t.address) :
    Alike t Eq r₁ (enter change₁) r₂ (enter change₂) :=
  Program.alike_pure (.goesOn h rfl)

theorem alike_abort {stage : String} {e : FleetError}
    (hr : r₁.others t.address = r₂.others t.address) :
    Alike t R r₁ (abort stage e) r₂ (abort stage e) :=
  Program.alike_pure (.stops hr)

/-- What stands after an abort is not reached. -/
theorem alike_abort_bind {stage : String} {e : FleetError} {f₁ : α → Conduct γ}
    {f₂ : α → Conduct δ} (hr : r₁.others t.address = r₂.others t.address) :
    Alike t S r₁ (abort stage e >>= f₁) r₂ (abort stage e >>= f₂) :=
  alike_bind (R := fun _ _ => False) (alike_abort hr) fun _ _ _ _ _ h => h.elim

/-- A part that does not concern the address, and starts with the same report, takes the same
course. -/
theorem alike_same {x : Conduct α} (h : Leaves (Only (Request.Avoids t.address)) x)
    (r : Report) : Alike t Eq r x r x := by
  refine Program.alike_mono ?_ (Program.alike_same (h r))
  rintro (last | ⟨a, after⟩) _ rfl
  · exact .stops rfl
  · exact .goesOn rfl rfl

theorem alike_wait {stage : String} {delay : Duration}
    (hr : r₁.others t.address = r₂.others t.address) :
    Alike t Eq r₁ (need stage (settle delay)) r₂ (need stage (settle delay)) :=
  alike_silent silent_wait silent_wait (fun _ _ _ _ => rfl) hr

/-! ## Loops over hosts -/

/-- Loops over lists that have the same other hosts are alike, if the rounds of other hosts are, and
the rounds of the hosts at the address concern only these. -/
theorem alike_forM {hosts₁ hosts₂ : List Host} {round : Host → Conduct PUnit}
    (h : SameElsewhere t.address hosts₁ hosts₂)
    (hsilent : ∀ host, host.address = t.address →
      Silent t.address (fun _ => True) (round host))
    (hsame : ∀ host, host.address ≠ t.address → ∀ r₁ r₂,
      r₁.others t.address = r₂.others t.address → Alike t Eq r₁ (round host) r₂ (round host))
    (hr : r₁.others t.address = r₂.others t.address) :
    Alike t Eq r₁ (hosts₁.forM round) r₂ (hosts₂.forM round) := by
  induction h generalizing r₁ r₂ with
  | nil => exact alike_pure hr rfl
  | @both host _ _ _ ih =>
    refine alike_bind (R := Eq) ?_ fun _ _ r₁ r₂ hr _ => ih hr
    by_cases hat : host.address = t.address
    · exact alike_silent (hsilent host hat) (hsilent host hat) (fun _ _ _ _ => rfl) hr
    · exact hsame host hat r₁ r₂ hr
  | @left host _ _ hat _ ih =>
    exact alike_left (hsilent host hat) hr fun _ r₁ r₂ hr _ => ih hr
  | @right host _ _ hat _ ih =>
    exact alike_right (hsilent host hat) hr fun _ r₁ r₂ hr _ => ih hr

/-- A loop that takes a step on each host: whatever the hosts at the address do, the steps on the
others and what comes of them are the same. -/
theorem alike_eachHost {hosts₁ hosts₂ : List Host} {stage : String} {step : Host → Step α}
    {detail : α → Option String} (h : SameElsewhere t.address hosts₁ hosts₂)
    (hstays : ∀ host, Leaves (Only (Request.StaysAt host.address)) (step host))
    (huncancelled : ∀ host, Uncancelled (step host))
    (hr : r₁.others t.address = r₂.others t.address) :
    Alike t Eq r₁ (eachHost stage hosts₁ step detail) r₂ (eachHost stage hosts₂ step detail) := by
  refine alike_forM h (fun host hat => ?_) (fun host hne r₁ r₂ hr => ?_) hr
  · refine silent_bind (silent_attempt (hat ▸ hstays host) (huncancelled host)) ?_
    intro result hresult
    rw [hresult]
    refine silent_enter fun r => ?_
    rw [Report.others_hostResult_at hat, Report.others_stageResult]
  · refine alike_bind (alike_lift (leaves_run.mpr (leaves_avoids (hstays host) hne)) hr) ?_
    rintro result _ r₁ r₂ hr rfl
    refine alike_ite (fun _ => alike_abort_bind hr) fun _ => ?_
    exact alike_enter (Report.others_hostResult_congr (by simpa using hr) result)

/-! ## Whole procedures -/

/-- Procedures whose parts are alike end with the same results and snapshots for the others. -/
theorem alike_conclude {procedure : Procedure} {x₁ x₂ : Conduct Unit}
    (h : Alike t Eq (.new procedure) x₁ (.new procedure) x₂) :
    Program.Alike t (fun r₁ r₂ => r₁.others t.address = r₂.others t.address)
      (conclude procedure x₁) (conclude procedure x₂) := by
  refine Program.alike_bind h fun e₁ e₂ he => ?_
  cases he with
  | goesOn hr _ => exact Program.alike_pure hr
  | stops hr => exact Program.alike_pure hr

end Conduct

end NodeFleet
