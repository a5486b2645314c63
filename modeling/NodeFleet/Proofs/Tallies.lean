import NodeFleet.Proofs.Payments
import Mathlib.Data.List.Perm.Subperm

/-!
# NodeFleet.Proofs.Tallies — the results that a procedure enters

A procedure on several targets enters a result for each of them, from several of its branches.  What
a part of it enters is a list of results, kept together with the sessions that could not be opened
meanwhile: a result marks its host as down exactly for these.

* `Target`, `Settlement`: what results are entered for, and a result that is entered.
* `Log.refusals`: the sessions that could not be opened.  `Settles`: a step whose result can be
  entered for a host.
* `Conduct.Tallies`: the results that a part of a procedure enters.  `tallies_bind`,
  `tallies_inSession`, `tallies_asked`, ...: the rules.
* `Conduct.TalliesEach`: a part that enters one result for each of several targets, in their order.
  `each_forM`, `eachHost_tallies`, ...: the rules.
* `Report.Tallied`, `Tallies.reports`: the results in the report of a whole procedure.
-/

namespace NodeFleet

/-! ## Results -/

/-- What a result is entered for: a host, or an address that is no host. -/
inductive Target where
  | host (host : Host)
  | address (address : String)

namespace Target

/-- What the target is called in a report. -/
def label : Target → String
  | host h => h.name
  | address a => a

/-- Where the target is. -/
def place : Target → String
  | host h => h.address
  | address a => a

end Target

/-- What a sum is sent for: the host that gave the address, if one did. -/
def Destination.target (d : Destination) : Target :=
  match d.host? with
  | some host => .host host
  | none => .address d.address

/-- A result that is entered for a target, with the address that stands beside it. -/
structure Settlement where
  target : Target
  address : String
  result : Except FleetError Unit

/-- The session that could not be opened, if the event is that. -/
def Event.failedConnection? : Event → Option (Host × RemoteError)
  | ⟨.connect host, .error cause⟩ => some (host, cause)
  | _ => none

/-- The sessions that could not be opened, in order. -/
def Log.refusals (l : Log) : List (Host × RemoteError) := l.filterMap Event.failedConnection?

namespace Settlement

/-- The result of a step, as it is entered for a target. -/
def of {α : Type} (target : Target) (address : String) (result : Except FleetError α) :
    Settlement := ⟨target, address, result.map fun _ => ()⟩

/-- The result of a step on a host. -/
abbrev ofHost {α : Type} (host : Host) (result : Except FleetError α) : Settlement :=
  of (.host host) host.address result

/-- The result as a report has it. -/
def outcome (x : Settlement) : HostOutcome :=
  Report.outcomeOf x.target.label x.address x.result

/-- The host with the cause, if the result is that no session to the target could be opened. -/
def unreached? (x : Settlement) : Option (Host × RemoteError) :=
  match x.target, x.result with
  | .host host, .error (.connectFailure name cause) =>
    if name = host.name then some (host, cause) else none
  | _, _ => none

/-- The result marks its host as down exactly when that host could not be reached, and beside it
stands where the target is, or the address to which a sum was sent. -/
structure Stands (x : Settlement) (l : Log) : Prop where
  down : x.outcome.hostDown = x.unreached?.isSome
  beside : x.address = x.target.place ∨ x.address ∈ l.payments.map Prod.fst

end Settlement

/-- The procedure was aborted. -/
def Report.WasAborted (report : Report) : Prop :=
  ∃ stage kind message, report.outcome = .aborted stage kind message

section Results

variable {α : Type} {target : Target} {address : String} {host : Host} {l l₁ l₂ : Log}
  {result : Except FleetError α}

@[simp] theorem refusals_append : Log.refusals (l₁ ++ l₂) = l₁.refusals ++ l₂.refusals :=
  List.filterMap_append

@[simp] theorem refusals_refused {cause : RemoteError} :
    (Log.refused host cause).refusals = [(host, cause)] := rfl

@[simp] theorem refusals_session : (Log.session host l).refusals = l.refusals :=
  filterMap_session rfl rfl

/-- Where no session is opened none is refused. -/
theorem refusals_eq_nil (h : Only (fun r => ¬ r.Connects) l) : l.refusals = [] := by
  refine List.filterMap_eq_nil_iff.mpr fun e he => ?_
  have hnone := h e he
  obtain ⟨r, answer⟩ := e
  cases r with
  | connect other => exact absurd ⟨other, rfl⟩ hnone
  | _ => rfl

namespace Settlement

@[simp] theorem outcome_of :
    (of target address result).outcome = Report.outcomeOf target.label address result := by
  cases result <;> rfl

/-- A result that does not say that a host is down. -/
theorem unreached?_of_up (h : ∀ e, result = .error e → e.isHostDown = false) :
    (of target address result).unreached? = none ∧
      (of target address result).outcome.hostDown = false := by
  cases result with
  | ok a => cases target <;> exact ⟨rfl, rfl⟩
  | error e =>
    have hup := h e rfl
    refine ⟨?_, hup⟩
    cases e with
    | connectFailure name cause => cases hup
    | _ => cases target <;> rfl

theorem Stands.mono {x : Settlement} (h : x.Stands l₁) (hsub : l₁ ⊆ l₂) : x.Stands l₂ where
  down := h.down
  beside := h.beside.imp id fun hm =>
    (List.map_subset Prod.fst (List.filterMap_subset _ hsub)) hm

end Settlement

/-- What the log of a step on a host shows of its result: the session to the host could not be
opened, or every session was opened and the failure, if there is one, is another. -/
inductive Log.Shows {α : Type} (host : Host) (l : Log) : Except FleetError α → Prop
  | down (cause : RemoteError) (h : l.refusals = [(host, cause)]) :
    Shows host l (.error (.connectFailure host.name cause))
  | up {result : Except FleetError α} (h : l.refusals = [])
    (hup : ∀ e, result = .error e → e.isHostDown = false) : Shows host l result

/-- The result of such a step can be entered for the host. -/
theorem Log.Shows.stands (h : l.Shows host result) :
    (Settlement.ofHost host result).Stands l ∧
      (Settlement.ofHost host result).unreached?.toList = l.refusals := by
  cases h with
  | down cause hrefused =>
    have hdown : (Settlement.ofHost host (.error (.connectFailure host.name cause) :
        Except FleetError α)).unreached? = some (host, cause) := if_pos rfl
    rw [hdown, hrefused]
    exact ⟨⟨by rw [hdown]; rfl, .inl rfl⟩, rfl⟩
  | up hrefused hup =>
    obtain ⟨hnone, hdown⟩ : (Settlement.ofHost host result).unreached? = none ∧
        (Settlement.ofHost host result).outcome.hostDown = false :=
      Settlement.unreached?_of_up hup
    rw [hnone, hrefused]
    exact ⟨⟨by rw [hnone, hdown]; rfl, .inl rfl⟩, rfl⟩

end Results

/-- Whatever a step is answered, its result can be entered for the host. -/
def Settles {α : Type} (host : Host) (step : Step α) : Prop :=
  ∀ l r, step.run.Yields l r → l.Shows host r

/-! ## Parts of procedures that enter results -/

namespace Conduct

variable {α β γ : Type} {host : Host} {stage : String}

/-- The results that a part of a procedure enters.  If the procedure goes on they are all that the
part has to enter, and those of hosts that are down are the refused sessions, in order; if it is
aborted they may be fewer. -/
inductive Tally (full : α → List Settlement → Prop) (part : List Settlement → Prop)
    (before : Report) (l : Log) : Except Report (α × Report) → Prop
  | on {a : α} {after : Report} (settled : List Settlement)
    (hhosts : after.hosts = before.hosts ++ settled.map Settlement.outcome)
    (hstands : ∀ x ∈ settled, x.Stands l)
    (hrefused : settled.filterMap Settlement.unreached? = l.refusals)
    (houtcome : after.outcome = before.outcome) (hfull : full a settled) :
    Tally full part before l (.ok (a, after))
  | cut {last : Report} (settled : List Settlement)
    (hhosts : last.hosts = before.hosts ++ settled.map Settlement.outcome)
    (hstands : ∀ x ∈ settled, x.Stands l)
    (hrefused : settled.filterMap Settlement.unreached? <+: l.refusals)
    (haborted : last.WasAborted) (hpart : part settled) :
    Tally full part before l (.error last)

/-- From any report, a part of a procedure enters such results. -/
def Tallies (x : Conduct α) (full : α → List Settlement → Prop)
    (part : List Settlement → Prop) : Prop :=
  ∀ before l r, x.Ends before l r → Tally full part before l r

section Rules

variable {full full' : α → List Settlement → Prop} {part part' : List Settlement → Prop}
  {full₂ : β → List Settlement → Prop}

theorem Tallies.mono {x : Conduct α} (h : x.Tallies full part)
    (hfull : ∀ a s, full a s → full' a s) (hpart : ∀ s, part s → part' s) :
    x.Tallies full' part' := by
  intro before l r hends
  cases h before l r hends with
  | on settled hhosts hstands hrefused houtcome hs =>
    exact .on settled hhosts hstands hrefused houtcome (hfull _ settled hs)
  | cut settled hhosts hstands hrefused haborted hs =>
    exact .cut settled hhosts hstands hrefused haborted (hpart settled hs)

/-- What comes after a part may depend on what that has entered. -/
theorem tallies_bind {x : Conduct α} {f : α → Conduct β} (hx : x.Tallies full part)
    (hf : ∀ a s, full a s →
      (f a).Tallies (fun b s' => full₂ b (s ++ s')) fun s' => part' (s ++ s'))
    (hpart : ∀ s, part s → part' s) : (x >>= f).Tallies full₂ part' := by
  intro before l r h
  obtain ⟨last, rfl, hfirst⟩ | ⟨l₁, l₂, a, mid, rfl, hfirst, hrest⟩ := ends_bind_cases h
  · cases hx before l _ hfirst with
    | cut settled hhosts hstands hrefused haborted hs =>
      exact .cut settled hhosts hstands hrefused haborted (hpart settled hs)
  cases hx before l₁ _ hfirst with
  | on s₁ hhosts₁ hstands₁ hrefused₁ houtcome₁ hs₁ =>
    -- a settlement stands on events of the whole log as it does on those of its part
    have hstands (s₂ : List Settlement) (h₂ : ∀ x ∈ s₂, x.Stands l₂) :
        ∀ x ∈ s₁ ++ s₂, x.Stands (l₁ ++ l₂) := fun x hm =>
      (List.mem_append.mp hm).elim
        (fun hm => (hstands₁ x hm).mono (List.subset_append_left l₁ l₂))
        fun hm => (h₂ x hm).mono (List.subset_append_right l₁ l₂)
    cases hf a s₁ hs₁ mid l₂ r hrest with
    | on s₂ hhosts hstands₂ hrefused houtcome hs =>
      refine .on (s₁ ++ s₂) ?_ (hstands s₂ hstands₂) ?_ (houtcome.trans houtcome₁) hs
      · rw [hhosts, hhosts₁, List.map_append, List.append_assoc]
      · rw [List.filterMap_append, hrefused₁, hrefused, refusals_append]
    | cut s₂ hhosts hstands₂ hrefused haborted hs =>
      refine .cut (s₁ ++ s₂) ?_ (hstands s₂ hstands₂) ?_ haborted hs
      · rw [hhosts, hhosts₁, List.map_append, List.append_assoc]
      · rw [List.filterMap_append, hrefused₁, refusals_append]
        exact (List.prefix_append_right_inj _).mpr hrefused

theorem tallies_pure {a : α} (h : full a []) : (pure a : Conduct α).Tallies full part := by
  rintro before _ _ ⟨rfl, rfl⟩
  exact .on [] (List.append_nil _).symm (List.forall_mem_nil _) rfl rfl h

/-- An abort enters no result. -/
theorem tally_abort {before : Report} {l : Log} {e : FleetError} (h : part []) :
    Tally full part before l (.error (before.abort stage e)) :=
  .cut [] (List.append_nil _).symm (List.forall_mem_nil _) List.nil_prefix
    ⟨stage, _, _, rfl⟩ h

theorem tallies_abort {e : FleetError} (h : part []) :
    (abort stage e : Conduct α).Tallies full part := by
  rintro before _ _ ⟨rfl, rfl⟩
  exact tally_abort h

/-- What is entered is no result, and the procedure goes on. -/
theorem tallies_enter {change : Report → Report} {full : Unit → List Settlement → Prop}
    (hchange : ∀ r, (change r).hosts = r.hosts ∧ (change r).outcome = r.outcome)
    (h : full () []) : (enter change).Tallies full part := by
  rintro before _ _ ⟨rfl, rfl⟩
  obtain ⟨hhosts, houtcome⟩ := hchange before
  exact .on [] (hhosts.trans (List.append_nil _).symm) (List.forall_mem_nil _)
    rfl houtcome h

/-- The procedure goes on with something entered that is no result. -/
theorem tallies_entered {change : Report → Report} {f : Unit → Conduct α}
    (hchange : ∀ r, (change r).hosts = r.hosts ∧ (change r).outcome = r.outcome)
    (hf : (f ()).Tallies full part) : (enter change >>= f).Tallies full part := by
  have hentered : (enter change).Tallies (fun _ s => s = []) fun _ => False :=
    tallies_enter hchange rfl
  refine tallies_bind hentered (fun _ s hs => ?_) fun _ => False.elim
  subst hs
  exact hf

/-- A step that opens no session, without which the procedure cannot go on. -/
theorem tallies_need {step : Step α} (hstep : Leaves (Only fun r => ¬ r.Connects) step)
    (hfull : ∀ l a, step.run.Yields l (.ok a) → full a []) (hpart : part []) :
    (need stage step).Tallies full part := by
  intro before l r h
  match r, h with
  | .ok (a, after), h =>
    obtain ⟨hok, rfl⟩ := ends_need_ok.mp h
    exact .on [] (List.append_nil _).symm (List.forall_mem_nil _)
      (refusals_eq_nil (hstep l _ hok)).symm rfl (hfull l a hok)
  | .error last, h =>
    obtain ⟨e, -, rfl⟩ := ends_need_error.mp h
    exact tally_abort hpart

/-- A part in a session that it needs enters what it enters by itself. -/
theorem tallies_inSession {x : Conduct α} (h : x.Tallies full part) (hpart : part []) :
    (inSession stage host x).Tallies full part := by
  intro before l r hends
  obtain ⟨cause, rfl, rfl⟩ | ⟨inner, rfl, hinner⟩ := inSession_ends hends
  · exact tally_abort hpart
  · have hsub : inner ⊆ Log.session host inner := fun e he => mem_session.mpr (.inr (.inl he))
    cases h before inner r hinner with
    | on settled hhosts hstands hrefused houtcome hs =>
      exact .on settled hhosts (fun x hm => (hstands x hm).mono hsub)
        (hrefused.trans refusals_session.symm) houtcome hs
    | cut settled hhosts hstands hrefused haborted hs =>
      exact .cut settled hhosts (fun x hm => (hstands x hm).mono hsub)
        (refusals_session.symm ▸ hrefused) haborted hs

/-- The result of a step is entered for its host. -/
theorem tally_result {before after : Report} {l : Log} {a : α} {result : Except FleetError γ}
    (h : l.Shows host result)
    (hhosts : after.hosts = before.hosts ++ [Report.outcomeOf host.name host.address result])
    (houtcome : after.outcome = before.outcome)
    (hfull : full a [Settlement.ofHost host result]) :
    Tally full part before l (.ok (a, after)) := by
  obtain ⟨hstands, hrefused⟩ := h.stands
  refine .on [Settlement.ofHost host result] ?_ (List.forall_mem_singleton.mpr hstands) ?_ houtcome
    hfull
  · rw [hhosts, List.map_singleton, Settlement.outcome_of]
    rfl
  · rw [← hrefused, List.filterMap_cons]
    cases (Settlement.ofHost host result).unreached? <;> rfl

/-- A step on a host: its failure is entered as the result of the host, and its success is handed
on. -/
def handedOn (stage : String) (host : Host) (step : Step β) : Conduct (Option β) := do
  match ← attempt step with
  | .ok b => pure (some b)
  | .error e => do
    settled stage host (fun _ => none) (.error e : Except FleetError Unit)
    pure none

theorem handedOn_tallies {step : Step β} (hstep : Settles host step) :
    (handedOn stage host step).Tallies
      (fun b? s => s.map Settlement.target = if b?.isSome then [] else [.host host])
      fun _ => False := by
  intro before l r h
  obtain ⟨_, -, hasked⟩ | ⟨l₁, l₂, result, mid, rfl, hasked, hnext⟩ := ends_bind_cases h
  · exact absurd hasked not_ends_attempt_error
  obtain ⟨hyields, rfl⟩ := ends_attempt_ok.mp hasked
  have hshows := hstep l₁ result hyields
  -- the result of a step that is handed on is entered later; a failure is entered at once
  cases result with
  | ok b =>
    obtain ⟨rfl, rfl⟩ := ends_pure.mp hnext
    rw [List.append_nil]
    cases hshows with
    | up hnone _ =>
      exact .on [] (List.append_nil _).symm (List.forall_mem_nil _) hnone.symm
        rfl rfl
  | error e =>
    obtain ⟨rfl, rfl⟩ : l₂ = [] ∧ r = .ok (none, _) := hnext
    rw [List.append_nil]
    exact tally_result hshows rfl rfl rfl

/-- The failure of a step may be entered before anything else is asked. -/
theorem attempt_eq_handedOn {step : Step β} {f : Except FleetError β → Conduct α} {rest : Conduct α}
    (herror : ∀ e, f (.error e) = (do
      settled stage host (fun _ => none) (.error e : Except FleetError Unit)
      rest)) :
    attempt step >>= f =
      handedOn stage host step >>= fun b? => (b?.map fun b => f (.ok b)).getD rest := by
  unfold handedOn
  rw [bind_assoc]
  refine congrArg (attempt step >>= ·) (funext fun result => ?_)
  cases result with
  | ok b => exact (pure_bind _ _).symm
  | error e => rw [herror, bind_assoc, pure_bind]; rfl

/-- A step on a host whose failure is entered, and what is done after its success and after its
failure. -/
theorem tallies_asked {step : Step β} {f : Except FleetError β → Conduct α} {rest : Conduct α}
    (hstep : Settles host step)
    (herror : ∀ e, f (.error e) = (do
      settled stage host (fun _ => none) (.error e : Except FleetError Unit)
      rest))
    (hok : ∀ b, (f (.ok b)).Tallies full part)
    (hrest : ∀ s, s.map Settlement.target = [.host host] →
      rest.Tallies (fun a s' => full a (s ++ s')) fun s' => part (s ++ s')) :
    (attempt step >>= f).Tallies full part := by
  rw [attempt_eq_handedOn herror]
  refine tallies_bind (handedOn_tallies hstep) (fun b? s hs => ?_) fun _ => False.elim
  cases b? with
  | some b =>
    obtain rfl : s = [] := List.map_eq_nil_iff.mp hs
    exact hok b
  | none => exact hrest s hs

end Rules

/-! ### Results in the order of the targets -/

/-- A part of a procedure that enters a result for each of these targets in order; only an abort
leaves targets out. -/
def TalliesEach (x : Conduct α) (targets : List Target) : Prop :=
  x.Tallies (fun _ s => s.map Settlement.target = targets)
    fun s => s.map Settlement.target <+: targets

section Each

variable {targets targets₁ targets₂ : List Target}

theorem each_bind {x : Conduct α} {f : α → Conduct β} (hx : x.TalliesEach targets₁)
    (hf : ∀ a, (f a).TalliesEach targets₂) : (x >>= f).TalliesEach (targets₁ ++ targets₂) := by
  refine tallies_bind hx (fun a s hs => (hf a).mono (fun b s' hs' => ?_) fun s' hs' => ?_)
    fun s hs => hs.trans (List.prefix_append targets₁ targets₂)
  · rw [List.map_append, hs, hs']
  · rw [List.map_append, hs]
    exact (List.prefix_append_right_inj targets₁).mpr hs'

theorem each_pure (a : α) : (pure a : Conduct α).TalliesEach [] := tallies_pure rfl

theorem each_abort {e : FleetError} : (abort stage e : Conduct α).TalliesEach targets :=
  tallies_abort List.nil_prefix

/-- What comes after a part that enters no result. -/
theorem tallies_after {x : Conduct α} {f : α → Conduct β} {full : β → List Settlement → Prop}
    {part : List Settlement → Prop} (hx : x.TalliesEach []) (hf : ∀ a, (f a).Tallies full part)
    (hpart : part []) : (x >>= f).Tallies full part := by
  refine tallies_bind hx (fun a s hs => ?_) fun s hs => ?_
  · obtain rfl : s = [] := List.map_eq_nil_iff.mp hs
    exact hf a
  · obtain rfl : s = [] := List.map_eq_nil_iff.mp (List.prefix_nil.mp hs)
    exact hpart

theorem each_after {x : Conduct α} {f : α → Conduct β} (hx : x.TalliesEach [])
    (hf : ∀ a, (f a).TalliesEach targets) : (x >>= f).TalliesEach targets :=
  tallies_after hx hf List.nil_prefix

theorem each_enter {change : Report → Report}
    (hchange : ∀ r, (change r).hosts = r.hosts ∧ (change r).outcome = r.outcome) :
    (enter change).TalliesEach [] := tallies_enter hchange rfl

theorem each_passed (host : Host) (detail? : Option String) :
    (passed stage host detail?).TalliesEach [] := each_enter fun _ => ⟨rfl, rfl⟩

theorem each_need {step : Step α} (h : Leaves (Only fun r => ¬ r.Connects) step) :
    (need stage step).TalliesEach [] := tallies_need h (fun _ _ _ => rfl) List.nil_prefix

theorem each_attempt {step : Step α} (h : Leaves (Only fun r => ¬ r.Connects) step) :
    (attempt step).TalliesEach [] := by
  intro before l r hends
  obtain ⟨result, hstep, rfl⟩ := ends_attempt.mp hends
  exact .on [] (List.append_nil _).symm (List.forall_mem_nil _)
    (refusals_eq_nil (h l result hstep)).symm rfl rfl

theorem each_forM {xs : List γ} {f : γ → Conduct PUnit} {target : γ → Target}
    (h : ∀ a ∈ xs, (f a).TalliesEach [target a]) : (xs.forM f).TalliesEach (xs.map target) := by
  induction xs with
  | nil => exact each_pure _
  | cons a xs ih =>
    refine each_bind (h a List.mem_cons_self) fun _ => ?_
    exact ih fun b hb => h b (List.mem_cons_of_mem a hb)

/-- A loop over hosts enters the result of each step. -/
theorem eachHost_tallies {hosts : List Host} {step : Host → Step β} {detail : β → Option String}
    (h : ∀ host ∈ hosts, Settles host (step host)) :
    (eachHost stage hosts step detail).TalliesEach (hosts.map .host) := by
  refine each_forM fun host hm before l r hends => ?_
  obtain ⟨result, hstep, rfl⟩ := ends_round hends
  by_cases hcut : wasCancelled result = true
  · rw [if_pos hcut]
    exact tally_abort List.nil_prefix
  · rw [if_neg hcut]
    exact tally_result (h host hm l result hstep) (settled_hosts before result)
      (settled_outcome before result) rfl

end Each

end Conduct

/-! ## Reports -/

/-- The results of a report, for these targets and these refused sessions.  A procedure that has
completed has entered one result for each target, has marked as down those whose session was
refused, and has succeeded when all results are good; one that was aborted has entered some. -/
def Report.Tallied (targets : List Target) (refused : List (Host × RemoteError)) (l : Log)
    (report : Report) : Prop :=
  ∃ settled : List Settlement,
    report.hosts = settled.map Settlement.outcome ∧ (∀ x ∈ settled, x.Stands l) ∧
    (report.outcome = .completed ∧ (settled.map Settlement.target).Perm targets ∧
        settled.filterMap Settlement.unreached? = refused ∧
        (report.succeeded ↔ ∀ x ∈ settled, x.result = .ok ()) ∨
      report.WasAborted ∧ (settled.map Settlement.target).Subperm targets ∧
        settled.filterMap Settlement.unreached? <+: refused)

theorem Report.abort_tallied {procedure : Procedure} {stage : String} {e : FleetError}
    {targets : List Target} {refused : List (Host × RemoteError)} {l : Log} :
    ((new procedure).abort stage e).Tallied targets refused l :=
  ⟨[], rfl, List.forall_mem_nil _,
    .inr ⟨⟨stage, _, _, rfl⟩, List.nil_subperm, List.nil_prefix⟩⟩

theorem Report.Tallied.mono {report : Report} {targets : List Target}
    {refused : List (Host × RemoteError)} {l₁ l₂ : Log} (h : report.Tallied targets refused l₁)
    (hsub : l₁ ⊆ l₂) : report.Tallied targets refused l₂ := by
  obtain ⟨settled, hhosts, hstands, hends⟩ := h
  exact ⟨settled, hhosts, fun x hm => (hstands x hm).mono hsub, hends⟩

theorem Settlement.outcome_ok {x : Settlement} : x.outcome.ok ↔ x.result = .ok () := by
  obtain ⟨target, address, result⟩ := x
  cases result with
  | ok _ => exact iff_of_true rfl rfl
  | error e => exact iff_of_false Bool.false_ne_true fun h => by cases h

namespace Conduct

variable {procedure : Procedure} {targets : List Target} {l : Log}

/-- The report of a whole procedure has the results that the procedure has entered. -/
theorem Tally.tallied {full : Unit → List Settlement → Prop} {part : List Settlement → Prop}
    {r : Except Report (Unit × Report)} (h : Tally full part (.new procedure) l r)
    (hfull : ∀ s, full () s → (s.map Settlement.target).Perm targets)
    (hpart : ∀ s, part s → (s.map Settlement.target).Subperm targets) :
    (finalReport r).Tallied targets l.refusals l := by
  cases h with
  | @on _ after settled hhosts hstands hrefused houtcome hs =>
    have hcompleted : after.finish.outcome = .completed := if_pos houtcome
    have hsucceeded : after.finish.succeeded ↔ ∀ x ∈ settled, x.result = .ok () := by
      have hentered : after.finish.hosts = settled.map Settlement.outcome := hhosts
      simp only [Report.succeeded, hcompleted, hentered, beq_self_eq_true, Bool.true_and,
        List.all_map, List.all_eq_true, Function.comp_apply, Settlement.outcome_ok]
    exact ⟨settled, hhosts, hstands, .inl ⟨hcompleted, hfull settled hs, hrefused, hsucceeded⟩⟩
  | cut settled hhosts hstands hrefused haborted hs =>
    exact ⟨settled, hhosts, hstands, .inr ⟨haborted, hpart settled hs, hrefused⟩⟩

theorem Tallies.reports {x : Conduct Unit} {report : Report}
    (hx : x.Tallies (fun _ s => (s.map Settlement.target).Perm targets)
      fun s => (s.map Settlement.target).Subperm targets)
    (h : (conclude procedure x).Yields l report) : report.Tallied targets l.refusals l := by
  obtain ⟨r, hends, rfl⟩ := conclude_ends h
  exact (hx _ l r hends).tallied (fun _ => id) fun _ => id

theorem TalliesEach.reports {x : Conduct Unit} {report : Report} (hx : x.TalliesEach targets)
    (h : (conclude procedure x).Yields l report) : report.Tallied targets l.refusals l :=
  Tallies.reports (hx.mono (fun _ _ hs => .of_eq hs) fun _ hs => hs.sublist.subperm) h

end Conduct

end NodeFleet
