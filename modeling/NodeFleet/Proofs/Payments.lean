import NodeFleet.Proofs.Listing

/-!
# NodeFleet.Proofs.Payments — funds are sent once, and every sum that was sent is entered

A transfer asks each host for its address and then sends all sums in one session; a cold restart
sends the collateral.  What was accepted stands in the report, however the procedure ends.

* `Request.payment?`, `Log.payments`, `Event.transfer?`: the payments of a log, and what a report
  says of one that was accepted.
* `Fleet.Sends`: what a log shows once the destinations of a transfer are known.
* `Conduct.Pays`: a part of a procedure makes at most so many payments, and enters those that were
  accepted.
* `Fleet.payments_once`: transfers and cold restarts.
-/

namespace NodeFleet

/-! ## Payments in a log -/

/-- Nothing that is asked is a payment. -/
abbrev Unpaid : Log → Prop := Only fun r => ¬ r.IsPay

/-- The address and the sum of a payment. -/
def Request.payment? : Request → Option (String × Amount)
  | .run _ ⟨_, .pay address amount⟩ => some (address, amount)
  | _ => none

/-- The payments that were tried. -/
def Log.payments (l : Log) : List (String × Amount) := l.filterMap fun e => e.request.payment?

theorem payments_append {l₁ l₂ : Log} :
    Log.payments (l₁ ++ l₂) = l₁.payments ++ l₂.payments :=
  List.filterMap_append

/-- The hash with which a payment was accepted. -/
def acceptedHash? : Except RemoteError Reply → Option String
  | .ok reply => (token reply).toOption
  | .error _ => none

/-- A payment that was accepted, as the report has it under a label. -/
def Event.transfer? (label : String) : Event → Option Transfer
  | ⟨.run _ ⟨_, .pay address amount⟩, answer⟩ =>
    (acceptedHash? answer).map fun hash => ⟨label, address, amount, hash⟩
  | _ => none

theorem Request.payment?_eq_none {r : Request} (h : ¬ r.IsPay) : r.payment? = none := by
  unfold payment?
  split
  · exact absurd trivial h
  · rfl

theorem Event.transfer?_eq_none {label : String} {e : Event} (h : ¬ e.request.IsPay) :
    e.transfer? label = none := by
  unfold transfer?
  split
  · exact absurd trivial h
  · rfl

theorem Unpaid.payments_eq_nil {l : Log} (h : Unpaid l) : l.payments = [] :=
  List.filterMap_eq_nil_iff.mpr fun e he => Request.payment?_eq_none (h e he)

theorem Unpaid.transfers_eq_nil {l : Log} {label : String} (h : Unpaid l) :
    l.filterMap (Event.transfer? label) = [] :=
  List.filterMap_eq_nil_iff.mpr fun e he => Event.transfer?_eq_none (h e he)

/-- Opening and closing a session are no transfers. -/
theorem session_transfers {host : Host} {inner : Log} {label : String} :
    (Log.session host inner).filterMap (Event.transfer? label) =
      inner.filterMap (Event.transfer? label) := by
  unfold Log.session
  rw [List.filterMap_cons_none rfl, List.filterMap_append, List.filterMap_cons_none rfl,
    List.filterMap_nil, List.append_nil]

/-- A step in a session of its own pays no more than the step. -/
theorem inSession_unpaid {α : Type} {host : Host} {step : Step α} (h : Leaves Unpaid step) :
    Leaves Unpaid (inSession host step) :=
  leaves_inSession (fun _ => only_singleton.mpr id) h (only_singleton.mpr id)

/-- A command that generates a word is sent once, and gives the word of the answer, if there is
one. -/
theorem yields_expectToken {host : Host} {command : Command} {l : Log}
    {r : Except FleetError String} (h : (expectToken host command).run.Yields l r) :
    ∃ answer, l = [⟨.run host command, answer⟩] ∧ r.toOption = acceptedHash? answer := by
  unfold expectToken at h
  rw [ExceptT.run_bind] at h
  obtain ⟨l₁, l₂, reply | reply, rfl, hsent, hread⟩ := Program.yields_bind.mp h
  · obtain ⟨cause, rfl, rfl⟩ := yields_exchange_error.mp hsent
    obtain ⟨rfl, rfl⟩ := Program.yields_pure.mp hread
    exact ⟨.error cause, rfl, rfl⟩
  · obtain rfl := yields_exchange_ok.mp hsent
    refine ⟨.ok reply, ?_⟩
    dsimp only at hread
    split at hread
    · obtain ⟨rfl, rfl⟩ := Program.yields_run_pure.mp hread
      refine ⟨rfl, ?_⟩
      show _ = (token reply).toOption
      rw [‹token reply = _›]
      rfl
    · obtain ⟨rfl, rfl⟩ := Program.yields_run_throw.mp hread
      refine ⟨rfl, ?_⟩
      show _ = (token reply).toOption
      rw [‹token reply = _›]
      rfl

namespace Fleet

variable (fleet : Fleet)

/-! ## Transfers -/

/-- The destination that a host is once it has given an address. -/
def derived? (visit : Host × Except FleetError String) : Option Destination :=
  visit.2.toOption.map fun address => ⟨visit.1.name, address, some visit.1⟩

/-- Sending a sum to a destination, with the answer. -/
def sendEvent (amount : Amount) (send : Destination × Except RemoteError Reply) : Event :=
  ⟨.run fleet.roster.main (fleet.command (.pay send.1.address amount)), send.2⟩

/-- What becomes of a sum for destinations, in the log and in the transfers of the report: without a
destination nothing is asked; without a session to the main host nothing is sent; and in the session
the sum is sent to each destination once, whatever is answered, and what is accepted is entered. -/
inductive Sends (amount : Amount) (destinations : List Destination) : Log → List Transfer → Prop
  | nowhere (h : destinations = []) : Sends amount destinations [] []
  | refused (h : destinations ≠ []) (cause : RemoteError) :
    Sends amount destinations (Log.refused fleet.roster.main cause) []
  | sent (h : destinations ≠ []) (sends : List (Destination × Except RemoteError Reply))
    (hall : sends.map Prod.fst = destinations) :
    Sends amount destinations
      (Log.session fleet.roster.main (sends.map (fleet.sendEvent amount)))
      (sends.filterMap fun send => (fleet.sendEvent amount send).transfer? send.1.label)

variable {fleet} {hosts : List Host} {amount : Amount} {destinations : List Destination}
  {before : Report} {l : Log}

/-- Each host is asked for its address once, and nothing is entered as a transfer. -/
theorem deriveAddresses_ends {r : Except Report (List Destination × Report)}
    (h : (fleet.deriveAddresses hosts).Ends before l r) :
    ∃ derived after,
      Visits (fun host => queryToken host (fleet.command (.accountAddress ""))) derived l ∧
      derived.map Prod.fst = hosts ∧ r = .ok (derived.filterMap derived?, after) ∧
      after.transfers = before.transfers := by
  -- host by host; one that gives no address has its failure entered, and the loop goes on
  induction hosts generalizing before l r with
  | nil =>
    obtain ⟨rfl, rfl⟩ := Conduct.ends_pure.mp h
    exact ⟨[], before, .nil, rfl, rfl, rfl⟩
  | cons host rest ih =>
    obtain ⟨_, -, hasked⟩ | ⟨l₁, l₂, result, mid, rfl, hasked, hrest⟩ := Conduct.ends_bind_cases h
    · exact absurd hasked Conduct.not_ends_attempt_error
    obtain ⟨hvisit, rfl⟩ := Conduct.ends_attempt_ok.mp hasked
    cases result with
    | ok address =>
      obtain ⟨_, -, hpassed⟩ | ⟨l₃, l₄, _, mid, rfl, hpassed, hothers⟩ :=
        Conduct.ends_bind_cases hrest
      · cases (Conduct.ends_enter.mp hpassed).2
      obtain ⟨rfl, heq⟩ := Conduct.ends_enter.mp hpassed
      cases heq
      obtain ⟨_, -, hothers⟩ | ⟨l₅, l₆, others, mid, rfl, hothers, hlast⟩ :=
        Conduct.ends_bind_cases hothers
      · obtain ⟨_, _, -, -, heq, -⟩ := ih hothers
        cases heq
      obtain ⟨derived, after, hv, rfl, heq, hsame⟩ := ih hothers
      cases heq
      obtain ⟨rfl, rfl⟩ := Conduct.ends_pure.mp hlast
      refine ⟨(host, .ok address) :: derived, _, ?_, rfl, rfl, hsame⟩
      rw [List.nil_append, List.append_nil]
      exact .cons hvisit hv
    | error e =>
      obtain ⟨_, -, hsettled⟩ | ⟨l₃, l₄, _, mid, rfl, hsettled, hothers⟩ :=
        Conduct.ends_bind_cases hrest
      · cases (Conduct.ends_enter.mp hsettled).2
      obtain ⟨rfl, heq⟩ := Conduct.ends_enter.mp hsettled
      cases heq
      obtain ⟨derived, after, hv, rfl, rfl, hsame⟩ := ih hothers
      exact ⟨(host, .error e) :: derived, _, .cons hvisit hv, rfl, rfl, hsame⟩

/-- What is entered of a send is the transfer that it was, if it was accepted. -/
theorem enterSend_transfers (fleet : Fleet) (send : Destination × Except RemoteError Reply)
    {result : Except FleetError String} (h : result.toOption = acceptedHash? send.2) :
    (enterSend send.1 amount result before).transfers =
      before.transfers ++
        ((fleet.sendEvent amount send).transfer? send.1.label).toList := by
  show _ = before.transfers ++ ((acceptedHash? send.2).map _).toList
  rw [← h]
  cases result with
  | ok hash => rfl
  | error e => exact (List.append_nil _).symm

/-- The sum is sent to each destination in turn, and what is accepted is entered. -/
theorem sendAll_ends {r : Except Report (Unit × Report)}
    (h : (fleet.sendAll amount destinations).Ends before l r) :
    ∃ (sends : List (Destination × Except RemoteError Reply)) (after : Report),
      sends.map Prod.fst = destinations ∧ l = sends.map (fleet.sendEvent amount) ∧
      r = .ok ((), after) ∧
      after.transfers = before.transfers ++
        sends.filterMap fun send => (fleet.sendEvent amount send).transfer? send.1.label := by
  unfold sendAll at h
  -- destination by destination; no send ends the loop, whatever it comes to
  induction destinations generalizing before l r with
  | nil =>
    obtain ⟨rfl, rfl⟩ := Conduct.ends_pure.mp h
    exact ⟨[], before, rfl, rfl, rfl, (List.append_nil _).symm⟩
  | cons d rest ih =>
    obtain ⟨_, -, hone⟩ | ⟨l₁, l₂, _, mid, rfl, hone, hrest⟩ := Conduct.ends_bind_cases h
    · obtain hsent | ⟨_, _, _, _, -, -, hentered⟩ := Conduct.ends_bind_error.mp hone
      · exact absurd hsent Conduct.not_ends_attempt_error
      · cases (Conduct.ends_enter.mp hentered).2
    obtain ⟨l₃, l₄, result, _, rfl, hsent, hentered⟩ := Conduct.ends_bind_ok.mp hone
    obtain ⟨hsend, rfl⟩ := Conduct.ends_attempt_ok.mp hsent
    obtain ⟨rfl, heq⟩ := Conduct.ends_enter.mp hentered
    cases heq
    obtain ⟨answer, rfl, hresult⟩ := yields_expectToken hsend
    obtain ⟨sends, after, rfl, rfl, rfl, htransfers⟩ := ih hrest
    refine ⟨(d, answer) :: sends, after, rfl, rfl, rfl, ?_⟩
    rw [htransfers, enterSend_transfers fleet (d, answer) hresult,
      List.append_assoc, List.filterMap_cons]
    congr 1
    cases (fleet.sendEvent amount (d, answer)).transfer? d.label with
    | none => rfl
    | some transfer => rfl

/-- Once the amount and the hosts' addresses are known, the sum is sent or not. -/
theorem sends_ends {r : Except Report (Unit × Report)}
    (h : (do
      unless destinations.isEmpty do
        Conduct.inSession "connect-main" fleet.roster.main
          (fleet.sendAll amount destinations) : Conduct Unit).Ends before l r) :
    ∃ transfers, fleet.Sends amount destinations l transfers ∧
      (endReport r).transfers = before.transfers ++ transfers := by
  by_cases hnone : destinations = []
  · subst hnone
    obtain ⟨rfl, rfl⟩ := Conduct.ends_pure.mp h
    exact ⟨[], .nowhere rfl, (List.append_nil _).symm⟩
  · have hisEmpty : destinations.isEmpty = false := by simpa using hnone
    simp only [hisEmpty, Bool.false_eq_true, if_false] at h
    obtain ⟨cause, rfl, rfl⟩ | ⟨inner, rfl, hinner⟩ := Conduct.inSession_ends h
    · exact ⟨[], .refused hnone cause, (List.append_nil _).symm⟩
    · obtain ⟨sends, after, hall, rfl, rfl, htransfers⟩ := sendAll_ends hinner
      exact ⟨_, .sent hnone sends hall, htransfers⟩

/-- The log of a transfer, and the transfers of its report: nothing is asked without a destination,
or with an amount that is at fault; otherwise every host is first asked for its address, and then
the sum is sent to the hosts that gave one, in their order, and to the given addresses. -/
inductive Transfers (fleet : Fleet) (hosts : List Host) (addresses : List String)
    (requested? : Option Amount) : Log → List Transfer → Prop
  | unasked (h : (hosts = [] ∧ addresses = []) ∨ ∃ e, fleet.amount requested? = .error e) :
    Transfers fleet hosts addresses requested? [] []
  | asked {amount : Amount} {derived : List (Host × Except FleetError String)} {l₁ l₂ : Log}
    {transfers : List Transfer} (hamount : fleet.amount requested? = .ok amount)
    (hvisits : Visits (fun host => queryToken host (fleet.command (.accountAddress ""))) derived l₁)
    (hall : derived.map Prod.fst = hosts) (hunpaid : Unpaid l₁)
    (hsends : fleet.Sends amount (derived.filterMap derived? ++ addresses.map .given) l₂
      transfers) :
    Transfers fleet hosts addresses requested? (l₁ ++ l₂) transfers

/-- A procedure's report has the transfers that its parts have entered. -/
theorem conclude_transfers {procedure : Procedure} {x : Conduct Unit} {report : Report}
    (h : (Conduct.conclude procedure x).Yields l report) :
    ∃ r, x.Ends (.new procedure) l r ∧ report.transfers = (endReport r).transfers := by
  obtain ⟨last, hlast, rfl⟩ | haborted := Conduct.yields_conclude.mp h
  · exact ⟨_, hlast, rfl⟩
  · exact ⟨_, haborted, rfl⟩

theorem transfer_transfers {addresses : List String} {requested? : Option Amount} {report : Report}
    (h : (fleet.transfer hosts addresses requested?).Yields l report) :
    fleet.Transfers hosts addresses requested? l report.transfers := by
  obtain ⟨r, hr, htransfers⟩ := conclude_transfers h
  rw [htransfers]
  -- nobody to pay, then no sum to pay, and then the addresses and the sends
  by_cases hnone : hosts = [] ∧ addresses = []
  · obtain ⟨rfl, rfl⟩ := hnone
    obtain ⟨_, rfl, habort⟩ | ⟨_, _, _, _, -, habort, -⟩ := Conduct.ends_bind_cases hr
    · obtain ⟨rfl, heq⟩ := Conduct.ends_abort.mp habort
      cases heq
      exact .unasked (.inl ⟨rfl, rfl⟩)
    · cases (Conduct.ends_abort.mp habort).2
  have hsome : (hosts.isEmpty && addresses.isEmpty) = false := by simpa using hnone
  simp only [hsome, Bool.false_eq_true, if_false] at hr
  obtain ⟨_, rfl, hneed⟩ | ⟨l₁, l₂, amount, _, rfl, hneed, hderive⟩ := Conduct.ends_bind_cases hr
  · obtain ⟨e, hstep, rfl⟩ := Conduct.ends_need_error.mp hneed
    obtain ⟨rfl, hamount⟩ := yields_ofExcept.mp hstep
    exact .unasked (.inr ⟨e, hamount.symm⟩)
  obtain ⟨hstep, rfl⟩ := Conduct.ends_need_ok.mp hneed
  obtain ⟨rfl, hamount⟩ := yields_ofExcept.mp hstep
  obtain ⟨_, -, hderived⟩ | ⟨l₃, l₄, _, _, rfl, hderived, hsend⟩ := Conduct.ends_bind_cases hderive
  · obtain ⟨_, _, -, -, heq, -⟩ := deriveAddresses_ends hderived
    cases heq
  obtain ⟨derived, after, hvisits, hall, heq, hsame⟩ := deriveAddresses_ends hderived
  cases heq
  obtain ⟨transfers, hsends, hentered⟩ := sends_ends hsend
  have hunpaid : Unpaid l₃ := hvisits.only fun v _ => inSession_unpaid (expectToken_only id)
  rw [hentered, hsame]
  show fleet.Transfers hosts addresses requested? (l₃ ++ l₄) transfers
  exact .asked hamount.symm hvisits hall hunpaid hsends

end Fleet

/-! ## Parts of a procedure that pay -/

namespace Conduct

variable {α β : Type} {label : String} {m n : Nat}

/-- A part of a procedure makes at most `n` payments, and enters as transfers under the label those
that were accepted, in their order. -/
structure Pays (label : String) (x : Conduct α) (n : Nat) : Prop where
  most {before : Report} {l : Log} {r : Except Report (α × Report)} (h : x.Ends before l r) :
    l.payments.length ≤ n
  enters {before : Report} {l : Log} {r : Except Report (α × Report)} (h : x.Ends before l r) :
    (endReport r).transfers = before.transfers ++ l.filterMap (Event.transfer? label)

theorem Pays.mono {x : Conduct α} (h : x.Pays label m) (hmn : m ≤ n) : x.Pays label n where
  most hends := Nat.le_trans (h.most hends) hmn
  enters := h.enters

theorem pays_pure (a : α) : (pure a : Conduct α).Pays label 0 where
  most h := by
    obtain ⟨rfl, -⟩ := ends_pure.mp h
    exact Nat.le_refl 0
  enters h := by
    obtain ⟨rfl, rfl⟩ := ends_pure.mp h
    exact (List.append_nil _).symm

theorem pays_enter {change : Report → Report} (h : ∀ r, (change r).transfers = r.transfers) :
    (enter change).Pays label 0 where
  most hends := by
    obtain ⟨rfl, -⟩ := ends_enter.mp hends
    exact Nat.le_refl 0
  enters hends := by
    obtain ⟨rfl, rfl⟩ := ends_enter.mp hends
    exact (h _).trans (List.append_nil _).symm

theorem pays_abort (stage : String) (e : FleetError) :
    (abort stage e : Conduct α).Pays label 0 where
  most h := by
    obtain ⟨rfl, -⟩ := ends_abort.mp h
    exact Nat.le_refl 0
  enters h := by
    obtain ⟨rfl, rfl⟩ := ends_abort.mp h
    exact (List.append_nil _).symm

/-- One part after another makes the payments of both. -/
theorem pays_bind {x : Conduct α} {f : α → Conduct β} (hx : x.Pays label m)
    (hf : ∀ a, (f a).Pays label n) : (x >>= f).Pays label (m + n) where
  most h := by
    obtain ⟨_, -, hfirst⟩ | ⟨l₁, l₂, a, mid, rfl, hfirst, hrest⟩ := ends_bind_cases h
    · exact Nat.le_add_right_of_le (hx.most hfirst)
    · rw [payments_append, List.length_append]
      exact Nat.add_le_add (hx.most hfirst) ((hf a).most hrest)
  enters h := by
    obtain ⟨_, rfl, hfirst⟩ | ⟨l₁, l₂, a, mid, rfl, hfirst, hrest⟩ := ends_bind_cases h
    · exact hx.enters hfirst
    · have hmid : mid.transfers = _ := hx.enters hfirst
      rw [(hf a).enters hrest, hmid, List.filterMap_append, List.append_assoc]

/-- What comes after a part without payments makes them all. -/
theorem pays_free_bind {x : Conduct α} {f : α → Conduct β} (hx : x.Pays label 0)
    (hf : ∀ a, (f a).Pays label n) : (x >>= f).Pays label n := by
  rw [← Nat.zero_add n]
  exact pays_bind hx hf

/-- A step that does not pay. -/
theorem pays_attempt {step : Step α} (h : Leaves Unpaid step) :
    (attempt step).Pays label 0 where
  most hends := by
    obtain ⟨result, hstep, -⟩ := ends_attempt.mp hends
    rw [Unpaid.payments_eq_nil (h _ _ hstep)]
    exact Nat.le_refl 0
  enters hends := by
    obtain ⟨result, hstep, rfl⟩ := ends_attempt.mp hends
    rw [Unpaid.transfers_eq_nil (h _ _ hstep), List.append_nil]
    rfl

theorem pays_need {stage : String} {step : Step α} (h : Leaves Unpaid step) :
    (need stage step).Pays label 0 := by
  refine pays_free_bind (pays_attempt h) fun result => ?_
  cases result with
  | ok a => exact pays_pure a
  | error e => exact pays_abort stage e

theorem pays_passed (stage : String) (host : Host) (detail? : Option String) :
    (passed stage host detail?).Pays label 0 := pays_enter fun _ => rfl

/-- A step that is needed on a host and does not pay, and then the rest. -/
theorem pays_needed {stage : String} {host : Host} {step : Step α} {detail : α → Option String}
    {f : α → Conduct β} (h : Leaves Unpaid step)
    (hf : ∀ a, (f a).Pays label n) :
    (do
      let a ← need stage step
      passed stage host (detail a)
      f a : Conduct β).Pays label n := by
  refine pays_free_bind (pays_need h) fun a => ?_
  exact pays_free_bind (pays_passed stage host (detail a)) fun _ => hf a

theorem pays_forM {hosts : List Host} {f : Host → Conduct Unit}
    (h : ∀ host, (f host).Pays label 0) : (hosts.forM f).Pays label 0 := by
  induction hosts with
  | nil => exact pays_pure ()
  | cons host rest ih => exact pays_free_bind (h host) fun _ => ih

theorem pays_mapM {hosts : List Host} {f : Host → Conduct β}
    (h : ∀ host, (f host).Pays label 0) : (hosts.mapM f).Pays label 0 := by
  induction hosts with
  | nil =>
    rw [List.mapM_nil]
    exact pays_pure []
  | cons host rest ih =>
    rw [List.mapM_cons]
    exact pays_free_bind (h host) fun _ => pays_free_bind ih fun _ => pays_pure _

/-- A procedure pays what its parts pay, and its report has the payments that were accepted. -/
theorem Pays.conclude {procedure : Procedure} {x : Conduct Unit} {l : Log} {report : Report}
    (hx : x.Pays label n) (h : (conclude procedure x).Yields l report) :
    l.payments.length ≤ n ∧ report.transfers = l.filterMap (Event.transfer? label) := by
  obtain ⟨r, hends, htransfers⟩ := Fleet.conclude_transfers h
  rw [htransfers, hx.enters hends]
  exact ⟨hx.most hends, rfl⟩

end Conduct

namespace Fleet

variable {fleet : Fleet}

/-! ## Cold restart -/

theorem stopHost_unpaid (host : Host) : Leaves Unpaid (fleet.stopHost host) :=
  leaves_mono (fun _ hl => hl.mono fun _ hr => hr.2) (stopHost_early host)

theorem wipe_unpaid (host : Host) : Leaves Unpaid (inSession host (fleet.wipe host)) :=
  leaves_mono (fun _ hl => hl.mono fun _ hr => hr.2) (wipe_early host)

theorem awaitConfirmation_unpaid (host : Host) (hash : String) :
    Leaves Unpaid (fleet.awaitConfirmation host hash) :=
  leaves_mono (fun _ hl => hl.mono fun _ hr => hr.2) (awaitConfirmation_early host hash)

theorem startHost_unpaid (wiped : Bool) (host : Host) :
    Leaves Unpaid (fleet.startHost wiped host) := by
  refine inSession_unpaid (leaves_mono (fun _ hl => hl.mono fun r hr => ?_)
    (fleet.startSteps_only host wiped))
  cases r with
  | run _ _ =>
    obtain ⟨-, ⟨rfl, -⟩ | ⟨rfl, -⟩ | rfl | ⟨rfl, -⟩⟩ := hr
    all_goals exact id
  | _ => exact id

theorem startMasternode_unpaid (masternode : Host) (key : String) :
    Leaves Unpaid (fleet.startMasternode masternode key) := by
  refine inSession_unpaid (leaves_bind (writeConfigFile_only id id) fun _ => ?_)
  exact leaves_bind (expect_only id) fun _ => settle_only id id

/-- A payment in a session of its own is tried at most once, and its result says whether it was
accepted. -/
theorem pay_yields {address : String} {amount : Amount} {l : Log} {r : Except FleetError String}
    (label : String)
    (h : (queryToken fleet.roster.main (fleet.command (.pay address amount))).run.Yields l r) :
    l.payments.length ≤ 1 ∧ l.filterMap (Event.transfer? label) =
      (r.toOption.map fun hash => (⟨label, address, amount, hash⟩ : Transfer)).toList := by
  obtain ⟨cause, rfl, rfl⟩ | ⟨inner, rfl, hinner⟩ := inSession_cases h
  · exact ⟨Nat.zero_le 1, rfl⟩
  · obtain ⟨answer, rfl, hresult⟩ := yields_expectToken hinner
    refine ⟨Nat.le_refl 1, ?_⟩
    rw [hresult]
    have hone : Event.transfer? label
        ⟨.run fleet.roster.main (fleet.command (.pay address amount)), answer⟩ =
          (acceptedHash? answer).map fun hash => ⟨label, address, amount, hash⟩ := rfl
    rw [session_transfers, List.filterMap_cons, hone]
    cases acceptedHash? answer with
    | none => rfl
    | some hash => rfl

/-- The collateral is sent once, and is entered if it was accepted. -/
theorem sendCollateral_ends {address : String} {amount : Amount} {before : Report} {l : Log}
    {r : Except Report (String × Report)}
    (h : (fleet.sendCollateral address amount).Ends before l r) :
    l.payments.length ≤ 1 ∧ (endReport r).transfers =
      before.transfers ++ l.filterMap (Event.transfer? fleet.control.name) := by
  unfold sendCollateral at h
  obtain ⟨_, rfl, hneed⟩ | ⟨l₁, l₂, hash, _, rfl, hneed, hpassed⟩ := Conduct.ends_bind_cases h
  · obtain ⟨e, hpay, rfl⟩ := Conduct.ends_need_error.mp hneed
    obtain ⟨hmost, htransfers⟩ := pay_yields fleet.control.name hpay
    rw [htransfers]
    exact ⟨hmost, (List.append_nil _).symm⟩
  · obtain ⟨hpay, rfl⟩ := Conduct.ends_need_ok.mp hneed
    obtain ⟨hmost, htransfers⟩ := pay_yields fleet.control.name hpay
    -- what follows enters the transfer and asks nothing
    obtain ⟨rfl, rfl⟩ : l₂ = [] ∧ r = _ := hpassed
    rw [List.append_nil, htransfers]
    exact ⟨hmost, rfl⟩

theorem sendCollateral_pays (address : String) (amount : Amount) :
    (fleet.sendCollateral address amount).Pays fleet.control.name 1 where
  most h := (sendCollateral_ends h).1
  enters h := (sendCollateral_ends h).2

theorem stopAll_pays {label : String} : fleet.stopAll.Pays label 0 := by
  refine Conduct.pays_free_bind (Conduct.pays_mapM fun host => ?_) fun results => ?_
  · refine Conduct.pays_free_bind
      (Conduct.pays_attempt (stopHost_unpaid host)) fun result => ?_
    refine Conduct.pays_free_bind (Conduct.pays_enter fun r => ?_) fun _ =>
      Conduct.pays_pure _
    cases result with
    | ok _ => rfl
    | error _ => rfl
  · split
    · exact Conduct.pays_abort _ _
    · exact Conduct.pays_pure ()

theorem wipeAll_pays {label : String} : fleet.wipeAll.Pays label 0 :=
  Conduct.pays_forM fun host =>
    Conduct.pays_free_bind (Conduct.pays_need (wipe_unpaid host)) fun _ =>
      Conduct.pays_passed _ _ _

theorem restartControl_pays {label : String} : fleet.restartControl.Pays label 0 := by
  unfold restartControl
  split
  · refine Conduct.pays_free_bind
      (Conduct.pays_need (stopHost_unpaid _)) fun _ => ?_
    exact Conduct.pays_free_bind (Conduct.pays_need (startHost_unpaid _ _)) fun _ =>
      Conduct.pays_passed _ _ _
  · exact Conduct.pays_pure ()

theorem provision_pays (amount : Amount) :
    (fleet.provision amount).Pays fleet.control.name 1 := by
  refine Conduct.pays_needed (inSession_unpaid (expectToken_only id)) fun key => ?_
  refine Conduct.pays_needed (inSession_unpaid (expectToken_only id)) fun address => ?_
  refine Conduct.pays_bind (m := 1) (n := 0) (sendCollateral_pays address amount) fun hash => ?_
  exact Conduct.pays_needed (awaitConfirmation_unpaid _ hash) fun _ =>
    Conduct.pays_pure _

theorem listMasternode_pays (masternode : Host) (amount : Amount) :
    (fleet.listMasternode masternode amount).Pays fleet.control.name 1 := by
  refine Conduct.pays_bind (m := 1) (n := 0) (provision_pays amount) fun provisioned => ?_
  obtain ⟨provisioning, hash, attempts⟩ := provisioned
  dsimp only
  split
  · exact Conduct.pays_abort _ _
  · exact Conduct.pays_needed (inSession_unpaid (writeConfigFile_only id id)) fun _ =>
      Conduct.pays_pure _

theorem startListed_pays {label : String} (masternode : Host) (provisioning : Provisioning) :
    (fleet.startListed masternode provisioning).Pays label 0 := by
  refine Conduct.pays_needed (startMasternode_unpaid _ _) fun _ => ?_
  refine Conduct.pays_needed (inSession_unpaid (expect_only id)) fun _ => ?_
  refine Conduct.pays_free_bind
    (Conduct.pays_need (inSession_unpaid (expect_only id))) fun _ => ?_
  exact Conduct.pays_passed _ _ _

theorem coldStages_pays (wiped : Bool) (amount : Amount) (masternode : Host) :
    (fleet.coldStages wiped amount masternode).Pays fleet.control.name 1 := by
  have hstart : (do
      Conduct.need "start-main" (fleet.startHost false fleet.roster.main)
      Conduct.passed "start-main" fleet.roster.main none
      Conduct.need "bootstrap-settle" (settle (.ofSeconds fleet.config.timing.bootstrapSettle))
      fleet.restartControl
      let provisioning ← fleet.listMasternode masternode amount
      fleet.startListed masternode provisioning).Pays fleet.control.name 1 := by
    refine Conduct.pays_needed (startHost_unpaid _ _) fun _ => ?_
    refine Conduct.pays_free_bind
      (Conduct.pays_need (settle_only id id)) fun _ => ?_
    refine Conduct.pays_free_bind restartControl_pays fun _ => ?_
    exact Conduct.pays_bind (m := 1) (n := 0) (listMasternode_pays _ _) fun provisioning =>
      startListed_pays masternode provisioning
  refine Conduct.pays_free_bind stopAll_pays fun _ => ?_
  split
  · exact Conduct.pays_free_bind wipeAll_pays fun _ => hstart
  · exact hstart

/-- A cold restart pays at most once, and its report has that payment if it was accepted. -/
theorem coldRestart_pays {wiped : Bool} {requested? : Option Amount} {l : Log} {report : Report}
    (h : (fleet.coldRestart wiped requested?).Yields l report) :
    l.payments.length ≤ 1 ∧
      report.transfers = l.filterMap (Event.transfer? fleet.control.name) := by
  refine Conduct.Pays.conclude ?_ h
  refine Conduct.pays_free_bind (Conduct.pays_need (leaves_ofExcept _)) fun amount => ?_
  split
  · exact (Conduct.pays_abort _ _).mono (Nat.zero_le 1)
  · exact coldStages_pays _ _ _

/-- Funds are sent once, and every sum that was sent is entered.  A transfer asks every host for its
address, and then sends the one amount in one session to the main host, once to each destination and
whatever is answered.  A cold restart sends a sum at most once.  In the reports of both stand, in
their order, exactly the sums that were accepted, also when the procedure was aborted afterwards. -/
theorem payments_once {σ : Type} (fleet : Fleet) (world : World σ) (s : σ) :
    (∀ hosts addresses requested?,
      fleet.Transfers hosts addresses requested?
        ((fleet.transfer hosts addresses requested?).log world s)
        ((fleet.transfer hosts addresses requested?).run world s).1.transfers) ∧
    ∀ wiped requested?,
      ((fleet.coldRestart wiped requested?).log world s).payments.length ≤ 1 ∧
      ((fleet.coldRestart wiped requested?).run world s).1.transfers =
        ((fleet.coldRestart wiped requested?).log world s).filterMap
          (Event.transfer? fleet.control.name) := by
  constructor
  · intro hosts addresses requested?
    exact transfer_transfers (Program.yields_log world _ s)
  · intro wiped requested?
    exact coldRestart_pays (Program.yields_log world _ s)

end Fleet

end NodeFleet
