import NodeFleet.Proofs.Payments
import NodeFleet.Proofs.Phases
import NodeFleet.Proofs.Replying
import NodeFleet.Proofs.Rosters
import NodeFleet.Proofs.Selecting

/-!
# NodeFleet.Proofs.Destinations — the sum of a transfer, and where it goes

The tokens of a transfer select hosts first.  Of those that select none, the first number is the sum
and what is no number is an address; so a number that is a part of a host's name selects that host
and is not the sum.

* `Fleet.typedSum?`, `amount_typed`: the sum that tokens call for.
* `Fleet.Goes`: where a payment goes.  `Fleet.Sends.payments`, `derived_source`: the payments of a
  transfer, and the addresses that hosts gave.
* `Fleet.transfer_follows_tokens`: transfers without a sum of their own.
-/

namespace NodeFleet

/-! ## The sum -/

/-- The number above zero that a token stands for, if it does. -/
def positiveNumber? (token : String) : Option Amount :=
  (Amount.read? token).filter Amount.isPositive

theorem positiveNumber?_eq (token : String) :
    positiveNumber? token = (finiteNumber? token).filter Amount.isPositive := by
  unfold positiveNumber? finiteNumber?
  cases Amount.read? token with
  | none => rfl
  | some amount =>
    cases amount with
    | finite negative units => rfl
    | _ => rfl

/-- If the first finite number is above zero, it is the first number above zero. -/
theorem findSome?_positiveNumber {tokens : List String}
    (h : ∀ amount, tokens.findSome? finiteNumber? = some amount → amount.isPositive = true) :
    tokens.findSome? positiveNumber? = tokens.findSome? finiteNumber? := by
  induction tokens with
  | nil => rfl
  | cons token rest ih =>
    rw [List.findSome?_cons, List.findSome?_cons, positiveNumber?_eq]
    rw [List.findSome?_cons] at h
    cases hfinite : finiteNumber? token with
    | none =>
      rw [hfinite] at h
      exact ih h
    | some amount =>
      rw [hfinite] at h
      rw [Option.filter_some, if_pos (h amount rfl)]

namespace Fleet

variable {fleet : Fleet} {tokens : List String} {amount : Amount}
  {destinations : List Destination} {derived : List (Host × Except FleetError String)}
  {transfers : List Transfer} {l : Log}

/-- The first number above zero among the tokens that select no host. -/
def typedSum? (fleet : Fleet) (tokens : List String) : Option Amount :=
  (tokens.filter fleet.roster.isFree).findSome? positiveNumber?

/-- A sum that is accepted is the typed one, or else the configured one. -/
theorem amount_typed
    (h : fleet.amount (Payment.ofTokens none (fleet.roster.resolve tokens).free).amount? =
      .ok amount) :
    amount = (fleet.typedSum? tokens).getD fleet.config.collateral := by
  rw [Payment.ofTokens_amount?, Roster.resolve_free, Option.none_or] at h
  obtain ⟨rfl, hpositive⟩ := amount_eq_ok.mp h
  unfold typedSum?
  rw [findSome?_positiveNumber]
  intro typed htyped
  rwa [htyped] at hpositive

/-! ## The destinations -/

/-- Tokens call for a payment to an address: it is among those that select no host and is no number,
or a host that they select gave it when it was asked. -/
def Goes (fleet : Fleet) (tokens : List String) (l : Log) (address : String) : Prop :=
  (address ∈ tokens.filter fleet.roster.isFree ∧ isRawAddress address = true) ∨
    ∃ host ∈ fleet.roster.selected tokens, ∃ reply,
      ⟨.run host (fleet.command (.accountAddress "")), .ok reply⟩ ∈ l ∧ token reply = .ok address

/-- The sum is paid to destinations. -/
theorem Sends.payments (h : fleet.Sends amount destinations l transfers) :
    ∀ p ∈ l.payments, p.2 = amount ∧ ∃ d ∈ destinations, p.1 = d.address := by
  cases h with
  | nowhere h => exact List.forall_mem_nil _
  | refused h cause => exact List.forall_mem_nil _
  | sent h sends hall =>
    intro p hp
    obtain ⟨e, he, hpaid⟩ := List.mem_filterMap.mp hp
    obtain rfl | he | rfl := mem_session.mp he
    · cases hpaid
    · obtain ⟨send, hsend, rfl⟩ := List.mem_map.mp he
      cases hpaid
      exact ⟨rfl, send.1, hall ▸ List.mem_map_of_mem hsend, rfl⟩
    · cases hpaid

/-- For its payments a transfer connects to the main host, unless there are none to be made. -/
theorem Sends.connections (h : fleet.Sends amount destinations l transfers) :
    l.connections = [] ∨ l.connections = [fleet.roster.main] := by
  cases h with
  | nowhere h => exact .inl rfl
  | refused h cause => exact .inr rfl
  | sent h sends hall =>
    refine .inr (connections_session fun e he => ?_)
    obtain ⟨send, -, rfl⟩ := List.mem_map.mp he
    exact nofun

/-- The address of a destination that is a host is what the host gave when it was asked. -/
theorem derived_source
    (h : Visits (fun host => queryToken host (fleet.command (.accountAddress ""))) derived l)
    {d : Destination} (hd : d ∈ derived.filterMap derived?) :
    ∃ host ∈ derived.map Prod.fst, ∃ reply,
      ⟨.run host (fleet.command (.accountAddress "")), .ok reply⟩ ∈ l ∧
        token reply = .ok d.address := by
  obtain ⟨⟨host, result⟩, hvisit, hgiven⟩ := List.mem_filterMap.mp hd
  obtain ⟨address, hresult, rfl⟩ := Option.map_eq_some_iff.mp hgiven
  obtain ⟨l₁, l₂, l₃, rfl, hasked⟩ := h.of_mem hvisit
  refine ⟨host, List.mem_map_of_mem hvisit, ?_⟩
  -- a host that is not reached gives no address
  obtain ⟨cause, rfl, rfl⟩ | ⟨inner, rfl, hinner⟩ := inSession_cases hasked
  · cases hresult
  · obtain ⟨answer, rfl, hword⟩ := yields_expectToken hinner
    rw [hword] at hresult
    cases answer with
    | error cause => cases hresult
    | ok reply =>
      refine ⟨reply, ?_, ?_⟩
      · exact List.mem_append_right l₁ (List.mem_append_left l₃
          (mem_session.mpr (.inr (.inl List.mem_cons_self))))
      · change (token reply).toOption = some address at hresult
        cases hreply : token reply with
        | error reason => rw [hreply] at hresult; cases hresult
        | ok word => rw [hreply] at hresult; cases hresult; rfl

/-! ## Transfers -/

/-- The hosts that are selected are asked for their addresses, and then the sum is paid. -/
theorem transferTo_goes {report : Report} (h : (fleet.transferTo tokens none).Yields l report) :
    (∀ p ∈ l.payments,
      p.2 = (fleet.typedSum? tokens).getD fleet.config.collateral ∧ fleet.Goes tokens l p.1) ∧
    (l = [] ∨ l.connections = fleet.roster.selected tokens ∨
      l.connections = fleet.roster.selected tokens ++ [fleet.roster.main]) := by
  obtain ⟨transfers, htransfers⟩ : ∃ transfers, fleet.Transfers _ _ _ l transfers :=
    ⟨_, transfer_transfers h⟩
  -- the payments come after all the questions for addresses, which pay nothing
  cases htransfers with
  | unasked _ => exact ⟨List.forall_mem_nil _, .inl rfl⟩
  | @asked amount derived l₁ l₂ transfers hamount hvisits hall hunpaid hsends =>
    rw [Roster.resolve_hosts] at hall
    constructor
    · intro p hp
      rw [payments_append, hunpaid.payments_eq_nil, List.nil_append] at hp
      obtain ⟨hsum, d, hd, haddress⟩ := hsends.payments p hp
      refine ⟨hsum.trans (amount_typed hamount), ?_⟩
      rw [haddress]
      obtain hd | hd := List.mem_append.mp hd
      · obtain ⟨host, hhost, reply, hasked, hreply⟩ := derived_source hvisits hd
        exact .inr ⟨host, hall ▸ hhost, reply, List.mem_append_left l₂ hasked, hreply⟩
      · obtain ⟨address, hgiven, rfl⟩ := List.mem_map.mp hd
        rw [Payment.ofTokens_addresses, Roster.resolve_free] at hgiven
        exact .inl (List.mem_filter.mp hgiven)
    · have hquiet (host : Host) : Leaves (Only fun r => ¬ r.Connects)
          (expectToken host (fleet.command (.accountAddress ""))) := expectToken_only nofun
      have hfirst : l₁.connections = fleet.roster.selected tokens :=
        (hvisits.connections fun host _ _ hvisit =>
          inSession_connections (hquiet host) (fun _ => id) hvisit).trans hall
      rw [connections_append, hfirst]
      obtain hnone | hmain := hsends.connections
      · exact .inr (.inl (by rw [hnone, List.append_nil]))
      · exact .inr (.inr (by rw [hmain]))

/-- A transfer without a sum of its own.  Every payment is of the first number above zero that
selects no host, and of the configured sum if there is none; it goes to an address among the other
free tokens, or to the one that a selected host gave.  The transfer connects to the hosts that are
selected by the tokens that are not free, and to the main host for the payments, if it connects at
all; and a token that is no host's name or address selects the hosts whose names it is a part of. -/
theorem transfer_follows_tokens {σ : Type} (fleet : Fleet) (world : World σ) (s : σ)
    (tokens : List String) :
    (∀ p ∈ ((fleet.program (.transfer tokens none)).log world s).payments,
      p.2 = (fleet.typedSum? tokens).getD fleet.config.collateral ∧
      fleet.Goes tokens ((fleet.program (.transfer tokens none)).log world s) p.1) ∧
    ((fleet.program (.transfer tokens none)).log world s = [] ∨
      ∃ last, (last = [] ∨ last = [fleet.roster.main]) ∧
        ((fleet.program (.transfer tokens none)).log world s).connections =
          fleet.roster.selected (tokens.filter fun token => !fleet.roster.isFree token) ++ last) ∧
    ∀ token ∈ tokens, fleet.roster.entries.all (fun host => !host.answersTo token) = true →
      ∀ host, host ∈ fleet.roster.matching token ↔
        host ∈ fleet.roster.entries ∧ token ≠ "" ∧ Text.occursIn token host.name = true := by
  obtain ⟨hpayments, hconnections⟩ :=
    transferTo_goes (Program.yields_log world (fleet.transferTo tokens none) s)
  refine ⟨hpayments, ?_, fun token _ hnamed host => Roster.mem_matching_iff hnamed⟩
  rw [Roster.selected_filter]
  obtain hnone | hhosts | hall := hconnections
  · exact .inl hnone
  · exact .inr ⟨[], .inl rfl, hhosts.trans (List.append_nil _).symm⟩
  · exact .inr ⟨[fleet.roster.main], .inr rfl, hall⟩

/-- A host, a sum and an address: both payments are of that sum. -/
theorem transfer_follows_tokens_pair :
    pair.typedSum? ["mn", "250", "DrawAddress9"] = some (.ofNat 250) ∧
    ((pair.program (.transfer ["mn", "250", "DrawAddress9"] none)).log
      (.replying fun _ => Task.agreed) ()).payments.map Prod.fst = ["address", "DrawAddress9"] ∧
    ∀ p ∈ ((pair.program (.transfer ["mn", "250", "DrawAddress9"] none)).log
      (.replying fun _ => Task.agreed) ()).payments, p.2 = .ofNat 250 := by
  have htyped : pair.typedSum? ["mn", "250", "DrawAddress9"] = some (.ofNat 250) := by
    decide +kernel
  refine ⟨htyped, by decide +kernel, fun p hp => ?_⟩
  have hsum := ((transfer_follows_tokens pair (.replying fun _ => Task.agreed) ()
    ["mn", "250", "DrawAddress9"]).1 p hp).1
  rwa [htyped, Option.getD_some] at hsum

end Fleet

/-- The description of a main host and of a masternode whose names end in a digit, with no waits. -/
def Config.numbered : Config :=
  { Config.ofMain (.plain "stake1" "10.0.0.1") with
    password? := some "word"
    masternodes := [.plain "mn1" "10.0.0.2"]
    timing := .immediate }

/-- The two hosts with a digit in their names. -/
def Roster.numbered : Roster where
  main := { Roster.pair.main with name := "stake1" }
  others := [⟨"mn1", "10.0.0.2", .masternode, "root", .password "word", 22⟩]

theorem Roster.ofConfig_numbered : Roster.ofConfig .numbered = .ok .numbered :=
  Roster.ofConfig_ok (by decide +kernel) rfl rfl rfl rfl rfl

/-- A main host and a masternode whose names end in a digit. -/
def Fleet.numbered : Fleet := ⟨.numbered, .numbered, false, Roster.ofConfig_numbered⟩

namespace Fleet

/-- The one is no host's name or address, but a part of both hosts' names: it is not the sum, and
both hosts are sent the configured one. -/
theorem number_selects_hosts :
    (["mn1", "1"].filter fun token =>
      numbered.roster.entries.all fun host => !host.answersTo token).findSome? positiveNumber? =
        some (.ofNat 1) ∧
    numbered.config.collateral ≠ .ofNat 1 ∧
    ((numbered.program (.transfer ["mn1", "1"] none)).log
      (.replying fun _ => Task.agreed) ()).payments =
        List.replicate 2 ("address", numbered.config.collateral) ∧
    ((numbered.program (.transfer ["mn1", "1"] none)).log
      (.replying fun _ => Task.agreed) ()).connections =
        numbered.roster.others ++ [numbered.roster.main, numbered.roster.main] ∧
    numbered.roster.selected ["mn1"] = numbered.roster.others := by
  decide +kernel

end Fleet

end NodeFleet
