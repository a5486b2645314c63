import Mathlib.Data.List.Basic
import NodeFleet.Proofs.Payments
import NodeFleet.Proofs.Polling

/-!
# NodeFleet.Proofs.Confirming — the collateral is awaited until it is first seen

The control wallet is polled until one of its listings holds the hash of the payment; polls that
cannot reach it count, and have not seen the payment.

* `Inquiry.sees`: whether a poll has seen a payment.
* `Fleet.Awaited`: the polls that were made, and how they ended.
* `Fleet.awaitConfirmation_calm`: a confirmation that is neither cancelled nor out of time.
* `Fleet.coldLine_endsUnconfirmed`: a cold restart whose payment is never seen.
* `Fleet.confirmation_stops`: the first sighting ends the polls, and nothing else but their bound.
-/

namespace NodeFleet

/-- Whether a poll has seen the payment. -/
def Inquiry.sees (hash : String) : Inquiry → Bool
  | answered reply => confirms reply hash
  | _ => false

/-- The empty hash is seen in no listing. -/
theorem not_confirms_empty (reply : Reply) : confirms reply "" = false := rfl

namespace Fleet

variable {fleet : Fleet} {host : Host} {hash : String} {l : Log}

/-- A poll has seen the payment when its answer is read so. -/
theorem sees_iff {i : Inquiry} :
    i.sees hash = true ↔ i.reading? (.outputs hash) = some (.confirmed true) := by
  cases i with
  | answered reply => simp [Inquiry.sees, Inquiry.reading?, ReplyKind.read, Reading.refusal?]
  | _ => simp [Inquiry.sees, Inquiry.reading?]

/-- One poll of the control wallet. -/
theorem lists_inquiry {seen? : Option Unit} (h : (fleet.lists host hash).Yields l seen?) :
    ∃ i : Inquiry, l = i.log host (fleet.command .outputs) ∧
      seen? = if i.sees hash then some () else none := by
  obtain ⟨l₁, l₂, result, rfl, hquery, hseen⟩ := Program.yields_bind.mp h
  obtain ⟨i, rfl, hread⟩ := Inquiry.of_query hquery
  split at hseen
  · obtain ⟨rfl, rfl⟩ := Program.yields_pure.mp hseen
    exact ⟨i, List.append_nil _, by rw [if_pos (sees_iff.mpr hread.symm)]⟩
  · rename_i hother
    obtain ⟨rfl, rfl⟩ := Program.yields_pure.mp hseen
    refine ⟨i, List.append_nil _, ?_⟩
    rw [if_neg fun hsees => ?_]
    rw [sees_iff, ← hread] at hsees
    cases result with
    | ok reading => exact hother (congrArg Except.ok (Option.some.inj hsees))
    | error e => cases hsees

/-- The polls that were made, and what they came to: the last saw the payment, and none before it;
or none saw it, and no more were granted. -/
inductive Awaited (hash : String) (bound : Nat) : List Inquiry → Except FleetError Nat → Prop
  | seen {earlier : List Inquiry} {i : Inquiry} (hearlier : ∀ j ∈ earlier, j.sees hash = false)
    (hseen : i.sees hash = true) (hgranted : earlier.length + 1 ≤ bound) :
    Awaited hash bound (earlier ++ [i]) (.ok (earlier.length + 1))
  | unseen {polls : List Inquiry} (hpolls : ∀ j ∈ polls, j.sees hash = false)
    (hspent : polls.length = bound) :
    Awaited hash bound polls (.error (.unconfirmed (awaitedTransaction hash) bound))

/-- The log of polls of one host: they are made one after the other, and the interval is waited out
between them. -/
structure PolledBy (fleet : Fleet) (host : Host) (polls : List Inquiry) (l : Log) : Prop where
  inquiries : l.inquiries = polls
  connections : l.connections = List.replicate polls.length host
  apart {before middle after : Log} {x y : Event} :
    l = before ++ x :: (middle ++ y :: after) → ¬ x.request.IsAside → y.request.Connects →
      fleet.config.timing.poll.policy.interval.millis ≤ Log.waited middle

theorem polledBy_poll {polls : List Inquiry}
    (h : Log.IsPoll fleet.config.timing.poll.policy.interval
      (polls.map (Inquiry.log host (fleet.command .outputs))) l) : fleet.PolledBy host polls l where
  inquiries := by
    have hone : ∀ i ∈ polls, (i.log host (fleet.command .outputs)).inquiries = [i] :=
      fun i _ => i.inquiries_log host _
    rw [Log.inquiries, h.filterMap Event.inquiry?_aside, List.flatMap_map]
    exact (List.flatMap_congr hone).trans (List.flatMap_singleton' polls)
  connections := by
    have hone : ∀ i ∈ polls, (i.log host (fleet.command .outputs)).connections = [host] :=
      fun i _ => i.connections_log host _
    rw [Log.connections, h.filterMap Request.connection?_aside, List.flatMap_map,
      ← List.map_const', List.map_eq_flatMap]
    exact List.flatMap_congr hone
  apart := h.apart (List.forall_mem_map.mpr fun i _ => i.opensFirst_log host _)

/-- A confirmation that is neither cancelled nor out of time. -/
theorem awaitConfirmation_calm {r : Except FleetError Nat}
    (hdeadline : fleet.config.timing.poll.deadlineSeconds? = none)
    (h : (fleet.awaitConfirmation host hash).run.Yields l r) (hcalm : Calm l) :
    ∃ polls, fleet.PolledBy host polls l ∧
      Awaited hash fleet.config.timing.poll.policy.bound polls r := by
  have unseen {j : Inquiry} (hj : (if j.sees hash then some () else none) = none) :
      j.sees hash = false := by simpa using hj
  obtain ⟨k, _, result, rfl, hpoll, hresult⟩ := Program.yields_bind.mp h
  obtain ⟨polls, ended, hlog, hended, rfl⟩ :=
    poll_calm (fun _ _ => lists_inquiry) hdeadline hpoll (calm_append.mp hcalm).1
  cases hended with
  | @answered earlier i a hearlier hsome hgranted =>
    obtain ⟨rfl, rfl⟩ := Program.yields_pure.mp hresult
    rw [Nat.zero_add] at hgranted
    rw [List.append_nil, Nat.zero_add]
    exact ⟨_, polledBy_poll hlog,
      .seen (fun j hj => unseen (hearlier j hj)) (by simpa using hsome) hgranted⟩
  | exhausted hpolls hspent =>
    obtain ⟨rfl, rfl⟩ := Program.yields_pure.mp hresult
    rw [List.append_nil]
    exact ⟨polls, polledBy_poll hlog,
      .unseen (fun j hj => unseen (hpolls j hj)) (by omega)⟩

/-- Whatever the polls come to, the first that sees the payment ends them, if it is granted. -/
theorem Awaited.first {bound : Nat} {polls : List Inquiry} {r : Except FleetError Nat}
    {results : Nat → Inquiry} (h : Awaited hash bound polls r)
    (hresults : ∀ k i, polls[k]? = some i → i = results k) :
    (∀ n < bound, (results n).sees hash = true → (∀ k < n, (results k).sees hash = false) →
      r = .ok (n + 1) ∧ polls.length = n + 1) ∧
    ((∀ k < bound, (results k).sees hash = false) →
      r = .error (.unconfirmed (awaitedTransaction hash) bound) ∧ polls.length = bound) := by
  -- the results say what the polls have seen, as far as there are polls
  have unseen {k : Nat} {earlier : List Inquiry} (hearlier : ∀ j ∈ earlier, j.sees hash = false)
      (hk : k < earlier.length) (hpoll : polls[k]? = earlier[k]?) :
      (results k).sees hash = false := by
    rw [List.getElem?_eq_getElem hk] at hpoll
    rw [← hresults k _ hpoll]
    exact hearlier _ (List.getElem_mem hk)
  cases h with
  | @seen earlier i hearlier hseen hgranted =>
    have hlast : i = results earlier.length := hresults _ _ (by simp)
    have hunseen {k : Nat} (hk : k < earlier.length) : (results k).sees hash = false :=
      unseen hearlier hk (List.getElem?_append_left hk)
    subst hlast
    refine ⟨fun n hn hsees hfirst => ?_, fun hnone => ?_⟩
    -- only where they are the same number is neither sighting too early for the other
    · obtain hlt | rfl | hgt := Nat.lt_trichotomy n earlier.length
      · exact absurd hsees (by simp [hunseen hlt])
      · exact ⟨rfl, by simp⟩
      · exact absurd hseen (by simp [hfirst _ hgt])
    · exact absurd hseen (by simp [hnone _ (Nat.lt_of_succ_le hgranted)])
  | unseen hpolls hspent =>
    refine ⟨fun n hn hsees _ => ?_, fun _ => ⟨rfl, hspent⟩⟩
    exact absurd hsees (by simp [unseen hpolls (by omega : n < polls.length) rfl])

/-! ## A payment that is never seen -/

/-- No masternode is listed or started: the only files are node configurations of hosts that are
started. -/
def IsUnlisted (fleet : Fleet) : Request → Prop
  | .write host path contents => path = fleet.daemon.confPath ∧
      contents = (fleet.stakingConfig host).render.toUTF8
  | r => ¬ r.StartsMasternode

/-- What may be asked before the collateral is sent. -/
def IsPrelude (fleet : Fleet) (r : Request) : Prop := fleet.IsUnlisted r ∧ ¬ r.IsPay

theorem prelude_sessions :
    HoldsOfSessions (fun _ => fleet.IsPrelude) (Only fleet.IsPrelude) := by
  refine holdsOfSessions_only (fun r hr => ?_) (fun _ => ⟨id, id⟩) fun _ => ⟨id, id⟩
  cases r with
  | run _ _ | write _ _ _ => exact absurd hr id
  | _ => exact ⟨id, id⟩

theorem stopHost_prelude (host : Host) : Leaves (Only fleet.IsPrelude) (fleet.stopHost host) := by
  refine leaves_mono (fun _ hl => hl.mono fun r hr => ?_) fleet.stopHost_only
  obtain rfl | rfl | rfl | rfl | ⟨delay, rfl⟩ := fleet.stop_cases hr
  all_goals exact ⟨id, id⟩

theorem startHost_prelude (host : Host) :
    Leaves (Only fleet.IsPrelude) (fleet.startHost false host) := by
  refine fleet.startHost_leaves prelude_sessions fun r hr => ?_
  cases r with
  | run _ _ =>
    obtain ⟨-, ⟨rfl, -⟩ | ⟨rfl, -⟩ | rfl | ⟨rfl, -⟩⟩ := hr
    all_goals exact ⟨id, id⟩
  | write _ _ _ =>
    obtain ⟨rfl, -, rfl, rfl⟩ := hr
    exact ⟨⟨rfl, rfl⟩, id⟩
  | _ => exact ⟨id, id⟩

/-- What holds of the stages from the key on, with or without others before them, holds of the whole
line. -/
theorem coldLine_beyond (P : Log → Option (String × FleetError) → Prop)
    (hnone : ∀ l end?, Only fleet.IsPrelude l → P l end?)
    (hprepend : ∀ l₁ l end?, Only fleet.IsPrelude l₁ → P l end? → P (l₁ ++ l) end?)
    (hlist : ∀ amount masternode l records end?,
      (fleet.listLine amount masternode).Runs l records end? → P l end?)
    {wiped : Bool} {requested? : Option Amount} {records : List StageRecord}
    {end? : Option (String × FleetError)}
    (h : (fleet.coldLine wiped requested?).Runs l records end?) : P l end? := by
  -- a stage before the key ends the line, or is one more piece before the rest
  have beyond {α : Type} {s : Stage α} {next : α → Line} {l : Log} {records : List StageRecord}
      {end? : Option (String × FleetError)} (h : Line.Runs (.stage s next) l records end?)
      (hs : s.Asks fleet.IsPrelude)
      (hnext : ∀ a l records end?, (next a).Runs l records end? → P l end?) : P l end? := by
    obtain hprelude | ⟨l₁, l₂, r₁, r₂, a, rfl, hprelude, -, hrest⟩ := h.beyond hs
    · exact hnone _ _ hprelude
    · exact hprepend _ _ _ hprelude (hnext a l₂ r₂ end? hrest)
  obtain rfl | ⟨amount, -, h⟩ := runs_known h
  · exact hnone _ _ Composes.nil
  obtain rfl | ⟨masternode, -, h⟩ := runs_known h
  · exact hnone _ _ Composes.nil
  have hcontrol (l : Log) (records : List StageRecord) (end? : Option (String × FleetError))
      (h : (fleet.controlLine amount masternode).Runs l records end?) : P l end? := by
    unfold controlLine at h
    split at h
    · refine beyond h (Stage.asks_on ?_) fun _ => hlist amount masternode
      exact leaves_bind (stopHost_prelude _) fun _ => startHost_prelude _
    · exact hlist amount masternode l records end? h
  have hmain (l : Log) (records : List StageRecord) (end? : Option (String × FleetError))
      (h : (fleet.mainLine amount masternode).Runs l records end?) : P l end? :=
    beyond h (Stage.asks_on (startHost_prelude _)) fun _ _ _ _ h =>
      beyond h (Stage.asks_silent (prelude_sessions.settle _)) fun _ => hcontrol
  refine beyond h (Stage.asks_collected stopHost_prelude) fun _ l records end? h => ?_
  unfold wipeLine at h
  split at h
  · exact beyond h (Stage.asks_inTurn fun host => fleet.wipe_leaves prelude_sessions ⟨id, id⟩)
      fun _ => hmain
  · exact hmain l records end? h

/-- Where the main host accepts a payment that the control wallet is never seen to list, the
procedure ends with the confirmation of that payment, after as many polls as its policy grants, and
lists no masternode. -/
def EndsUnconfirmed (fleet : Fleet) (l : Log) (end? : Option (String × FleetError)) : Prop :=
  ∀ before address amount reply hash after,
    l = before ++
      ⟨.run fleet.roster.main (fleet.command (.pay address amount)), .ok reply⟩ :: after →
    token reply = .ok hash →
    (∀ listing, ⟨.run fleet.control (fleet.command .outputs), .ok listing⟩ ∈ after →
      confirms listing hash = false) →
    Only fleet.IsUnlisted l ∧ end? = some ("confirm-collateral",
        .unconfirmed (awaitedTransaction hash) fleet.config.timing.poll.policy.bound) ∧
      Log.connections after =
        List.replicate fleet.config.timing.poll.policy.bound fleet.control

theorem endsUnconfirmed_unpaid {end? : Option (String × FleetError)} (h : Unpaid l) :
    fleet.EndsUnconfirmed l end? := by
  rintro before address amount reply hash after rfl - -
  exact absurd trivial (h _ (List.mem_append_right _ List.mem_cons_self))

theorem EndsUnconfirmed.prepend {l₁ : Log} {end? : Option (String × FleetError)}
    (h₁ : Only fleet.IsPrelude l₁) (h : fleet.EndsUnconfirmed l end?) :
    fleet.EndsUnconfirmed (l₁ ++ l) end? := by
  intro before address amount reply hash after hl hhash hunseen
  obtain ⟨mid, rfl, hmid⟩ | ⟨rest, rfl, -⟩ := split_append hl
  · obtain ⟨hunlisted, hend, hpolls⟩ := h mid address amount reply hash after hmid hhash hunseen
    exact ⟨Composes.append (h₁.mono fun _ hr => hr.1) hunlisted, hend, hpolls⟩
  · exact absurd trivial (h₁ _ (List.mem_append_right _ List.mem_cons_self)).2

/-- A command that generates a word, and where it stands in its session. -/
theorem queryToken_split {command other : Command} {host' : Host} {before after : Log}
    {answer : Except RemoteError Reply} {r : Except FleetError String}
    (h : (queryToken host command).run.Yields l r)
    (hl : l = before ++ ⟨.run host' other, answer⟩ :: after) :
    r.toOption = acceptedHash? answer ∧ after = [⟨.close host, ()⟩] := by
  obtain ⟨cause, rfl, -⟩ | ⟨inner, rfl, hinner⟩ := inSession_cases h
  · obtain ⟨-, hfirst⟩ | ⟨_, -, hnone⟩ := List.cons_eq_append_iff.mp hl
    · cases hfirst
    · simp at hnone
  · obtain ⟨sent, rfl, hresult⟩ := yields_expectToken hinner
    obtain ⟨-, hfirst⟩ | ⟨mid, -, hrest⟩ := List.cons_eq_append_iff.mp hl
    · cases hfirst
    obtain ⟨-, hsent⟩ | ⟨mid', -, hclosed⟩ := List.cons_eq_append_iff.mp hrest
    · cases hsent
      exact ⟨hresult, rfl⟩
    · obtain ⟨-, hclose⟩ | ⟨_, -, hnone⟩ := List.cons_eq_append_iff.mp hclosed
      · cases hclose
      · simp at hnone

/-- From the confirmation on nothing is paid. -/
theorem confirmLine_unpaid (masternode : Host) (key hash : String) :
    (Line.stage (.on "confirm-collateral" fleet.control
      (fun attempts => some ("confirmed after " ++ toString attempts ++ " polls"))
      (fleet.awaitConfirmation fleet.control hash)) fun _ =>
    .stage (.on "masternode-conf" fleet.control
      (fun _ => some (fleet.masternodeLine masternode key hash))
      (fleet.writeMasternodeList (fleet.masternodeLine masternode key hash))) fun _ =>
    fleet.startLine masternode key).Asks fun r => ¬ r.IsPay := by
  refine Line.asks_stage (Stage.asks_on (awaitConfirmation_unpaid _ hash)) fun _ => ?_
  refine Line.asks_stage (Stage.asks_on (inSession_unpaid (writeConfigFile_only id id))) fun _ => ?_
  refine Line.asks_stage (Stage.asks_on (startMasternode_unpaid masternode key)) fun _ => ?_
  refine Line.asks_stage (Stage.asks_on (inSession_unpaid (expect_only id))) fun _ => ?_
  exact Line.asks_stage (Stage.asks_on (inSession_unpaid (expect_only id))) fun _ =>
    Line.asks_finished

theorem awaitConfirmation_prelude (host : Host) (hash : String) :
    Leaves (Only fleet.IsPrelude) (fleet.awaitConfirmation host hash) :=
  fleet.awaitConfirmation_leaves prelude_sessions ⟨id, id⟩ hash

theorem listLine_endsUnconfirmed (hdeadline : fleet.config.timing.poll.deadlineSeconds? = none)
    {amount : Amount} {masternode : Host} {records : List StageRecord}
    {end? : Option (String × FleetError)}
    (h : (fleet.listLine amount masternode).Runs l records end?) (hcalm : Calm l) :
    fleet.EndsUnconfirmed l end? := by
  have hprelude : ∀ task, fleet.IsPrelude (.run fleet.control (fleet.command task)) →
      Leaves (Only fleet.IsPrelude) (queryToken fleet.control (fleet.command task)) :=
    fun _ => prelude_sessions.queryToken
  obtain hl | ⟨l₁, m₁, _, _, key, rfl, h₁, -, hfund⟩ :=
    h.beyond (Stage.asks_on (hprelude .privateKey ⟨id, id⟩))
  · exact endsUnconfirmed_unpaid (hl.mono fun _ hr => hr.2)
  obtain hl | ⟨l₂, m₂, _, _, place, rfl, h₂, -, hsend⟩ :=
    hfund.beyond (Stage.asks_on (hprelude (.accountAddress _) ⟨id, id⟩))
  · exact EndsUnconfirmed.prepend h₁ (endsUnconfirmed_unpaid (hl.mono fun _ hr => hr.2))
  refine EndsUnconfirmed.prepend h₁ (EndsUnconfirmed.prepend h₂ ?_)
  intro before address amount' reply hash after hl hhash hunseen
  have hsending : Leaves (Only fleet.IsUnlisted)
      (queryToken fleet.roster.main (fleet.command (.pay place amount))) := by
    refine leaves_mono (fun _ hl => hl.mono fun r hr => ?_) queryToken_only
    obtain rfl | rfl | rfl := hr
    all_goals exact id
  have haccepted : acceptedHash? (.ok reply) = some hash := by
    show (token reply).toOption = some hash
    rw [hhash]
    rfl
  obtain ⟨e, -, hpay, -⟩ | ⟨l₃, m₃, _, _, sent, rfl, -, ⟨hpay, -⟩, hconfirm⟩ :=
    (Line.runs_stage.mp hsend).symm
  · cases (queryToken_split hpay hl).1.trans haccepted
  obtain ⟨mid, -, rfl⟩ | ⟨tail, rfl, rfl⟩ := split_append hl
  · have hunpaid := confirmLine_unpaid masternode key sent _ _ _ hconfirm
    exact absurd trivial (hunpaid _ (List.mem_append_right _ List.mem_cons_self))
  obtain ⟨hresult, rfl⟩ := queryToken_split hpay rfl
  obtain rfl : sent = hash := Option.some.inj (hresult.trans haccepted)
  obtain ⟨l₄, m₄, _, _, attempts, rfl, -, ⟨hseen, -⟩, -⟩ | ⟨e, rfl, hfailed, -⟩ :=
    Line.runs_stage.mp hconfirm
  · -- a confirmation would have been read in a listing
    obtain ⟨k₁, listing, k₂, rfl, hne, hline⟩ := fleet.awaitConfirmation_ok hseen
    have hnot := hunseen listing (by simp)
    rw [confirms_iff.mpr ⟨hne, hline⟩] at hnot
    cases hnot
  · have hcalm₃ : Calm m₃ := (calm_append.mp (calm_append.mp (calm_append.mp hcalm).2).2).2
    obtain ⟨polls, hpolled, hawaited⟩ := awaitConfirmation_calm hdeadline hfailed hcalm₃
    cases hawaited with
    | unseen hpolls hspent =>
      have hunlisted : Only fleet.IsUnlisted m₃ :=
        (awaitConfirmation_prelude _ _ _ _ hfailed).mono fun _ hr => hr.1
      refine ⟨?_, rfl, ?_⟩
      · exact Composes.append (hsending _ _ hpay) hunlisted
      · rw [← hspent, ← hpolled.connections]
        rfl

/-- A cold restart whose payment is never seen. -/
theorem coldLine_endsUnconfirmed (hdeadline : fleet.config.timing.poll.deadlineSeconds? = none)
    {wiped : Bool} {requested? : Option Amount} {records : List StageRecord}
    {end? : Option (String × FleetError)}
    (h : (fleet.coldLine wiped requested?).Runs l records end?) (hcalm : Calm l) :
    fleet.EndsUnconfirmed l end? := by
  refine coldLine_beyond (fun l end? => Calm l → fleet.EndsUnconfirmed l end?) ?_ ?_ ?_ h hcalm
  · intro l end? hprelude _
    exact endsUnconfirmed_unpaid (hprelude.mono fun _ hr => hr.2)
  · intro l₁ l end? hprelude hrest hcalm
    exact (hrest (calm_append.mp hcalm).2).prepend hprelude
  · intro amount masternode l records end? hlist hcalm
    exact listLine_endsUnconfirmed hdeadline hlist hcalm

/-- Where no masternode is listed, nothing is written to the place of the masternode list but a node
configuration that is named like it. -/
theorem IsUnlisted.not_listing {r : Request} (h : fleet.IsUnlisted r)
    (hconf : fleet.config.confFile ≠ "masternode.conf") : ¬ fleet.IsListing r := by
  cases r with
  | write _ _ _ => exact fun hpath => hconf (confPath_eq_masternodeListPath.mp (h.1 ▸ hpath))
  | _ => exact h

/-- Polls that are neither cancelled nor out of time stop at the first listing with the hash on one
of its lines; the empty hash is seen on none.  Whatever else they come to, they are made, and the
interval is waited out between any two of them; if the policy grants no more before the first
sighting, the transaction counts as unconfirmed.  A cold restart then ends at the confirmation, and
has listed and started no masternode. -/
theorem confirmation_stops {σ : Type} (fleet : Fleet)
    (hdeadline : fleet.config.timing.poll.deadlineSeconds? = none) (world : World σ) (s : σ)
    (host : Host) (hash : String) (results : Nat → Inquiry)
    (hcalm : Calm ((fleet.awaitConfirmation host hash).run.log world s))
    (hresults : ∀ k i,
      ((fleet.awaitConfirmation host hash).run.log world s).inquiries[k]? = some i →
        i = results k) :
    let awaiting := (fleet.awaitConfirmation host hash).run
    let policy := fleet.config.timing.poll.policy
    (∀ n < policy.bound, (results n).sees hash = true →
      (∀ k < n, (results k).sees hash = false) →
      (awaiting.run world s).1 = .ok (n + 1) ∧
        (awaiting.log world s).connections = List.replicate (n + 1) host) ∧
    ((∀ k < policy.bound, (results k).sees hash = false) →
      (awaiting.run world s).1 = .error (.unconfirmed (awaitedTransaction hash) policy.bound) ∧
        (awaiting.log world s).connections = List.replicate policy.bound host) ∧
    (∀ reply, confirms reply "" = false) ∧
    (∀ reply seen, confirms reply seen = true ↔
      seen ≠ "" ∧ ∃ line ∈ reply.lines, seen.toList <:+: line.toList) ∧
    (world.KeepsTime → ∀ before x middle y after,
      awaiting.timeline world s = before ++ x :: (middle ++ y :: after) →
      ¬ x.event.request.IsAside → y.event.request.Connects →
      x.answered + policy.interval.millis ≤ y.asked) ∧
    (∀ wiped requested?, Calm ((fleet.coldRestart wiped requested?).log world s) →
      ∀ before address amount reply paid after,
        (fleet.coldRestart wiped requested?).log world s = before ++
          ⟨.run fleet.roster.main (fleet.command (.pay address amount)), .ok reply⟩ :: after →
        token reply = .ok paid →
        (∀ listing, ⟨.run fleet.control (fleet.command .outputs), .ok listing⟩ ∈ after →
          confirms listing paid = false) →
        ((fleet.coldRestart wiped requested?).run world s).1.outcome =
            .aborted "confirm-collateral" .unconfirmed
              (FleetError.unconfirmed (awaitedTransaction paid) policy.bound).message ∧
          Log.connections after = List.replicate policy.bound fleet.control ∧
          Only fleet.IsUnlisted ((fleet.coldRestart wiped requested?).log world s) ∧
          (fleet.config.confFile ≠ "masternode.conf" →
            Only (fun r => ¬ fleet.IsListing r)
              ((fleet.coldRestart wiped requested?).log world s))) := by
  obtain ⟨polls, hpolled, hawaited⟩ := awaitConfirmation_calm hdeadline
    (Program.yields_log world (fleet.awaitConfirmation host hash).run s) hcalm
  rw [hpolled.inquiries] at hresults
  obtain ⟨hseen, hunseen⟩ := hawaited.first hresults
  dsimp only
  rw [hpolled.connections]
  refine ⟨fun n hn hsees hfirst => ?_, fun hnone => ?_, not_confirms_empty, fun reply seen => ?_,
    ?_, ?_⟩
  · obtain ⟨hr, hlength⟩ := hseen n hn hsees hfirst
    exact ⟨hr, congrArg (List.replicate · host) hlength⟩
  · obtain ⟨hr, hlength⟩ := hunseen hnone
    exact ⟨hr, congrArg (List.replicate · host) hlength⟩
  · simp only [confirms_iff, Text.occursIn_iff]
  · intro hw before x middle y after ht hx hy
    have hlog : (fleet.awaitConfirmation host hash).run.log world s =
        events before ++ x.event :: (events middle ++ y.event :: events after) := by
      rw [← Program.events_timeline, ht]
      simp
    have hbetween := Program.waited_between hw ht
    have hwaited := hpolled.apart hlog hx hy
    omega
  · intro wiped requested? hcold before address amount reply paid after hl hpaid hnone
    obtain ⟨records, end?, hruns, hconcludes⟩ :=
      (fleet.coldRestart_follows wiped requested?).concludes
        (Program.yields_log world (fleet.coldRestart wiped requested?) s)
    obtain ⟨hunlisted, rfl, hpolls⟩ := coldLine_endsUnconfirmed hdeadline hruns hcold before address
      amount reply paid after hl hpaid hnone
    exact ⟨hconcludes.outcome, hpolls, hunlisted, fun hconf =>
      hunlisted.mono fun _ hr => hr.not_listing hconf⟩

/-- The main host is asked for a payment. -/
def isPaidByMain (fleet : Fleet) : Request → Bool
  | .run host ⟨daemon, .pay _ _⟩ => host == fleet.roster.main && daemon == fleet.daemon
  | _ => false

theorem isPaidByMain_iff {r : Request} : fleet.isPaidByMain r = true ↔
    ∃ address amount, r = .run fleet.roster.main (fleet.command (.pay address amount)) := by
  constructor
  · intro h
    unfold isPaidByMain at h
    split at h
    · obtain ⟨rfl, rfl⟩ : _ = fleet.roster.main ∧ _ = fleet.daemon := by simpa using h
      exact ⟨_, _, rfl⟩
    · cases h
  · rintro ⟨address, amount, rfl⟩
    simp [isPaidByMain, command]

/-- The host cannot be reached, then the session breaks, and then the payment is listed. -/
def lateListing : Nat → Inquiry
  | 0 => .refused .notConnected
  | 1 => .broken .notConnected
  | _ => .answered ⟨"", ["hash"], some 0⟩

end Fleet

/-- The answers of a daemon that lets everything go well, but does not list a payment. -/
def Task.unlisted : Task → String
  | .outputs => "nothing"
  | task => task.agreed

namespace Fleet

/-- With three attempts to a poll, the third of which sees the payment, the polls end well.  Where
the payment is not listed, the third ends the cold restart. -/
theorem confirmation_stops_bounded :
    (bounded.config.timing.poll.deadlineSeconds? = none ∧
      Calm ((bounded.awaitConfirmation .mn "hash").run.log (.polling lateListing) (0, 0)) ∧
      ((bounded.awaitConfirmation .mn "hash").run.run (.polling lateListing) (0, 0)).1 = .ok 3 ∧
      ((bounded.awaitConfirmation .mn "hash").run.log (.polling lateListing) (0, 0)).connections =
        [.mn, .mn, .mn] ∧
      (World.polling lateListing).KeepsTime) ∧
    Calm ((bounded.coldRestart false none).log (.replying fun _ => Task.unlisted) ()) ∧
    ∃ before address amount reply after,
      (bounded.coldRestart false none).log (.replying fun _ => Task.unlisted) () = before ++
        ⟨.run bounded.roster.main (bounded.command (.pay address amount)), .ok reply⟩ :: after ∧
      token reply = .ok "hash" ∧
      ((bounded.coldRestart false none).run (.replying fun _ => Task.unlisted) ()).1.outcome =
        .aborted "confirm-collateral" .unconfirmed
          (FleetError.unconfirmed "transaction hash" 3).message ∧
      Log.connections after = List.replicate 3 bounded.control := by
  have hdeadline : bounded.config.timing.poll.deadlineSeconds? = none := rfl
  constructor
  -- the third poll sees the payment
  · have hcalm := World.polling_calm lateListing (bounded.awaitConfirmation .mn "hash").run (0, 0)
    have hpolls : ((bounded.awaitConfirmation .mn "hash").run.log (.polling lateListing)
        (0, 0)).inquiries = (List.range 3).map lateListing := by decide +kernel
    have hresults : ∀ k i, ((bounded.awaitConfirmation .mn "hash").run.log
        (.polling lateListing) (0, 0)).inquiries[k]? = some i → i = lateListing k := by
      intro k i hi
      rw [hpolls, List.getElem?_map, Option.map_eq_some_iff] at hi
      obtain ⟨n, hn, rfl⟩ := hi
      rw [(List.getElem?_eq_some_iff.mp hn).2.symm, List.getElem_range]
    obtain ⟨hfirst, -⟩ := confirmation_stops bounded hdeadline (.polling lateListing) (0, 0) .mn
      "hash" lateListing hcalm hresults
    obtain ⟨hr, hconnections⟩ := hfirst 2 (by decide) (by decide) (by decide)
    exact ⟨hdeadline, hcalm, hr, hconnections, World.polling_keepsTime _⟩
  -- no poll ever sees it
  · have hcalm {α : Type} (p : Program α) := World.replying_calm (fun _ => Task.unlisted) p
    have hpolls : ((bounded.awaitConfirmation .mn "hash").run.log
        (.replying fun _ => Task.unlisted) ()).inquiries =
          List.replicate 3 (.answered ⟨"", ["nothing"], some 0⟩) := by decide +kernel
    have hresults : ∀ (k : Nat) (i : Inquiry), ((bounded.awaitConfirmation .mn "hash").run.log
        (.replying fun _ => Task.unlisted) ()).inquiries[k]? = some i →
          i = Inquiry.answered ⟨"", ["nothing"], some 0⟩ := by
      intro k i hi
      rw [hpolls] at hi
      exact List.eq_of_mem_replicate (List.mem_of_getElem? hi)
    obtain ⟨-, -, -, -, -, hcold⟩ := confirmation_stops bounded hdeadline
      (.replying fun _ => Task.unlisted) () .mn "hash" _ (hcalm _) hresults
    have hpays : ((bounded.coldRestart false none).log (.replying fun _ => Task.unlisted) ()).any
        (bounded.isPaidByMain ·.request) = true := by decide +kernel
    obtain ⟨⟨r, answer⟩, he, hr⟩ := List.any_eq_true.mp hpays
    obtain ⟨address, amount, rfl⟩ := isPaidByMain_iff.mp hr
    obtain rfl := World.replying_run he
    obtain ⟨before, after, hl⟩ := List.append_of_mem he
    have htoken : token ⟨"", ["hash"], some 0⟩ = .ok "hash" := rfl
    obtain ⟨houtcome, hconnections, -⟩ := hcold false none (hcalm _) before _ _ _ "hash" after hl
      htoken fun listing hlisting => by
        have hanswer := World.replying_run
          (hl ▸ List.mem_append_right before (List.mem_cons_of_mem _ hlisting))
        cases hanswer
        decide +kernel
    exact ⟨hcalm _, before, _, _, _, after, hl, htoken, houtcome, hconnections⟩

end Fleet

end NodeFleet
