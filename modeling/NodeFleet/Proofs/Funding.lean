import NodeFleet.Proofs.Outcomes
import NodeFleet.Proofs.Polling

/-!
# NodeFleet.Proofs.Funding — the wait for a sum is decided by one round

Every round asks each host once, in order, whatever the others have answered; the first round in
which all hosts hold the sum ends the wait, and its balances are the ones that are reported.

* `Amount.place?`, `Amount.atLeast_iff`: the place of a sum, and the order of places.
* `Inquiry.balance?`, `Fleet.Funds`: the balance that was read, and a round that ends the wait.
* `Fleet.roundLog`, `Fleet.balanceRound_inquiries`: the log of a round.
* `Fleet.funded?_eq_some`: the rounds that end the wait, with their balances.
* `Fleet.awaitBalance_calm`: all that a wait for a sum asks, and its report.
* `Fleet.awaitBalance_decides`: the first round in which all hosts hold the sum ends the wait.
-/

namespace NodeFleet

/-! ## Sums -/

/-- Where a number stands: below all finite ones, among them or above them, and there at its count
of least units.  What is not a number stands nowhere. -/
def Amount.place? : Amount → Option (Int × Int)
  | nan => none
  | infinite true => some (-1, 0)
  | infinite false => some (1, 0)
  | finite true units => some (0, -units)
  | finite false units => some (0, units)

/-- One number is at least another when it does not stand before it; both zeros stand at one
place. -/
theorem Amount.atLeast_iff {a b : Amount} : a.atLeast b = true ↔
    ∃ x y, a.place? = some x ∧ b.place? = some y ∧ (y.1 < x.1 ∨ y.1 = x.1 ∧ y.2 ≤ x.2) := by
  -- a case for each pair of forms, as neither side looks further than at the forms and the counts
  rcases a with _ | ⟨⟨⟩⟩ | ⟨⟨⟩, _⟩ <;> rcases b with _ | ⟨⟨⟩⟩ | ⟨⟨⟩, _⟩ <;>
    simp [atLeast, place?, signedUnits]

/-- The balance that was read in the answer. -/
def Inquiry.balance? (i : Inquiry) : Option Amount :=
  match i.reading? .balance with
  | some (.balance amount) => some amount
  | _ => none

/-- An answer is read as a balance when its first line that is not blank is a number. -/
theorem readBalance_eq_balance {reply : Reply} {balance : Amount} :
    readBalance reply = .balance balance ↔
      reply.firstLine?.bind Amount.read? = some balance := by
  unfold readBalance
  cases reply.firstLine? with
  | none => simp
  | some line =>
    dsimp only [Option.bind_some]
    cases Amount.read? line with
    | some amount => simp
    | none => by_cases herror : mentionsError line <;> simp [herror]

/-- A balance is read in an answer alone, and it is never a refusal. -/
theorem Inquiry.balance?_eq_some {i : Inquiry} {balance : Amount} : i.balance? = some balance ↔
    ∃ reply, i = .answered reply ∧ reply.firstLine?.bind Amount.read? = some balance := by
  have hreading : i.balance? = some balance ↔ i.reading? .balance = some (.balance balance) := by
    unfold balance?
    split
    · rename_i hsome
      simp [hsome]
    · rename_i hother
      exact iff_of_false (Option.some_ne_none balance).symm (hother balance)
  rw [hreading]
  cases i with
  | answered reply =>
    simp only [reading?, Option.ite_none_right_eq_some, Option.some.injEq, answered.injEq,
      exists_eq_left', ← readBalance_eq_balance]
    exact and_iff_right_of_imp fun h => by rw [show ReplyKind.read reply .balance = _ from h]; rfl
  | _ => simp [reading?]

namespace Fleet

variable {fleet : Fleet} {hosts : List Host} {amount : Amount} {l : Log}

/-- In the round every host answered with a balance of at least the sum. -/
def Funds (amount : Amount) (round : List Inquiry) : Prop :=
  ∀ i ∈ round, ∃ balance, i.balance? = some balance ∧ balance.atLeast amount = true

/-- The log of a round: one inquiry for each host. -/
def roundLog (fleet : Fleet) (hosts : List Host) (round : List Inquiry) : Log :=
  (List.zipWith (fun host i => i.log host (fleet.command .balance)) hosts round).flatten

/-! ## Rounds -/

theorem balanceOf_inquiry {host : Host} {balance? : Option Amount}
    (h : (fleet.balanceOf host).Yields l balance?) :
    ∃ i : Inquiry, l = i.log host (fleet.command .balance) ∧ balance? = i.balance? := by
  obtain ⟨l₁, l₂, result, rfl, hquery, hread⟩ := Program.yields_bind.mp h
  obtain ⟨i, rfl, hreading⟩ := Inquiry.of_query hquery
  refine ⟨i, ?_⟩
  unfold Inquiry.balance?
  rw [← hreading]
  split at hread
  · obtain ⟨rfl, rfl⟩ := Program.yields_pure.mp hread
    exact ⟨List.append_nil _, rfl⟩
  · rename_i hother
    obtain ⟨rfl, rfl⟩ := Program.yields_pure.mp hread
    refine ⟨List.append_nil _, ?_⟩
    split
    · rename_i amount hsome
      cases result with
      | ok reading => exact absurd (congrArg Except.ok (Option.some.inj hsome)) (hother amount)
      | error e => cases hsome
    · rfl

theorem balances_inquiries {balances : List (Option Amount)}
    (h : (hosts.mapM fleet.balanceOf).Yields l balances) :
    ∃ round : List Inquiry, round.length = hosts.length ∧ l = fleet.roundLog hosts round ∧
      balances = round.map Inquiry.balance? := by
  induction hosts generalizing l balances with
  | nil =>
    obtain ⟨rfl, rfl⟩ := Program.yields_pure.mp h
    exact ⟨[], rfl, rfl, rfl⟩
  | cons host rest ih =>
    rw [List.mapM_cons] at h
    obtain ⟨l₁, l₂, balance?, rfl, hone, h⟩ := Program.yields_bind.mp h
    obtain ⟨l₃, l₄, others, rfl, hothers, h⟩ := Program.yields_bind.mp h
    obtain ⟨rfl, rfl⟩ := Program.yields_pure.mp h
    obtain ⟨i, rfl, rfl⟩ := balanceOf_inquiry hone
    obtain ⟨round, hlength, rfl, rfl⟩ := ih hothers
    rw [List.append_nil]
    exact ⟨i :: round, congrArg Nat.succ hlength, rfl, rfl⟩

/-- A round asks each host, and ends the wait by what they have answered. -/
theorem balanceRound_inquiries {held? : Option (List Amount)}
    (h : (fleet.balanceRound hosts amount).Yields l held?) :
    ∃ round : { round : List Inquiry // round.length = hosts.length },
      l = fleet.roundLog hosts round ∧ held? = funded? amount (round.1.map Inquiry.balance?) := by
  obtain ⟨l₁, l₂, balances, rfl, hasked, hlast⟩ := Program.yields_bind.mp h
  obtain ⟨rfl, rfl⟩ := Program.yields_pure.mp hlast
  obtain ⟨round, hlength, rfl, rfl⟩ := balances_inquiries hasked
  exact ⟨⟨round, hlength⟩, List.append_nil _, rfl⟩

theorem roundLog_cons {host : Host} {i : Inquiry} {round : List Inquiry} :
    fleet.roundLog (host :: hosts) (i :: round) =
      i.log host (fleet.command .balance) ++ fleet.roundLog hosts round := rfl

/-- A round opens a session to each host in order, and comes to what the hosts have answered. -/
theorem roundLog_asks {round : List Inquiry} (h : round.length = hosts.length) :
    (fleet.roundLog hosts round).connections = hosts ∧
      (fleet.roundLog hosts round).inquiries = round := by
  induction hosts generalizing round with
  | nil =>
    rw [List.length_eq_zero_iff.mp h]
    exact ⟨rfl, rfl⟩
  | cons host rest ih =>
    cases round with
    | nil => cases h
    | cons i round =>
      obtain ⟨hconnections, hinquiries⟩ := ih (Nat.succ.inj h)
      rw [roundLog_cons, connections_append, hconnections, i.connections_log, Log.inquiries,
        List.filterMap_append]
      refine ⟨rfl, ?_⟩
      rw [show List.filterMap _ (i.log host _) = _ from i.inquiries_log host _]
      exact congrArg (i :: ·) hinquiries

/-- The balances of a round count when there is one from every host, and each is at least the
sum. -/
theorem funded?_eq_some {balances : List (Option Amount)} {held : List Amount} :
    funded? amount balances = some held ↔
      balances = held.map some ∧ ∀ balance ∈ held, balance.atLeast amount = true := by
  unfold funded?
  -- balance by balance; what is held is taken apart along with them
  induction balances generalizing held with
  | nil =>
    rw [List.mapM_nil]
    constructor
    · intro h
      obtain rfl := Option.some.inj h
      exact ⟨rfl, fun _ h => absurd h List.not_mem_nil⟩
    · rintro ⟨h, -⟩
      rw [List.map_eq_nil_iff.mp h.symm]
      rfl
  | cons balance? rest ih =>
    rw [List.mapM_cons]
    constructor
    · intro h
      obtain ⟨balance, hone, h⟩ := Option.bind_eq_some_iff.mp h
      obtain ⟨others, hothers, h⟩ := Option.bind_eq_some_iff.mp h
      obtain rfl := Option.some.inj h
      obtain ⟨rfl, henough⟩ := Option.filter_eq_some_iff.mp hone
      obtain ⟨rfl, hrest⟩ := ih.mp hothers
      exact ⟨rfl, List.forall_mem_cons.mpr ⟨henough, hrest⟩⟩
    · rintro ⟨h, hall⟩
      cases held with
      | nil => cases h
      | cons balance others =>
        obtain ⟨rfl, rfl⟩ := List.cons.inj h
        obtain ⟨henough, hrest⟩ := List.forall_mem_cons.mp hall
        have hone : (some balance).filter (·.atLeast amount) = some balance :=
          Option.filter_eq_some_iff.mpr ⟨rfl, henough⟩
        rw [hone, ih.mpr ⟨rfl, hrest⟩]
        rfl

theorem funds_iff {round : List Inquiry} :
    Funds amount round ↔ ∃ held, funded? amount (round.map Inquiry.balance?) = some held := by
  constructor
  · intro h
    induction round with
    | nil => exact ⟨[], rfl⟩
    | cons i round ih =>
      obtain ⟨⟨balance, hbalance, henough⟩, hrest⟩ := List.forall_mem_cons.mp h
      obtain ⟨held, hheld⟩ := ih hrest
      obtain ⟨hmap, hall⟩ := funded?_eq_some.mp hheld
      refine ⟨balance :: held, funded?_eq_some.mpr ⟨?_, List.forall_mem_cons.mpr ⟨henough, hall⟩⟩⟩
      rw [List.map_cons, List.map_cons, hbalance, hmap]
  · rintro ⟨held, hheld⟩ i hi
    obtain ⟨hmap, hall⟩ := funded?_eq_some.mp hheld
    have hbalance : i.balance? ∈ held.map some := hmap ▸ List.mem_map_of_mem hi
    obtain ⟨balance, hm, hsome⟩ := List.mem_map.mp hbalance
    exact ⟨balance, hsome.symm, hall balance hm⟩

/-! ## The report -/

/-- The report on a wait that has ended well. -/
def fundedReport (hosts : List Host) (held : List Amount) : Report where
  procedure := .awaitBalance
  outcome := .completed
  finished := true
  stages := (hosts.zip held).map fun (host, balance) =>
    ⟨"await-balance", some host.name, true, some balance.toText⟩
  hosts := (hosts.zip held).map fun (host, _) => ⟨host.name, host.address, true, false, none⟩
  snapshots := []
  transfers := []

/-- Entering the balances asks nothing, and gives each host its entry and its result. -/
theorem enterBalances_ends {entries : List (Host × Amount)} {before : Report}
    {r : Except Report (Unit × Report)}
    (h : (entries.forM fun (host, balance) => enterBalance host balance : Conduct Unit).Ends
      before l r) :
    l = [] ∧ r = .ok ((), { before with
      stages := before.stages ++ entries.map fun (host, balance) =>
        ⟨"await-balance", some host.name, true, some balance.toText⟩
      hosts := before.hosts ++ entries.map fun (host, _) =>
        ⟨host.name, host.address, true, false, none⟩ }) := by
  induction entries generalizing before with
  | nil =>
    obtain ⟨rfl, rfl⟩ := Conduct.ends_pure.mp h
    simp
  | cons entry rest ih =>
    have hrest : (rest.forM fun (host, balance) => enterBalance host balance : Conduct Unit).Ends
      (((before.stageResult "await-balance" (some entry.1) (fun b : Amount => some b.toText)
        (.ok entry.2)).hostResult entry.1 (.ok entry.2))) l r := h
    obtain ⟨rfl, rfl⟩ := ih hrest
    simp [Report.stageResult, Report.stageOk, Report.addStage, Report.hostResult,
      Report.targetResult, Report.outcomeOf]

/-- A wait for a sum asks what its poll asks, and its report is on the round that ended the poll, or
on the end of the poll. -/
theorem awaitBalance_poll {requested? : Option Amount} {report : Report}
    (hamount : fleet.amount requested? = .ok amount)
    (h : (fleet.awaitBalance hosts requested?).Yields l report) :
    ∃ result, (poll fleet.config.timing.poll ("balance of " ++ amount.toText)
        (fleet.balanceRound hosts amount)).run.Yields l result ∧
      report = match result with
        | .ok (held, _) => fundedReport hosts held
        | .error e => (Report.new .awaitBalance).abort "await-balance" e := by
  obtain ⟨r, hends, rfl⟩ := Conduct.conclude_ends h
  rw [hamount] at hends
  obtain ⟨_, rfl, hneed⟩ | ⟨l₁, l₂, asked, mid, rfl, hneed, hpoll⟩ := Conduct.ends_bind_cases hends
  · obtain ⟨e, hnone, rfl⟩ := Conduct.ends_need_error.mp hneed
    cases (yields_ofExcept.mp hnone).2
  obtain ⟨hselected, rfl⟩ := Conduct.ends_need_ok.mp hneed
  obtain ⟨rfl, heq⟩ := yields_ofExcept.mp hselected
  obtain rfl : amount = asked := (Except.ok.inj heq).symm
  obtain ⟨_, rfl, hfailed⟩ | ⟨l₃, l₄, ⟨held, attempts⟩, mid, rfl, hpolled, hlast⟩ :=
    Conduct.ends_bind_cases hpoll
  · obtain ⟨e, herror, rfl⟩ := Conduct.ends_need_error.mp hfailed
    exact ⟨.error e, herror, rfl⟩
  · obtain ⟨hok, rfl⟩ := Conduct.ends_need_ok.mp hpolled
    obtain ⟨rfl, rfl⟩ := enterBalances_ends hlast
    rw [List.append_nil]
    exact ⟨.ok (held, attempts), hok, rfl⟩

/-- What came of the rounds of a wait: the last ended it, and none before it; or none did, and no
more were granted. -/
inductive Decided (fleet : Fleet) (hosts : List Host) (amount : Amount) :
    List (List Inquiry) → Report → Prop
  | funded {earlier : List (List Inquiry)} {last : List Inquiry} {held : List Amount}
    (hearlier : ∀ round ∈ earlier, ¬ Funds amount round)
    (hbalances : last.map Inquiry.balance? = held.map some)
    (henough : ∀ balance ∈ held, balance.atLeast amount = true)
    (hgranted : earlier.length + 1 ≤ fleet.config.timing.poll.policy.bound) :
    Decided fleet hosts amount (earlier ++ [last]) (fundedReport hosts held)
  | unfunded {rounds : List (List Inquiry)} (hrounds : ∀ round ∈ rounds, ¬ Funds amount round)
    (hspent : rounds.length = fleet.config.timing.poll.policy.bound) :
    Decided fleet hosts amount rounds
      ((Report.new .awaitBalance).abort "await-balance"
        (.unconfirmed ("balance of " ++ amount.toText) fleet.config.timing.poll.policy.bound))

/-- The wait for a sum: round after round is asked, until one ends it or no more are granted. -/
theorem awaitBalance_calm {requested? : Option Amount} {report : Report}
    (hamount : fleet.amount requested? = .ok amount)
    (hdeadline : fleet.config.timing.poll.deadlineSeconds? = none)
    (h : (fleet.awaitBalance hosts requested?).Yields l report) (hcalm : Calm l) :
    ∃ rounds : List (List Inquiry), (∀ round ∈ rounds, round.length = hosts.length) ∧
      Log.IsPoll fleet.config.timing.poll.policy.interval (rounds.map (fleet.roundLog hosts)) l ∧
      fleet.Decided hosts amount rounds report := by
  -- a round that gives the poll no answer is one that does not have the sum
  have hunfunded {attempts : List { round : List Inquiry // round.length = hosts.length }}
      (hnone : ∀ round ∈ attempts, funded? amount (round.1.map Inquiry.balance?) = none) :
      ∀ round ∈ attempts.map Subtype.val, ¬ Funds amount round := by
    intro round hround hfunds
    obtain ⟨attempt, hm, rfl⟩ := List.mem_map.mp hround
    obtain ⟨held, hheld⟩ := funds_iff.mp hfunds
    rw [hnone attempt hm] at hheld
    cases hheld
  obtain ⟨result, hpoll, rfl⟩ := awaitBalance_poll hamount h
  obtain ⟨attempts, ended, hlog, hended, rfl⟩ :=
    poll_calm (fun _ _ => balanceRound_inquiries) hdeadline hpoll hcalm
  refine ⟨attempts.map Subtype.val, List.forall_mem_map.mpr fun attempt _ => attempt.2, ?_, ?_⟩
  · rwa [List.map_map]
  cases hended with
  | @answered earlier last held hearlier hlast hgranted =>
    obtain ⟨hbalances, henough⟩ := funded?_eq_some.mp hlast
    rw [List.map_append]
    refine .funded (hunfunded hearlier) hbalances henough ?_
    rwa [List.length_map, ← Nat.zero_add (earlier.length + 1)]
  | exhausted hattempts hspent =>
    exact .unfunded (hunfunded hattempts) (by rw [List.length_map]; omega)

/-- A wait for a sum that is neither cancelled nor out of time.  Each round asks every host once, in
order, whatever the others answer.  The first round in which every host answers with at least the
sum ends the wait, and the report has its balances; what is not a number is never enough.  If no
such round comes while the policy grants more, the wait is aborted without a result for any host.
A balance is the number on the first line that is not blank, and is compared by its place. -/
theorem awaitBalance_decides {σ : Type} (fleet : Fleet) (hosts : List Host)
    (requested? : Option Amount) (amount : Amount)
    (hamount : fleet.amount requested? = .ok amount)
    (hdeadline : fleet.config.timing.poll.deadlineSeconds? = none) (world : World σ) (s : σ)
    (hcalm : Calm ((fleet.awaitBalance hosts requested?).log world s)) :
    ∃ rounds : List (List Inquiry),
      (∀ round ∈ rounds, round.length = hosts.length) ∧
      Log.IsPoll fleet.config.timing.poll.policy.interval (rounds.map (fleet.roundLog hosts))
        ((fleet.awaitBalance hosts requested?).log world s) ∧
      ((fleet.awaitBalance hosts requested?).log world s).connections =
        rounds.flatMap (fun _ => hosts) ∧
      ((fleet.awaitBalance hosts requested?).log world s).inquiries = rounds.flatten ∧
      fleet.Decided hosts amount rounds ((fleet.awaitBalance hosts requested?).run world s).1 ∧
      (∀ sum, Amount.nan.atLeast sum = false) ∧
      (∀ (i : Inquiry) balance, i.balance? = some balance ↔
        ∃ reply, i = .answered reply ∧ reply.firstLine?.bind Amount.read? = some balance) ∧
      ∀ balance sum : Amount, balance.atLeast sum = true ↔
        ∃ x y, balance.place? = some x ∧ sum.place? = some y ∧
          (y.1 < x.1 ∨ y.1 = x.1 ∧ y.2 ≤ x.2) := by
  obtain ⟨rounds, hlengths, hlog, hdecided⟩ := awaitBalance_calm hamount hdeadline
    (Program.yields_log world (fleet.awaitBalance hosts requested?) s) hcalm
  refine ⟨rounds, hlengths, hlog, ?_, ?_, hdecided, Amount.atLeast_nan_left,
    fun _ _ => Inquiry.balance?_eq_some, fun _ _ => Amount.atLeast_iff⟩
  · rw [Log.connections, hlog.filterMap Request.connection?_aside, List.flatMap_map]
    exact List.flatMap_congr fun round hround => (roundLog_asks (hlengths round hround)).1
  · rw [Log.inquiries, hlog.filterMap Event.inquiry?_aside, List.flatMap_map,
      ← List.flatMap_id]
    exact List.flatMap_congr fun round hround => (roundLog_asks (hlengths round hround)).2

/-- In the first round one host has enough and the other cannot be reached; in the second both have
enough. -/
def risingBalances : Nat → Inquiry
  | 0 => .answered ⟨"", ["30"], some 0⟩
  | 1 => .refused .notConnected
  | 2 => .answered ⟨"", ["10"], some 0⟩
  | _ => .answered ⟨"", ["20.5"], some 0⟩

/-- The second round ends the wait for ten coins, and its balances are reported. -/
theorem awaitBalance_decides_bounded :
    bounded.amount (some (.ofNat 10)) = .ok (.ofNat 10) ∧
    bounded.config.timing.poll.deadlineSeconds? = none ∧
    Calm ((bounded.awaitBalance bounded.roster.all (some (.ofNat 10))).log
      (.polling risingBalances) (0, 0)) ∧
    (∃ rounds : List (List Inquiry), (∀ round ∈ rounds, round.length = 2) ∧
      rounds.flatten = (List.range 4).map risingBalances ∧
      bounded.Decided bounded.roster.all (.ofNat 10) rounds
        ((bounded.awaitBalance bounded.roster.all (some (.ofNat 10))).run
          (.polling risingBalances) (0, 0)).1) ∧
    ((bounded.awaitBalance bounded.roster.all (some (.ofNat 10))).run
        (.polling risingBalances) (0, 0)).1.stages.map StageRecord.detail? =
      [some "10", some "20.5"] := by
  have hamount : bounded.amount (some (.ofNat 10)) = .ok (.ofNat 10) :=
    amount_eq_ok.mpr ⟨Option.getD_some, by decide +kernel⟩
  have hcalm := World.polling_calm risingBalances
    (bounded.awaitBalance bounded.roster.all (some (.ofNat 10))) (0, 0)
  obtain ⟨rounds, hlengths, -, -, hinquiries, hdecided, -⟩ := awaitBalance_decides bounded
    bounded.roster.all _ _ hamount rfl (.polling risingBalances) (0, 0) hcalm
  have hasked : ((bounded.awaitBalance bounded.roster.all (some (.ofNat 10))).log
      (.polling risingBalances) (0, 0)).inquiries = (List.range 4).map risingBalances := by
    decide +kernel
  exact ⟨hamount, rfl, hcalm, ⟨rounds, hlengths, hinquiries.symm.trans hasked, hdecided⟩,
    by decide +kernel⟩

end Fleet

end NodeFleet
