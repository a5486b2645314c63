import NodeFleet.Proofs.Collateral
import NodeFleet.Proofs.Orders
import NodeFleet.Proofs.Replying
import NodeFleet.Proofs.Rosters
import NodeFleet.Proofs.Stopping

/-!
# NodeFleet.Proofs.Listing — a masternode is listed and started only on a paid collateral

A cold restart writes the masternode list and starts the masternode from what three hosts have
answered: the key, the hash of the payment, and a listing in which that payment was seen.

* `Fleet.IsListing`: writing the list, and telling a daemon to start a masternode.
* `Fleet.Provided`: the key, the only payment, and its confirmation, in this order.
* `Fleet.Listed`: how a log stands around the writing of the list.
* `Fleet.coldRestart_lists`: a cold restart lists nothing, or like this.
-/

namespace NodeFleet

/-! ## Requests before and after the list is written -/

/-- Sending funds. -/
def Request.IsPay : Request → Prop
  | .run _ ⟨_, .pay _ _⟩ => True
  | _ => False

/-- Telling a daemon to start a masternode. -/
def Request.StartsMasternode : Request → Prop
  | .run _ ⟨_, .startAlias _⟩ => True
  | .run _ ⟨_, .startLocal⟩ => True
  | _ => False

/-- Whether a request is the start of a masternode from its own host. -/
def Request.isLocalStart : Request → Bool
  | .run _ ⟨_, .startLocal⟩ => true
  | _ => false

namespace Fleet

variable (fleet : Fleet)

/-- Writing the masternode list, and telling a daemon to start a masternode. -/
def IsListing : Request → Prop
  | .write _ path _ => path = fleet.daemon.masternodeListPath
  | r => r.StartsMasternode

/-- What may be asked before the masternode is listed, payments apart. -/
def IsEarly (r : Request) : Prop := ¬ fleet.IsListing r ∧ ¬ r.IsPay

/-- What may be asked after the masternode list: no payment, and no file but the configuration of
the masternode with its key. -/
def IsLate (masternode : Host) (key : String) : Request → Prop
  | .write host path contents => host = masternode ∧ path = fleet.daemon.confPath ∧
      contents = (fleet.masternodeConfig masternode key).render.toUTF8
  | r => ¬ r.IsPay

/-- The log shows, in this order, that the control wallet made the key, that the main host accepted
a payment, and that the control wallet listed that payment; and no other payment was tried. -/
def Provided (key hash : String) (l : Log) : Prop :=
  ∃ (a b c d : Log) (keyReply payReply listing : Reply) (address : String) (amount : Amount),
    l = a ++ ⟨.run fleet.control (fleet.command .privateKey), .ok keyReply⟩ ::
      (b ++ ⟨.run fleet.roster.main (fleet.command (.pay address amount)), .ok payReply⟩ ::
        (c ++ ⟨.run fleet.control (fleet.command .outputs), .ok listing⟩ :: d)) ∧
    token keyReply = .ok key ∧ token payReply = .ok hash ∧ hash ≠ "" ∧
    (∃ line ∈ listing.lines, Text.occursIn hash line) ∧
    Only (fun r => ¬ r.IsPay) (a ++ b ++ c ++ d)

/-- The masternode list is the first listing in the log.  It is written to the control wallet once,
from a key and a payment that the log shows before; after it come no payment, no other file than the
configuration of the masternode with its key, and other listings only if the list was accepted. -/
structure Listed (masternode : Host) (key hash : String) (before : Log)
    (answer : Except RemoteError Unit) (after l : Log) : Prop where
  split : l = before ++ ⟨.write fleet.control fleet.daemon.masternodeListPath
    (fleet.masternodeLine masternode key hash ++ "\n").toUTF8, answer⟩ :: after
  provided : fleet.Provided key hash before
  first : Only (fun r => ¬ fleet.IsListing r) before
  late : Only (fleet.IsLate masternode key) after
  accepted : (∃ e ∈ after, fleet.IsListing e.request) → answer = .ok ()

/-- A log without a listing, or with one that stands as it should. -/
def ListsWell (masternode : Host) (l : Log) : Prop :=
  Only (fun r => ¬ fleet.IsListing r) l ∨
    ∃ key hash before answer after, fleet.Listed masternode key hash before answer after l

variable {fleet}

theorem ListsWell.prepend {masternode : Host} {l₁ l : Log} (h₁ : Only fleet.IsEarly l₁)
    (h : fleet.ListsWell masternode l) : fleet.ListsWell masternode (l₁ ++ l) := by
  have hlist : Only (fun r => ¬ fleet.IsListing r) l₁ := h₁.mono fun _ hr => hr.1
  have hpay : Only (fun r => ¬ r.IsPay) l₁ := h₁.mono fun _ hr => hr.2
  rcases h with h | ⟨key, hash, before, answer, after, h⟩
  · exact .inl (Composes.append hlist h)
  obtain ⟨a, b, c, d, keyReply, payReply, listing, address, amount, hsplit, hkey, hhash, hne, hline,
    honce⟩ := h.provided
  refine .inr ⟨key, hash, l₁ ++ before, answer, after, ?_, ?_, Composes.append hlist h.first,
    h.late, h.accepted⟩
  · rw [h.split, List.append_assoc]
  · refine ⟨l₁ ++ a, b, c, d, keyReply, payReply, listing, address, amount, ?_, hkey, hhash, hne,
      hline, ?_⟩
    · rw [hsplit, List.append_assoc]
    · have hall := Composes.append hpay honce
      simpa only [List.append_assoc] using hall

/-- A stage before the list is of no concern, as long as it makes no payment. -/
theorem listsWell_beyond {α : Type} {s : Stage α} {next : α → Line} {l : Log}
    {records : List StageRecord} {end? : Option (String × FleetError)} {masternode : Host}
    (h : Line.Runs (.stage s next) l records end?) (hs : s.Asks fleet.IsEarly)
    (hnext : ∀ a l records end?, (next a).Runs l records end? → fleet.ListsWell masternode l) :
    fleet.ListsWell masternode l := by
  obtain hearly | ⟨l₁, l₂, r₁, r₂, a, rfl, hearly, -, hrest⟩ := h.beyond hs
  · exact .inl (hearly.mono fun _ hr => hr.1)
  · exact (hnext a l₂ r₂ end? hrest).prepend hearly

/-! ## The stages before the list -/

section Early

variable {host : Host} {r : Request}

theorem early_sessions :
    HoldsOfSessions (fun _ => fleet.IsEarly) (Only fleet.IsEarly) := by
  refine holdsOfSessions_only (fun r hr => ?_) (fun _ => ⟨id, id⟩) fun _ => ⟨id, id⟩
  cases r with
  | write _ _ _ => exact absurd hr id
  | run _ _ => exact absurd hr id
  | _ => exact ⟨id, id⟩

/-- The node configuration stands at the place of the masternode list only if it is named so. -/
theorem confPath_eq_masternodeListPath :
    fleet.daemon.confPath = fleet.daemon.masternodeListPath ↔
      fleet.config.confFile = "masternode.conf" := by
  show fleet.daemon.configDir ++ "/" ++ fleet.config.confFile =
    fleet.daemon.configDir ++ ("/" ++ "masternode.conf") ↔ _
  rw [String.append_assoc, String.append_right_inj, String.append_right_inj]

theorem early_start (hconf : fleet.config.confFile ≠ "masternode.conf")
    (h : fleet.StartAsks host false r) : fleet.IsEarly r := by
  cases r with
  | run _ _ =>
    obtain ⟨-, ⟨rfl, -⟩ | ⟨rfl, -⟩ | rfl | ⟨rfl, -⟩⟩ := h
    all_goals exact ⟨id, id⟩
  | write _ _ _ =>
    obtain ⟨-, -, rfl, -⟩ := h
    exact ⟨fun hpath => hconf (confPath_eq_masternodeListPath.mp hpath), id⟩
  | _ => exact ⟨id, id⟩

theorem stopHost_early (host : Host) : Leaves (Only fleet.IsEarly) (fleet.stopHost host) := by
  refine leaves_mono (fun _ hl => hl.mono fun r hr => ?_) fleet.stopHost_only
  obtain rfl | rfl | rfl | rfl | ⟨delay, rfl⟩ := fleet.stop_cases hr
  all_goals exact ⟨id, id⟩

theorem startHost_early (hconf : fleet.config.confFile ≠ "masternode.conf") (host : Host) :
    Leaves (Only fleet.IsEarly) (fleet.startHost false host) :=
  fleet.startHost_leaves early_sessions fun _ => early_start hconf

theorem wipe_early (host : Host) :
    Leaves (Only fleet.IsEarly) (inSession host (fleet.wipe host)) :=
  fleet.wipe_leaves early_sessions ⟨id, id⟩

theorem awaitConfirmation_early (host : Host) (hash : String) :
    Leaves (Only fleet.IsEarly) (fleet.awaitConfirmation host hash) :=
  fleet.awaitConfirmation_leaves early_sessions ⟨id, id⟩ hash

end Early

/-! ## The stages after the list -/

section Late

variable {masternode : Host} {key : String}

theorem late_sessions : HoldsOfSessions (fun _ => fleet.IsLate masternode key)
    (Only (fleet.IsLate masternode key)) := by
  refine holdsOfSessions_only (fun r hr => ?_) (fun _ => id) fun _ => id
  cases r with
  | write _ _ _ => exact absurd hr id
  | run _ _ => exact absurd hr id
  | _ => exact id

theorem startMasternode_late :
    Leaves (Only (fleet.IsLate masternode key)) (fleet.startMasternode masternode key) := by
  refine fleet.startMasternode_leaves late_sessions fun r hr => ?_
  cases r with
  | run _ _ =>
    obtain ⟨-, rfl | rfl⟩ := hr
    all_goals exact id
  | write _ _ _ => exact hr
  | _ => exact id

theorem startLine_late :
    (fleet.startLine masternode key).Asks (fleet.IsLate masternode key) := by
  refine Line.asks_stage (Stage.asks_on startMasternode_late) fun _ => ?_
  refine Line.asks_stage (Stage.asks_on (late_sessions.query id)) fun _ => ?_
  exact Line.asks_stage (Stage.asks_on (late_sessions.query id)) fun _ => Line.asks_finished

end Late

/-! ## The list -/

theorem Provided.append {key hash : String} {l l' : Log} (h : fleet.Provided key hash l)
    (h' : Only (fun r => ¬ r.IsPay) l') : fleet.Provided key hash (l ++ l') := by
  obtain ⟨a, b, c, d, keyReply, payReply, listing, address, amount, rfl, hkey, hhash, hne, hline,
    honce⟩ := h
  refine ⟨a, b, c, d ++ l', keyReply, payReply, listing, address, amount, by simp, hkey, hhash, hne,
    hline, ?_⟩
  have hall := Composes.append honce h'
  simpa only [List.append_assoc] using hall

/-- The list is written in a session of its own, after its directory has been made. -/
theorem writeMasternodeList_cases {line : String} {l : Log} {r : Except FleetError Unit}
    (h : (fleet.writeMasternodeList line).run.Yields l r) :
    (Only fleet.IsEarly l ∧ ∃ e, r = .error e) ∨
      ∃ (made : Reply) (answer : Except RemoteError Unit),
        l = Log.session fleet.control
          [⟨.run fleet.control (fleet.command .makeConfigDir), .ok made⟩,
          ⟨.write fleet.control fleet.daemon.masternodeListPath (line ++ "\n").toUTF8, answer⟩] ∧
        r = answer.mapError (writeFailure fleet.control) := by
  unfold writeMasternodeList at h
  cases r with
  | ok _ =>
    obtain ⟨inner, rfl, hinner⟩ := yields_inSession_ok.mp h
    obtain ⟨_, -, heq⟩ | ⟨made, answer, rfl, heq⟩ := yields_writeConfigFile.mp hinner
    · cases heq
    · exact .inr ⟨made, answer, rfl, heq⟩
  | error e =>
    obtain ⟨cause, rfl, -⟩ | ⟨inner, rfl, hinner⟩ := yields_inSession_error.mp h
    · exact .inl ⟨only_singleton.mpr ⟨id, id⟩, e, rfl⟩
    · obtain ⟨cause, rfl, -⟩ | ⟨made, answer, rfl, heq⟩ := yields_writeConfigFile.mp hinner
      · refine .inl ⟨fun e' he' => ?_, e, rfl⟩
        simp only [Log.session, List.mem_cons, List.mem_append, List.not_mem_nil, or_false] at he'
        rcases he' with rfl | rfl | rfl
        all_goals exact ⟨id, id⟩
      · exact .inr ⟨made, answer, rfl, heq⟩

theorem listed_of_write {masternode : Host} {key hash : String} {before rest : Log} {made : Reply}
    {answer : Except RemoteError Unit} (hprovided : fleet.Provided key hash before)
    (hfirst : Only (fun r => ¬ fleet.IsListing r) before)
    (hlate : Only (fleet.IsLate masternode key) rest)
    (haccepted : (∃ e ∈ rest, fleet.IsListing e.request) → answer = .ok ()) :
    fleet.ListsWell masternode (before ++
      (Log.session fleet.control [⟨.run fleet.control (fleet.command .makeConfigDir), .ok made⟩,
        ⟨.write fleet.control fleet.daemon.masternodeListPath
          (fleet.masternodeLine masternode key hash ++ "\n").toUTF8, answer⟩] ++ rest)) := by
  have hopening : Only fleet.IsEarly [⟨.connect fleet.control, .ok ()⟩,
      ⟨.run fleet.control (fleet.command .makeConfigDir), .ok made⟩] := by
    intro e he
    simp only [List.mem_cons, List.not_mem_nil, or_false] at he
    rcases he with rfl | rfl
    all_goals exact ⟨id, id⟩
  refine .inr ⟨key, hash, before ++ _, answer, ⟨.close fleet.control, ()⟩ :: rest, ?_,
    hprovided.append (hopening.mono fun _ hr => hr.2),
    Composes.append hfirst (hopening.mono fun _ hr => hr.1), ?_, ?_⟩
  · simp [Log.session]
  · exact Composes.append (only_singleton.mpr id) hlate
  · rintro ⟨e, he, hlisting⟩
    rcases List.mem_cons.mp he with rfl | he
    · exact absurd hlisting id
    · exact haccepted ⟨e, he, hlisting⟩

/-- The stages before the list show what the list is written from. -/
theorem provided_of_stages {key hash : String} {l₂ k₁ k₂ : Log}
    {keyReply payReply listing : Reply} (address : String) (amount : Amount)
    (h₂ : Only fleet.IsEarly l₂) (hk₁ : Only fleet.IsEarly k₁)
    (hk₂ : Only fleet.IsEarly k₂) (hkey : token keyReply = .ok key)
    (hhash : token payReply = .ok hash) (hne : hash ≠ "")
    (hline : ∃ line ∈ listing.lines, Text.occursIn hash line) :
    fleet.Provided key hash
      (Log.session fleet.control
          [⟨.run fleet.control (fleet.command .privateKey), .ok keyReply⟩] ++
        (l₂ ++ (Log.session fleet.roster.main
          [⟨.run fleet.roster.main (fleet.command (.pay address amount)), .ok payReply⟩] ++
        (k₁ ++ ⟨.run fleet.control (fleet.command .outputs), .ok listing⟩ :: k₂)))) := by
  refine ⟨[⟨.connect fleet.control, .ok ()⟩],
    [⟨.close fleet.control, ()⟩] ++ l₂ ++ [⟨.connect fleet.roster.main, .ok ()⟩],
    ⟨.close fleet.roster.main, ()⟩ :: k₁, k₂, keyReply, payReply, listing, address, amount,
    by simp [Log.session], hkey, hhash, hne, hline, ?_⟩
  intro e he
  simp only [List.mem_append, List.mem_cons, List.not_mem_nil, or_false] at he
  rcases he with ((rfl | (rfl | he) | rfl) | rfl | he) | he
  · exact id
  · exact id
  · exact (h₂ e he).2
  · exact id
  · exact id
  · exact (hk₁ e he).2
  · exact (hk₂ e he).2

/-- The list is written from a key and a payment that have been shown. -/
theorem listStage_listsWell {masternode : Host} {key hash : String} {before l : Log}
    {records : List StageRecord} {end? : Option (String × FleetError)}
    (hprovided : fleet.Provided key hash before)
    (hfirst : Only (fun r => ¬ fleet.IsListing r) before)
    (h : Line.Runs (.stage (.on "masternode-conf" fleet.control
      (fun _ => some (fleet.masternodeLine masternode key hash))
      (fleet.writeMasternodeList (fleet.masternodeLine masternode key hash))) fun _ =>
        fleet.startLine masternode key) l records end?) :
    fleet.ListsWell masternode (before ++ l) := by
  obtain ⟨l₁, l₂, _, _, _, rfl, -, ⟨hwrite, -⟩, hrest⟩ | ⟨e, -, hwrite, -⟩ := Line.runs_stage.mp h
  · obtain ⟨-, e, heq⟩ | ⟨made, answer, rfl, heq⟩ := writeMasternodeList_cases hwrite
    · cases heq
    · refine listed_of_write hprovided hfirst (startLine_late _ _ _ hrest) fun _ => ?_
      cases answer with
      | ok _ => rfl
      | error _ => cases heq
  · obtain ⟨hearly, -⟩ | ⟨made, answer, rfl, -⟩ := writeMasternodeList_cases hwrite
    · exact .inl (Composes.append hfirst (hearly.mono fun _ hr => hr.1))
    · rw [← List.append_nil (Log.session fleet.control _)]
      exact listed_of_write hprovided hfirst Composes.nil fun ⟨e, he, _⟩ =>
        absurd he List.not_mem_nil

/-- From the key on, a cold restart lists the masternode only with the key, and with the payment
that it has made and seen. -/
theorem listLine_listsWell {amount : Amount} {masternode : Host} {l : Log}
    {records : List StageRecord} {end? : Option (String × FleetError)}
    (h : (fleet.listLine amount masternode).Runs l records end?) :
    fleet.ListsWell masternode l := by
  have unlisted {l : Log} (hl : Only fleet.IsEarly l) : Only (fun r => ¬ fleet.IsListing r) l :=
    hl.mono fun _ hr => hr.1
  obtain hl | ⟨l₁, m₁, _, _, key, rfl, h₁, ⟨hkey, -⟩, hfund⟩ :=
    h.beyond (Stage.asks_on (early_sessions.queryToken ⟨id, id⟩))
  · exact .inl (unlisted hl)
  obtain hl | ⟨l₂, m₂, _, _, address, rfl, h₂, -, hsend⟩ :=
    hfund.beyond (Stage.asks_on (early_sessions.queryToken ⟨id, id⟩))
  · exact .inl (Composes.append (unlisted h₁) (unlisted hl))
  -- the payment is no listing, whether it is accepted or not
  have hpay : Leaves (Only fun r => ¬ fleet.IsListing r)
      (queryToken fleet.roster.main (fleet.command (.pay address amount))) := by
    refine leaves_mono (fun _ hl => hl.mono fun r hr => ?_) queryToken_only
    rcases hr with rfl | rfl | rfl
    all_goals exact id
  obtain hl | ⟨l₃, m₃, _, _, hash, rfl, h₃, ⟨hsent, -⟩, hconfirm⟩ :=
    hsend.beyond (Stage.asks_on hpay)
  · exact .inl (Composes.append (unlisted h₁) (Composes.append (unlisted h₂) hl))
  obtain hl | ⟨l₄, m₄, _, _, attempts, rfl, h₄, ⟨hseen, -⟩, hlist⟩ :=
    hconfirm.beyond (Stage.asks_on (awaitConfirmation_early _ hash))
  · exact .inl (Composes.append (unlisted h₁)
      (Composes.append (unlisted h₂) (Composes.append h₃ (unlisted hl))))
  have hfirst := Composes.append (unlisted h₁) (Composes.append (unlisted h₂)
    (Composes.append h₃ (unlisted h₄)))
  obtain ⟨keyReply, rfl, hword⟩ := yields_queryToken_ok.mp hkey
  obtain ⟨payReply, rfl, hhash⟩ := yields_queryToken_ok.mp hsent
  obtain ⟨k₁, listing, k₂, rfl, hne, hline⟩ := fleet.awaitConfirmation_ok hseen
  have hk₁ : Only fleet.IsEarly k₁ := fun e he => h₄ e (List.mem_append_left _ he)
  have hk₂ : Only fleet.IsEarly k₂ := fun e he =>
    h₄ e (List.mem_append_right _ (List.mem_cons_of_mem _ he))
  have hprovided := provided_of_stages address amount h₂ hk₁ hk₂ hword hhash hne hline
  have hwell := listStage_listsWell hprovided hfirst hlist
  simpa only [List.append_assoc] using hwell

/-! ## A whole cold restart -/

/-- A cold restart lists no masternode, or its first one, as it should. -/
theorem coldLine_listsWell (hconf : fleet.config.confFile ≠ "masternode.conf") {wiped : Bool}
    {requested? : Option Amount} {l : Log} {records : List StageRecord}
    {end? : Option (String × FleetError)}
    (h : (fleet.coldLine wiped requested?).Runs l records end?) :
    Only (fun r => ¬ fleet.IsListing r) l ∨
      ∃ masternode, fleet.roster.firstMasternode? = some masternode ∧
        fleet.ListsWell masternode l := by
  obtain rfl | ⟨amount, -, h⟩ := runs_known h
  · exact .inl Composes.nil
  obtain rfl | ⟨masternode, hchosen, h⟩ := runs_known h
  · exact .inl Composes.nil
  refine .inr ⟨masternode, fleet.chosenMasternode_eq_ok.mp hchosen, ?_⟩
  refine listsWell_beyond h (Stage.asks_collected stopHost_early) fun _ l records end? h => ?_
  -- from the end of the line to its beginning
  have hcontrol {l : Log} {records : List StageRecord} {end? : Option (String × FleetError)}
      (h : (fleet.controlLine amount masternode).Runs l records end?) :
      fleet.ListsWell masternode l := by
    unfold controlLine at h
    split at h
    · refine listsWell_beyond h (Stage.asks_on ?_) fun _ _ _ _ => listLine_listsWell
      exact leaves_bind (stopHost_early _) fun _ => startHost_early hconf _
    · exact listLine_listsWell h
  have hmain {l : Log} {records : List StageRecord} {end? : Option (String × FleetError)}
      (h : (fleet.mainLine amount masternode).Runs l records end?) :
      fleet.ListsWell masternode l := by
    refine listsWell_beyond h (Stage.asks_on (startHost_early hconf _)) fun _ _ _ _ h => ?_
    exact listsWell_beyond h (Stage.asks_silent (early_sessions.settle _)) fun _ _ _ _ => hcontrol
  unfold wipeLine at h
  split at h
  · exact listsWell_beyond h (Stage.asks_inTurn wipe_early) fun _ _ _ _ => hmain
  · exact hmain h

/-- The configuration of a listed masternode ends with its address, its key and its role. -/
theorem masternodeConfig_lines (masternode : Host) (key : String) :
    ["externalip=" ++ masternode.address, "masternodeprivkey=" ++ key, "masternode=1"] <:+
      (fleet.masternodeConfig masternode key).fileLines := by
  refine ⟨fleet.config.baseLines ++
    (fleet.stakingConfig masternode).peers.map ("addnode=" ++ ·), ?_⟩
  simp [masternodeConfig, NodeConfig.fileLines, NodeConfig.withKey, NodeConfig.promoted,
    stakingConfig, NodeConfig.staking]

/-- Where a cold restart writes the masternode list or has a masternode started, the log shows the
key, the only payment and its confirmation before, the list is written once with these and before
any masternode is started, and the only file after it is the configuration of the masternode with
its address, its key and its role. -/
theorem coldRestart_lists {σ : Type} (fleet : Fleet)
    (hconf : fleet.config.confFile ≠ "masternode.conf") (wiped : Bool)
    (requested? : Option Amount) (world : World σ) (s : σ) (e : Event)
    (he : e ∈ (fleet.coldRestart wiped requested?).log world s)
    (hlisting : fleet.IsListing e.request) :
    ∃ masternode key hash before answer after,
      fleet.roster.firstMasternode? = some masternode ∧
      fleet.Listed masternode key hash before answer after
        ((fleet.coldRestart wiped requested?).log world s) ∧
      (e.request = .write fleet.control fleet.daemon.masternodeListPath
          (fleet.masternodeLine masternode key hash ++ "\n").toUTF8 ∨
        e ∈ after ∧ e.request.StartsMasternode) ∧
      ["externalip=" ++ masternode.address, "masternodeprivkey=" ++ key, "masternode=1"] <:+
        (fleet.masternodeConfig masternode key).fileLines := by
  obtain ⟨records, end?, hruns, -⟩ := (fleet.coldRestart_follows wiped requested?).concludes
    (Program.yields_log world (fleet.coldRestart wiped requested?) s)
  obtain hnone | ⟨masternode, hfirst, hnone | ⟨key, hash, before, answer, after, hlisted⟩⟩ :=
    coldLine_listsWell hconf hruns
  · exact absurd hlisting (hnone e he)
  · exact absurd hlisting (hnone e he)
  refine ⟨masternode, key, hash, before, answer, after, hfirst, hlisted, ?_,
    masternodeConfig_lines masternode key⟩
  rw [hlisted.split] at he
  rcases List.mem_append.mp he with he | he
  · exact absurd hlisting (hlisted.first e he)
  rcases List.mem_cons.mp he with rfl | he
  · exact .inl rfl
  · refine .inr ⟨he, ?_⟩
    have hlate := hlisted.late e he
    obtain ⟨r, answer'⟩ := e
    cases r with
    | write _ _ _ =>
      obtain ⟨-, rfl, -⟩ := hlate
      exact absurd (confPath_eq_masternodeListPath.mp hlisting) hconf
    | _ => exact hlisting

theorem isListing_of_isLocalStart {r : Request} (h : r.isLocalStart = true) :
    fleet.IsListing r := by
  unfold Request.isLocalStart at h
  split at h
  · trivial
  · cases h

/-- Where everything goes well, the pair lists its masternode. -/
theorem coldRestart_lists_pair :
    pair.config.confFile ≠ "masternode.conf" ∧
    ∃ e ∈ (pair.coldRestart true none).log (.replying fun _ => Task.agreed) (),
      pair.IsListing e.request ∧
      ∃ masternode key hash before answer after,
        pair.roster.firstMasternode? = some masternode ∧
        pair.Listed masternode key hash before answer after
          ((pair.coldRestart true none).log (.replying fun _ => Task.agreed) ()) := by
  have hconf : pair.config.confFile ≠ "masternode.conf" := by decide
  have hlast : ∃ e ∈ (pair.coldRestart true none).log (.replying fun _ => Task.agreed) (),
      pair.IsListing e.request := by
    have hany : ((pair.coldRestart true none).log (.replying fun _ => Task.agreed) ()).any
        (fun e => e.request.isLocalStart) = true := by decide +kernel
    obtain ⟨e, he, hlocal⟩ := List.any_eq_true.mp hany
    exact ⟨e, he, isListing_of_isLocalStart hlocal⟩
  obtain ⟨e, he, hlisting⟩ := hlast
  obtain ⟨masternode, key, hash, before, answer, after, hfirst, hlisted, -⟩ :=
    coldRestart_lists pair hconf true none _ () e he hlisting
  exact ⟨hconf, e, he, hlisting, masternode, key, hash, before, answer, after, hfirst, hlisted⟩

end Fleet

end NodeFleet
