import NodeFleet.Proofs.Orders
import NodeFleet.Proofs.Payments
import NodeFleet.Proofs.PeerLists
import NodeFleet.Proofs.Promoting
import NodeFleet.Proofs.Rosters
import NodeFleet.Proofs.Words

/-!
# NodeFleet.Proofs.Generated — the words that daemons make, and where they end up

Keys, addresses and hashes are words that daemons have made.  They are put into node configurations,
into the masternode list and into the command that pays; nothing else that is asked holds one.  What
a daemon prints is taken as it is, so such a word may hold blanks, and the line of the masternode
list then has more than five fields.

* `Reply.Gives`: what is known of a word from the answer that it comes from.  `Log.Made`: a log
  shows that a host has made a word.
* `Grounded`: each request of a log may be made after what stands before it.
* `Fleet.Plain`: the requests that hold no generated word.
* `Fleet.PromotionUses`, `Fleet.TransferUses`, `Fleet.ColdUses`: the requests that may be made once
  certain words have been made.
* `Fleet.masternodeLine_words`: the fields of a line of the masternode list.
* `Fleet.generated_words`: every generated word is made before it is put to use.
-/

namespace NodeFleet

/-! ## Words and the answers that they come from -/

/-- The answer gives this word. -/
structure Reply.Gives (reply : Reply) (word : String) : Prop where
  /-- It is the first line that is not blank, without the double quotes at its two ends, and is
  inert when nothing but an inert word stands between those. -/
  line : ∃ line, reply.firstLine? = some line ∧ Text.mentions "not" line = false ∧
    Text.mentions "error" line = false ∧ word = Text.trimBoth '"' line ∧
    (Text.IsInert word ↔ ∃ n m core, Text.IsInert core ∧
      line.toList = List.replicate n '"' ++ (core.toList ++ List.replicate m '"'))
  bare : word.toList.head? ≠ some '"' ∧ word.toList.getLast? ≠ some '"'
  /-- A word that was printed stands on one line. -/
  unbroken {command raw : String} {status : Option Int} (h : reply = .ofText command raw status) :
    '\n' ∉ word.toList ∧ '\r' ∉ word.toList

/-- A word is accepted when an answer gives it. -/
theorem token_eq_ok {reply : Reply} {word : String} :
    token reply = .ok word ↔ reply.Gives word := by
  constructor
  · intro h
    unfold token at h
    split at h
    · cases h
    rename_i line hline
    split at h
    · cases h
    rename_i hnone
    cases h
    simp only [Bool.or_eq_true, not_or, Bool.not_eq_true] at hnone
    refine ⟨⟨line, hline, hnone.1, hnone.2, rfl, Text.isInert_trimBoth⟩,
      Text.trimBoth_bare '"' line, ?_⟩
    rintro command raw status rfl
    obtain ⟨printed, hprinted, rfl⟩ := List.mem_map.mp (List.mem_of_find?_eq_some hline)
    obtain ⟨hfeed, hreturn⟩ := Reply.unbroken hprinted
    exact ⟨fun h => hfeed (Text.mem_of_mem_trim (Text.mem_of_mem_trimBoth h)),
      fun h => hreturn (Text.mem_of_mem_trim (Text.mem_of_mem_trimBoth h))⟩
  · rintro ⟨⟨line, hline, hnot, herror, rfl, -⟩, -, -⟩
    unfold token
    rw [hline]
    simp [hnot, herror]

/-- The host has answered the command with this word. -/
def Log.Made (l : Log) (host : Host) (command : Command) (word : String) : Prop :=
  ∃ reply, (⟨.run host command, .ok reply⟩ : Event) ∈ l ∧ reply.Gives word

theorem Log.Made.mono {l l' : Log} {host : Host} {command : Command} {word : String}
    (h : l.Made host command word) (hl : l ⊆ l') : l'.Made host command word := by
  obtain ⟨reply, hanswer, hgives⟩ := h
  exact ⟨reply, hl hanswer, hgives⟩

/-- A word that was asked for in a session of its own has been made. -/
theorem made_of_queryToken {host : Host} {command : Command} {word : String} {l : Log}
    (h : (queryToken host command).run.Yields l (.ok word)) : l.Made host command word := by
  obtain ⟨reply, rfl, htoken⟩ := yields_queryToken_ok.mp h
  exact ⟨reply, mem_session.mpr (.inr (.inl (List.mem_singleton_self _))), token_eq_ok.mp htoken⟩

/-! ## Requests that rest on what stands before them -/

/-- What may be asked once something is known may also be asked once more is known. -/
class Accrues (may : Log → Request → Prop) : Prop where
  mono {known more : Log} {r : Request} (hsub : known ⊆ more) (h : may known r) : may more r

/-- Each request of a log may be made after what is known, and what stands before it in the log. -/
def Grounded (may : Log → Request → Prop) (known l : Log) : Prop :=
  ∀ before e after, l = before ++ e :: after → may (known ++ before) e.request

section Grounds

variable {may : Log → Request → Prop} {known l₁ l₂ : Log}

theorem grounded_nil : Grounded may known [] := by
  intro before e after hl
  simp at hl

theorem grounded_of_only [Accrues may] (h : Only (may known) l₁) : Grounded may known l₁ := by
  intro before e after hl
  exact Accrues.mono (List.subset_append_left known before) (h e (by simp [hl]))

theorem Grounded.append (h₁ : Grounded may known l₁) (h₂ : Grounded may (known ++ l₁) l₂) :
    Grounded may known (l₁ ++ l₂) := by
  intro before e after hl
  obtain ⟨mid, rfl, hmid⟩ | ⟨rest, rfl, rfl⟩ := split_append hl
  · rw [← List.append_assoc]
    exact h₂ mid e after hmid
  · exact h₁ before e rest rfl

/-- Every run of a line is grounded in what is known before it. -/
def Line.Grounds (may : Log → Request → Prop) (known : Log) (line : Line) : Prop :=
  ∀ l records end?, line.Runs l records end? → Grounded may known l

theorem Line.grounds_finished : Line.finished.Grounds may known := by
  intro l records end? h
  cases h
  exact grounded_nil

/-- A stage asks only what may be asked before it, and the stages after it know what it has left. -/
theorem Line.grounds_stage [Accrues may] {α : Type} {s : Stage α} {next : α → Line}
    (hs : s.Asks (may known))
    (hnext : ∀ l records a, s.Passes l records a → (next a).Grounds may (known ++ l)) :
    (Line.stage s next).Grounds may known := by
  intro l records end? h
  obtain ⟨l₁, l₂, r₁, r₂, a, rfl, -, hpass, hrest⟩ | ⟨e, -, hfail⟩ := Line.runs_stage.mp h
  · exact (grounded_of_only (hs.passes hpass)).append (hnext l₁ r₁ a hpass l₂ r₂ end? hrest)
  · exact grounded_of_only (hs.fails hfail)

end Grounds

namespace Fleet

variable (fleet : Fleet)

/-! ## Requests without a generated word -/

/-- The tasks whose lines hold only words of the description. -/
def plainTasks : List Task :=
  [.start, .stop, .wipe, .makeConfigDir, .enableGeneration, .privateKey, .accountAddress "",
    .accountAddress fleet.config.masternodeAlias, .outputs,
    .startAlias fleet.config.masternodeAlias, .startLocal]

/-- The request holds no generated word: it is a command that holds only words of the description,
or a node configuration without a key, or neither a command nor a file. -/
def Plain : Request → Prop
  | .run _ command => ∃ task ∈ fleet.plainTasks, command = fleet.command task
  | .write _ path contents => path = fleet.daemon.confPath ∧
      ∃ host, contents = (fleet.stakingConfig host).render.toUTF8 ∨
        contents = (fleet.keyMakerConfig host).render.toUTF8
  | _ => True

section Plain

variable {fleet} {host : Host} {r : Request}

theorem plain_task {task : Task} (h : task ∈ fleet.plainTasks) :
    fleet.Plain (.run host (fleet.command task)) := ⟨task, h, rfl⟩

theorem plain_aside (h : r.IsAside) : fleet.Plain r := by
  cases r with
  | run _ _ => exact absurd h id
  | write _ _ _ => exact absurd h id
  | _ => trivial

theorem plain_stop (h : fleet.StopAsks host r) : fleet.Plain r := by
  cases r with
  | run _ _ =>
    obtain ⟨-, rfl⟩ := h
    exact plain_task (by simp [plainTasks])
  | write _ _ _ => exact absurd h.2 id
  | _ => trivial

theorem plain_start (h : fleet.StartAsks host false r) : fleet.Plain r := by
  cases r with
  | run _ _ =>
    obtain ⟨-, ⟨rfl, -⟩ | ⟨rfl, -⟩ | rfl | ⟨rfl, -⟩⟩ := h
    all_goals exact plain_task (by simp [plainTasks])
  | write _ _ _ =>
    obtain ⟨-, -, rfl, rfl⟩ := h
    exact ⟨rfl, host, .inl rfl⟩
  | _ => trivial

theorem plain_makeKey (h : fleet.MakeKeyAsks host r) : fleet.Plain r := by
  cases r with
  | run _ _ =>
    obtain ⟨-, rfl | rfl | rfl⟩ := h
    all_goals exact plain_task (by simp [plainTasks])
  | write _ _ _ =>
    obtain ⟨-, rfl, rfl⟩ := h
    exact ⟨rfl, host, .inr rfl⟩
  | _ => trivial

/-- Any kind of requests that the plain ones belong to holds of whole sessions. -/
theorem sessions_only {ok : Request → Prop} (hok : ∀ r, fleet.Plain r → ok r) :
    HoldsOfSessions (fun _ => ok) (Only ok) :=
  holdsOfSessions_only (fun r hr => hok r (plain_aside hr))
    (fun host => hok (.connect host) trivial) fun host => hok (.close host) trivial

end Plain

/-! ## Requests that put generated words to use -/

/-- What a promotion may ask: the only generated word is the key that the staking host has made, in
the configuration of a masternode. -/
inductive PromotionUses (staking : Host) (known : Log) : Request → Prop
  | plain {r : Request} (h : fleet.Plain r) : PromotionUses staking known r
  | config {masternode : Host} {key : String} (hlisted : masternode ∈ fleet.masternodes)
    (hkey : known.Made staking (fleet.command .privateKey) key) :
    PromotionUses staking known (.write masternode fleet.daemon.confPath
      (fleet.promotedConfig masternode staking key).render.toUTF8)

/-- What a transfer may ask: it pays to the addresses that were given, and to those that the hosts
have made. -/
inductive TransferUses (hosts : List Host) (addresses : List String) (known : Log) : Request → Prop
  | plain {r : Request} (h : fleet.Plain r) : TransferUses hosts addresses known r
  | given {address : String} (amount : Amount) (h : address ∈ addresses) :
    TransferUses hosts addresses known
      (.run fleet.roster.main (fleet.command (.pay address amount)))
  | derived {host : Host} {address : String} (amount : Amount) (hhost : host ∈ hosts)
    (h : known.Made host (fleet.command (.accountAddress "")) address) :
    TransferUses hosts addresses known
      (.run fleet.roster.main (fleet.command (.pay address amount)))

/-- What a cold restart may ask: it pays to the address that the control wallet has made, lists the
first masternode with the key that the control wallet has made and the hash that the payment has
given, which is not empty, and configures it with that key. -/
inductive ColdUses (known : Log) : Request → Prop
  | plain {r : Request} (h : fleet.Plain r) : ColdUses known r
  | pay {address : String} (amount : Amount)
    (h : known.Made fleet.control
      (fleet.command (.accountAddress fleet.config.masternodeAlias)) address) :
    ColdUses known (.run fleet.roster.main (fleet.command (.pay address amount)))
  | list {masternode : Host} {key hash address : String} {amount : Amount}
    (hfirst : fleet.roster.firstMasternode? = some masternode)
    (hkey : known.Made fleet.control (fleet.command .privateKey) key)
    (hhash : known.Made fleet.roster.main (fleet.command (.pay address amount)) hash)
    (hne : hash ≠ "") :
    ColdUses known (.write fleet.control fleet.daemon.masternodeListPath
      (fleet.masternodeLine masternode key hash ++ "\n").toUTF8)
  | config {masternode : Host} {key : String}
    (hfirst : fleet.roster.firstMasternode? = some masternode)
    (hkey : known.Made fleet.control (fleet.command .privateKey) key) :
    ColdUses known (.write masternode fleet.daemon.confPath
      (fleet.masternodeConfig masternode key).render.toUTF8)

instance (staking : Host) : Accrues (fleet.PromotionUses staking) where
  mono hsub h := by
    cases h with
    | plain h => exact .plain h
    | config hlisted hkey => exact .config hlisted (hkey.mono hsub)

instance (hosts : List Host) (addresses : List String) :
    Accrues (fleet.TransferUses hosts addresses) where
  mono hsub h := by
    cases h with
    | plain h => exact .plain h
    | given amount h => exact .given amount h
    | derived amount hhost h => exact .derived amount hhost (h.mono hsub)

instance : Accrues fleet.ColdUses where
  mono hsub h := by
    cases h with
    | plain h => exact .plain h
    | pay amount h => exact .pay amount (h.mono hsub)
    | list hfirst hkey hhash hne => exact .list hfirst (hkey.mono hsub) (hhash.mono hsub) hne
    | config hfirst hkey => exact .config hfirst (hkey.mono hsub)

variable {fleet}

/-! ## Promotions -/

/-- The key with which a session ends has been made in it. -/
theorem made_of_makeKey {staking : Host} {stage : String} {before after : Report} {l : Log}
    {key : String}
    (h : (Conduct.inSession stage staking (fleet.makeKey staking)).Ends before l
      (.ok (key, after))) : l.Made staking (fleet.command .privateKey) key := by
  obtain ⟨_, -, heq⟩ | ⟨inner, rfl, hinner⟩ := Conduct.inSession_ends h
  · cases heq
  obtain ⟨_, _, _, heq, -⟩ | ⟨_, _, heq, hkey, -⟩ := makeKey_ends hinner
  · cases heq
  cases heq
  obtain ⟨reply, hanswer, htoken⟩ := hkey.answered
  exact ⟨reply, mem_session.mpr (.inr (.inl hanswer)), token_eq_ok.mp htoken⟩

/-- With the key, a masternode is configured and restarted. -/
theorem installMasternode_uses {staking masternode : Host} {key : String} {known : Log}
    (hlisted : masternode ∈ fleet.masternodes)
    (hkey : known.Made staking (fleet.command .privateKey) key) :
    Leaves (Only (fleet.PromotionUses staking known))
      (fleet.installMasternode staking key masternode) := by
  refine fleet.installMasternode_leaves (sessions_only fun _ => .plain) fun r hr => ?_
  cases r with
  | run _ _ =>
    obtain ⟨-, rfl | rfl | rfl⟩ := hr
    all_goals exact .plain (plain_task (by simp [plainTasks]))
  | write _ _ _ =>
    obtain ⟨rfl, rfl, rfl⟩ := hr
    exact .config hlisted hkey
  | _ => exact .plain trivial

/-- Without a key no generated word is put to use. -/
theorem makeKey_uses {staking : Host} {stage : String} :
    Leaves (Only (fleet.PromotionUses staking []))
      (Conduct.inSession stage staking (fleet.makeKey staking)) :=
  (sessions_only fun _ => .plain).conductInSession (fleet.makeKey_only staking)
    fun _ hr => .plain (plain_makeKey hr)

theorem promote_grounded {staking? : Option Host} {l : Log} {report : Report}
    (h : (fleet.promote staking?).Yields l report) :
    Grounded (fleet.PromotionUses (staking?.getD fleet.roster.stakingHost)) [] l := by
  obtain ⟨res, hends, rfl⟩ := Conduct.conclude_ends h
  by_cases hempty : fleet.masternodes.isEmpty = true
  · simp only [hempty, if_true] at hends
    obtain ⟨_, -, habort⟩ | ⟨_, _, _, _, -, habort, -⟩ := Conduct.ends_bind_cases hends
    · obtain ⟨rfl, -⟩ := Conduct.ends_abort.mp habort
      exact grounded_nil
    · cases (Conduct.ends_abort.mp habort).2
  simp only [hempty, Bool.false_eq_true, if_false] at hends
  obtain ⟨_, -, hfirst⟩ | ⟨l₁, l₂, key, mid, rfl, hfirst, hrest⟩ := Conduct.ends_bind_cases hends
  · exact grounded_of_only (makeKey_uses _ _ _ hfirst)
  · refine (grounded_of_only (makeKey_uses _ _ _ hfirst)).append (grounded_of_only ?_)
    exact Conduct.leaves_eachHost
      (fun host hlisted => installMasternode_uses hlisted (made_of_makeKey hfirst)) _ _ _ hrest

/-! ## Transfers -/

section Transfers

variable {hosts : List Host} {addresses : List String} {amount : Amount} {known l : Log}

/-- A host that has become a destination has made the address of it. -/
theorem made_of_derived {derived : List (Host × Except FleetError String)} {d : Destination}
    (hvisits : Visits (fun host => queryToken host (fleet.command (.accountAddress ""))) derived l)
    (hd : d ∈ derived.filterMap derived?) :
    ∃ host ∈ derived.map Prod.fst, l.Made host (fleet.command (.accountAddress "")) d.address := by
  obtain ⟨⟨host, result⟩, hv, hsome⟩ := List.mem_filterMap.mp hd
  cases result with
  | error e => cases hsome
  | ok address =>
    cases hsome
    obtain ⟨m₁, m₂, m₃, rfl, hyields⟩ := hvisits.of_mem hv
    refine ⟨host, List.mem_map_of_mem hv, (made_of_queryToken hyields).mono ?_⟩
    exact List.subset_append_of_subset_right _ (List.subset_append_left _ _)

/-- The sum is sent to the addresses of the destinations. -/
theorem sends_uses {destinations : List Destination} {transfers : List Transfer}
    (h : fleet.Sends amount destinations l transfers)
    (hall : ∀ d ∈ destinations, fleet.TransferUses hosts addresses known
      (.run fleet.roster.main (fleet.command (.pay d.address amount)))) :
    Only (fleet.TransferUses hosts addresses known) l := by
  have hP : HoldsOfSessions _ (Only (fleet.TransferUses hosts addresses known)) :=
    sessions_only fun _ => .plain
  cases h with
  | nowhere _ => exact Composes.nil
  | refused _ cause => exact hP.refused _ cause
  | sent _ sends hsends =>
    refine hP.session fun e he => ?_
    obtain ⟨send, hsend, rfl⟩ := List.mem_map.mp he
    exact hall send.1 (hsends ▸ List.mem_map_of_mem hsend)

theorem transfer_grounded {requested? : Option Amount} {report : Report}
    (h : (fleet.transfer hosts addresses requested?).Yields l report) :
    Grounded (fleet.TransferUses hosts addresses) [] l := by
  have htransfers := transfer_transfers h
  generalize report.transfers = transfers at htransfers
  cases htransfers with
  | unasked _ => exact grounded_nil
  | asked _ hvisits hall _ hsends =>
    have hplain (r : Request) (hr : fleet.Plain r) :
        fleet.TransferUses hosts addresses [] r := .plain hr
    refine (grounded_of_only ?_).append (grounded_of_only (sends_uses hsends fun d hd => ?_))
    · refine hvisits.only fun v _ => (sessions_only hplain).queryToken ?_
      exact .plain (plain_task (by simp [plainTasks]))
    · obtain hd | hd := List.mem_append.mp hd
      · obtain ⟨host, hhost, hmade⟩ := made_of_derived hvisits hd
        exact .derived _ (hall ▸ hhost) hmade
      · obtain ⟨address, haddress, rfl⟩ := List.mem_map.mp hd
        exact .given _ haddress

end Transfers

/-! ## Cold restarts -/

section Cold

variable {masternode : Host} {key hash : String} {known : Log}

theorem coldUses_sessions : HoldsOfSessions (fun _ => fleet.ColdUses known)
    (Only (fleet.ColdUses known)) := sessions_only fun _ => .plain

/-- A command in a session of its own that holds no generated word. -/
theorem query_uses {host : Host} {task : Task} {kind : ReplyKind} (h : task ∈ fleet.plainTasks) :
    Leaves (Only (fleet.ColdUses known)) (query host (fleet.command task) kind) :=
  coldUses_sessions.query (.plain (plain_task h))

theorem queryToken_uses {host : Host} {task : Task} (h : task ∈ fleet.plainTasks) :
    Leaves (Only (fleet.ColdUses known)) (queryToken host (fleet.command task)) :=
  coldUses_sessions.queryToken (.plain (plain_task h))

theorem stopHost_uses (host : Host) : Leaves (Only (fleet.ColdUses known)) (fleet.stopHost host) :=
  fleet.stopHost_leaves coldUses_sessions fun _ hr => .plain (plain_stop hr)

theorem startHost_uses (host : Host) :
    Leaves (Only (fleet.ColdUses known)) (fleet.startHost false host) :=
  fleet.startHost_leaves coldUses_sessions fun _ hr => .plain (plain_start hr)

theorem wipe_uses (host : Host) :
    Leaves (Only (fleet.ColdUses known)) (inSession host (fleet.wipe host)) :=
  fleet.wipe_leaves coldUses_sessions (.plain (plain_task (by simp [plainTasks])))

theorem awaitConfirmation_uses (host : Host) (hash : String) :
    Leaves (Only (fleet.ColdUses known)) (fleet.awaitConfirmation host hash) :=
  fleet.awaitConfirmation_leaves coldUses_sessions (.plain (plain_task (by simp [plainTasks]))) hash

/-- The masternode is configured with a key that has been made. -/
theorem startMasternode_uses (hfirst : fleet.roster.firstMasternode? = some masternode)
    (hkey : known.Made fleet.control (fleet.command .privateKey) key) :
    Leaves (Only (fleet.ColdUses known)) (fleet.startMasternode masternode key) := by
  refine fleet.startMasternode_leaves coldUses_sessions fun r hr => ?_
  cases r with
  | run _ _ =>
    obtain ⟨-, rfl | rfl⟩ := hr
    all_goals exact .plain (plain_task (by simp [plainTasks]))
  | write _ _ _ =>
    obtain ⟨rfl, rfl, rfl⟩ := hr
    exact .config hfirst hkey
  | _ => exact .plain trivial

theorem startLine_grounds (hfirst : fleet.roster.firstMasternode? = some masternode)
    (hkey : known.Made fleet.control (fleet.command .privateKey) key) :
    (fleet.startLine masternode key).Grounds fleet.ColdUses known := by
  refine Line.grounds_stage (Stage.asks_on (startMasternode_uses hfirst hkey)) fun _ _ _ _ => ?_
  refine Line.grounds_stage (Stage.asks_on (query_uses (by simp [plainTasks]))) fun _ _ _ _ => ?_
  refine Line.grounds_stage (Stage.asks_on (query_uses (by simp [plainTasks]))) fun _ _ _ _ => ?_
  exact Line.grounds_finished

/-- The list is written with a key and a hash that have been made. -/
theorem writeMasternodeList_uses {address : String} {amount : Amount}
    (hfirst : fleet.roster.firstMasternode? = some masternode)
    (hkey : known.Made fleet.control (fleet.command .privateKey) key)
    (hhash : known.Made fleet.roster.main (fleet.command (.pay address amount)) hash)
    (hne : hash ≠ "") :
    Leaves (Only (fleet.ColdUses known))
      (fleet.writeMasternodeList (fleet.masternodeLine masternode key hash)) :=
  fleet.writeMasternodeList_leaves coldUses_sessions
    (.plain (plain_task (by simp [plainTasks]))) (.list hfirst hkey hhash hne)

theorem listLine_grounds {amount : Amount}
    (hfirst : fleet.roster.firstMasternode? = some masternode) :
    (fleet.listLine amount masternode).Grounds fleet.ColdUses known := by
  refine Line.grounds_stage (Stage.asks_on (queryToken_uses (by simp [plainTasks]))) ?_
  -- key, address, hash and sighting: each stage may use what the ones before have got
  rintro l₁ _ key ⟨hkey, -⟩
  have hkey := made_of_queryToken hkey
  refine Line.grounds_stage (Stage.asks_on (queryToken_uses (by simp [plainTasks]))) ?_
  rintro l₂ _ address ⟨haddress, -⟩
  have haddress := (made_of_queryToken haddress).mono (List.subset_append_right (known ++ l₁) l₂)
  refine Line.grounds_stage (Stage.asks_on (coldUses_sessions.queryToken (.pay _ haddress))) ?_
  rintro l₃ _ hash ⟨hhash, -⟩
  have hhash := made_of_queryToken hhash
  refine Line.grounds_stage (Stage.asks_on (awaitConfirmation_uses _ hash)) ?_
  rintro l₄ _ attempts ⟨hseen, -⟩
  obtain ⟨_, _, _, -, hne, -⟩ := fleet.awaitConfirmation_ok hseen
  have hkey : (known ++ l₁ ++ l₂ ++ l₃ ++ l₄).Made fleet.control (fleet.command .privateKey) key :=
    hkey.mono fun e he => by simp [he]
  have hhash : (known ++ l₁ ++ l₂ ++ l₃ ++ l₄).Made fleet.roster.main
      (fleet.command (.pay address amount)) hash :=
    hhash.mono fun e he => by simp [he]
  refine Line.grounds_stage (Stage.asks_on (writeMasternodeList_uses hfirst hkey hhash hne)) ?_
  intro l₅ _ _ _
  exact startLine_grounds hfirst (hkey.mono (List.subset_append_left _ l₅))

theorem coldLine_grounds {wiped : Bool} {requested? : Option Amount} {l : Log}
    {records : List StageRecord} {end? : Option (String × FleetError)}
    (h : (fleet.coldLine wiped requested?).Runs l records end?) :
    Grounded fleet.ColdUses [] l := by
  obtain rfl | ⟨amount, -, h⟩ := runs_known h
  · exact grounded_nil
  obtain rfl | ⟨masternode, hchosen, h⟩ := runs_known h
  · exact grounded_nil
  have hfirst := fleet.chosenMasternode_eq_ok.mp hchosen
  -- from the end of the line to its beginning, whatever words are known by then
  have hcontrol (known : Log) :
      (fleet.controlLine amount masternode).Grounds fleet.ColdUses known := by
    unfold controlLine
    split
    · refine Line.grounds_stage (Stage.asks_on ?_) fun _ _ _ _ => listLine_grounds hfirst
      exact leaves_bind (stopHost_uses _) fun _ => startHost_uses _
    · exact listLine_grounds hfirst
  have hmain (known : Log) : (fleet.mainLine amount masternode).Grounds fleet.ColdUses known := by
    refine Line.grounds_stage (Stage.asks_on (startHost_uses _)) fun _ _ _ _ => ?_
    exact Line.grounds_stage (Stage.asks_silent (coldUses_sessions.settle _)) fun _ _ _ _ =>
      hcontrol _
  have hwipe (known : Log) :
      (fleet.wipeLine wiped amount masternode).Grounds fleet.ColdUses known := by
    unfold wipeLine
    split
    · exact Line.grounds_stage (Stage.asks_inTurn wipe_uses) fun _ _ _ _ => hmain _
    · exact hmain known
  exact Line.grounds_stage (Stage.asks_collected stopHost_uses) (fun _ _ _ _ => hwipe _) _ _ _ h

theorem coldRestart_grounded {wiped : Bool} {requested? : Option Amount} {l : Log} {report : Report}
    (h : (fleet.coldRestart wiped requested?).Yields l report) :
    Grounded fleet.ColdUses [] l := by
  obtain ⟨records, end?, hruns, -⟩ := (fleet.coldRestart_follows wiped requested?).concludes h
  exact coldLine_grounds hruns

end Cold

/-! ## The fields of the masternode list -/

/-- The alias is a word, or the description would be at fault. -/
theorem alias_isWord : Text.IsWord fleet.config.masternodeAlias := by
  obtain ⟨_, hvalid, -⟩ := bind_eq_ok fleet.ofConfig_config
  unfold Config.validate at hvalid
  split at hvalid
  · cases hvalid
  rename_i hnone
  simp only [Config.fault?, Option.orElse_eq_orElse, Option.orElse_eq_or,
    Option.or_eq_none_iff] at hnone
  obtain ⟨-, -, -, -, -, -, halias⟩ := hnone
  unfold Config.aliasFault? at halias
  split at halias
  · cases halias
  rename_i hgood
  simp only [Bool.or_eq_true, not_or, Bool.not_eq_true] at hgood
  refine ⟨fun hempty => ?_, by simpa using hgood.2⟩
  simp [hempty] at hgood

variable (fleet) in
theorem endpoint_isWord (masternode : Host) :
    Text.IsWord (masternode.address ++ ":" ++ toString fleet.config.network.port) ↔
      ∀ c ∈ masternode.address.toList, Text.isBlank c = false := by
  have hport := Text.number_not_blank fleet.config.network.port
  have hcolon : (":" : String).toList = [':'] := rfl
  unfold Text.IsWord
  rw [String.toList_append, String.toList_append, List.forall_mem_append, List.forall_mem_append,
    hcolon, List.forall_mem_singleton]
  constructor
  · exact fun h => h.2.1.1
  · intro h
    refine ⟨fun hempty => ?_, ⟨h, by decide⟩, hport⟩
    simpa using congrArg String.toList hempty

/-- The line of the masternode list has the alias, the endpoint, the key and the hash for its words,
those of each in its place. -/
theorem masternodeLine_words (masternode : Host) (key hash : String) :
    Text.words (fleet.masternodeLine masternode key hash) =
      [fleet.config.masternodeAlias] ++
        Text.words (masternode.address ++ ":" ++ toString fleet.config.network.port) ++
        Text.words key ++ Text.words hash ++ ["1"] := by
  have hline : fleet.masternodeLine masternode key hash =
      fleet.config.masternodeAlias ++ " " ++
        (masternode.address ++ ":" ++ toString fleet.config.network.port) ++ " " ++ key ++ " " ++
        hash ++ " " ++ "1" := by
    have hlast : (" 1" : String) = " " ++ "1" := rfl
    unfold masternodeLine
    rw [hlast]
    simp only [String.append_assoc]
  rw [hline, Text.words_space, Text.words_space, Text.words_space, Text.words_space,
    Text.words_eq_singleton.mpr alias_isWord]
  rfl

/-- It has five fields exactly where the endpoint, the key and the hash are words. -/
theorem masternodeLine_fields {masternode : Host} {key hash : String} :
    Text.words (fleet.masternodeLine masternode key hash) =
        [fleet.config.masternodeAlias,
          masternode.address ++ ":" ++ toString fleet.config.network.port, key, hash, "1"] ↔
      (∀ c ∈ masternode.address.toList, Text.isBlank c = false) ∧ Text.IsWord key ∧
        Text.IsWord hash := by
  rw [← fleet.endpoint_isWord]
  constructor
  · intro h
    have hword {field : String} (hfield : field ∈ [fleet.config.masternodeAlias,
        masternode.address ++ ":" ++ toString fleet.config.network.port, key, hash, "1"]) :
        Text.IsWord field := Text.isWord_of_mem (h ▸ hfield)
    exact ⟨hword (by simp), hword (by simp), hword (by simp)⟩
  · rintro ⟨hendpoint, hkey, hhash⟩
    rw [masternodeLine_words, Text.words_eq_singleton.mpr hendpoint,
      Text.words_eq_singleton.mpr hkey, Text.words_eq_singleton.mpr hhash]
    rfl

/-! ## All three procedures -/

/-- In any world, whatever generated word a promotion, a transfer or a cold restart puts to use has
been made before, by the host that has to make it, and is the line that this host has printed; and a
word is accepted from an answer exactly if the answer gives it.  A line of the masternode list has
its five fields exactly where the address, the key and the hash hold no blanks and the last two are
not empty. -/
theorem generated_words {σ : Type} (fleet : Fleet) (world : World σ) (s : σ) :
    (∀ staking?, Grounded (fleet.PromotionUses (staking?.getD fleet.roster.stakingHost)) []
      ((fleet.promote staking?).log world s)) ∧
    (∀ hosts addresses requested?, Grounded (fleet.TransferUses hosts addresses) []
      ((fleet.transfer hosts addresses requested?).log world s)) ∧
    (∀ wiped requested?, Grounded fleet.ColdUses []
      ((fleet.coldRestart wiped requested?).log world s)) ∧
    (∀ reply word, token reply = .ok word ↔ Reply.Gives reply word) ∧
    ∀ (masternode : Host) (key hash : String),
      Text.words (fleet.masternodeLine masternode key hash) =
          [fleet.config.masternodeAlias,
            masternode.address ++ ":" ++ toString fleet.config.network.port, key, hash, "1"] ↔
        (∀ c ∈ masternode.address.toList, Text.isBlank c = false) ∧ Text.IsWord key ∧
          Text.IsWord hash := by
  refine ⟨fun staking? => ?_, fun hosts addresses requested? => ?_, fun wiped requested? => ?_,
    fun _ _ => token_eq_ok, fun _ _ _ => masternodeLine_fields⟩
  · exact promote_grounded (Program.yields_log world _ s)
  · exact transfer_grounded (Program.yields_log world _ s)
  · exact coldRestart_grounded (Program.yields_log world _ s)

end Fleet

/-- The answers of a daemon that lets everything go well, but whose wallet is locked: it makes no
key, and does not call that an error. -/
def Task.locked : Task → String
  | .privateKey => "wallet is locked"
  | task => task.agreed

namespace Fleet

/-- A wallet that does not make a key, and says so without `not` or `error`, has its words taken for
the key: they are put into the masternode list, the line of which then has seven fields. -/
theorem coldRestart_lists_refusal :
    ¬ ∀ e ∈ (pair.coldRestart false none).log (.replying fun _ => Task.locked) (),
      ∀ key hash, e.request = .write pair.control pair.daemon.masternodeListPath
          (pair.masternodeLine .mn key hash ++ "\n").toUTF8 →
        Text.IsInert key ∧ Text.IsInert hash ∧
          Text.words (pair.masternodeLine .mn key hash) =
            [pair.config.masternodeAlias,
              Host.mn.address ++ ":" ++ toString pair.config.network.port, key, hash, "1"] := by
  intro hinert
  have hwritten : ((pair.coldRestart false none).log (.replying fun _ => Task.locked) ()).any
      (fun e => decide (e.request.file? = some (pair.control, pair.daemon.masternodeListPath,
        (pair.masternodeLine .mn "wallet is locked" "hash" ++ "\n").toUTF8))) = true := by
    decide +kernel
  obtain ⟨e, he, hfile⟩ := List.any_eq_true.mp hwritten
  have hrequest := Request.file?_eq_some.mp (of_decide_eq_true hfile)
  obtain ⟨⟨hword, -⟩, -, -⟩ := hinert e he _ _ hrequest
  exact absurd (hword.2 ' ' (by simp)) (by decide)

end Fleet

end NodeFleet
