import NodeFleet.Proofs.Orders
import NodeFleet.Proofs.Replying
import NodeFleet.Proofs.Rosters

/-!
# NodeFleet.Proofs.PeerLists — which peers the files of an order list

A node configuration names each of its peers once.  The configurations that are made from the whole
fleet leave out the host that they are for; those that a promotion makes do not look at it, and name
a masternode that makes the key for itself as its own peer.

* `NodeConfig.peerLine`, `NodeConfig.identityLines`: the lines of a file after the base lines.
* `Fleet.ListsPeers`: how the lines of a node configuration stand.
* `Fleet.ListsItself`: when an order writes a host's own address to it.
* `Fleet.program_files`: the files that each order writes.
* `Fleet.promote_lists_itself`: a promotion that names a host as its own peer.
-/

namespace NodeFleet

/-- The host, the path and the contents of a file that is written. -/
def Request.file? : Request → Option (Host × String × ByteArray)
  | .write host path contents => some (host, path, contents)
  | _ => none

theorem Request.file?_eq_some {r : Request} {host : Host} {path : String} {contents : ByteArray} :
    r.file? = some (host, path, contents) ↔ r = .write host path contents := by
  cases r with
  | write h p c => simp [file?]
  | _ => simp [file?]

namespace NodeConfig

variable {a b : String} {conf : NodeConfig}

/-- The line that names a peer. -/
def peerLine (address : String) : String := "addnode=" ++ address

/-- The lines after the peers: the address, the key and the role of a masternode. -/
def identityLines (conf : NodeConfig) : List String :=
  (conf.externalAddress?.map ("externalip=" ++ ·)).toList ++
    (conf.privateKey?.map ("masternodeprivkey=" ++ ·)).toList ++
    (if conf.isMasternode then ["masternode=1"] else [])

theorem fileLines_eq :
    conf.fileLines = conf.base ++ (conf.peers.map peerLine ++ conf.identityLines) := by
  simp [fileLines, identityLines, peerLine]

theorem peerLine_inj : peerLine a = peerLine b ↔ a = b := by
  unfold peerLine
  exact String.append_right_inj _

theorem peerLine_mem {peers : List String} : peerLine a ∈ peers.map peerLine ↔ a ∈ peers := by
  simp [peerLine_inj]

/-- No line after the peers names one. -/
theorem peerLine_not_mem_identityLines : peerLine a ∉ conf.identityLines := by
  have hfirst : (peerLine a).toList.head? = some 'a' := by simp [peerLine]
  intro hm
  have hother : (peerLine a).toList.head? ≠ some 'a' := by
    unfold identityLines at hm
    simp only [List.mem_append, Option.mem_toList, Option.map_eq_some_iff] at hm
    rcases hm with (⟨address, -, heq⟩ | ⟨key, -, heq⟩) | hm
    · rw [← heq]
      simp
    · rw [← heq]
      simp
    · split at hm
      · rw [List.mem_singleton.mp hm]
        simp
      · exact absurd hm List.not_mem_nil
  exact hother hfirst

theorem staking_peers_nodup (base peers : List String) : (staking base peers).peers.Nodup :=
  nodup_foldl_addNew List.nodup_nil

theorem mem_staking_peers {base peers : List String} :
    a ∈ (staking base peers).peers ↔ a ∈ peers := by
  show a ∈ peers.foldl addNew [] ↔ _
  rw [mem_foldl_addNew]
  simp

end NodeConfig

theorem Roster.mem_peers {r : Roster} {host : Host} {address : String} :
    address ∈ r.peers (some host) ↔
      address ≠ host.address ∧ ∃ entry ∈ r.entries, entry.address = address := by
  unfold Roster.peers
  dsimp only
  rw [mem_foldl_addNew]
  simp only [List.not_mem_nil, false_or, List.mem_map, List.mem_filter]
  constructor
  · rintro ⟨entry, ⟨hm, hother⟩, rfl⟩
    refine ⟨fun heq => ?_, entry, hm, rfl⟩
    simp [heq] at hother
  · rintro ⟨hne, entry, hm, rfl⟩
    refine ⟨entry, ⟨hm, ?_⟩, rfl⟩
    simpa using fun heq => hne heq.symm

namespace Fleet

variable (fleet : Fleet)

/-- How the lines of a node configuration for a host stand: the base lines of the fleet, a line for
each peer, none of them twice, and then none that names a peer.  The host's own address is among the
peers exactly when `itself` holds. -/
def ListsPeers (host : Host) (itself : Prop) (lines : List String) : Prop :=
  ∃ peers rest : List String,
    lines = fleet.config.baseLines ++ (peers.map NodeConfig.peerLine ++ rest) ∧
    (peers.map NodeConfig.peerLine).Nodup ∧
    (∀ address, NodeConfig.peerLine address ∉ rest) ∧
    (NodeConfig.peerLine host.address ∈ peers.map NodeConfig.peerLine ↔ itself)

/-- When an order has a host listed as its own peer: a promotion, where the host has the address of
the one that makes the key, and that is the address of a masternode. -/
def ListsItself (order : Order) (host : Host) : Prop :=
  ∃ staking?, order = .promote staking? ∧ host.address = (fleet.promoter staking?).address ∧
    host.address ∈ fleet.masternodes.map Host.address

/-- The files that an order writes: node configurations, the masternode list of a cold restart, and
the staged binaries of an installation. -/
def Files (order : Order) : Request → Prop
  | .write host path contents =>
    (∃ conf : NodeConfig, path = fleet.daemon.confPath ∧ contents = conf.render.toUTF8 ∧
      fleet.ListsPeers host (fleet.ListsItself order host) conf.fileLines) ∨
    (∃ wiped amount?, order = .coldRestart wiped amount? ∧ host = fleet.control ∧
      path = fleet.daemon.masternodeListPath) ∨
    ∃ targets binary, order = .installBinaries targets ∧
      path = stagedPath (fleet.installPath binary) ∧ contents = binary.contents
  | _ => True

section Configs

variable {fleet} {host : Host} {itself : Prop}

theorem listsPeers_of_peers {conf : NodeConfig} (hbase : conf.base = fleet.config.baseLines)
    (hnodup : conf.peers.Nodup) (hown : host.address ∈ conf.peers ↔ itself) :
    fleet.ListsPeers host itself conf.fileLines := by
  refine ⟨conf.peers, conf.identityLines, ?_, ?_, ?_, ?_⟩
  · rw [NodeConfig.fileLines_eq, hbase]
  · exact List.Pairwise.map _ (fun _ _ hne => mt NodeConfig.peerLine_inj.mp hne) hnodup
  · exact fun address => NodeConfig.peerLine_not_mem_identityLines
  · rw [NodeConfig.peerLine_mem]
    exact hown

/-- A host is no peer of its own where it has the rest of the fleet as peers. -/
theorem stakingConfig_excludes (h : ¬ itself) :
    fleet.ListsPeers host itself (fleet.stakingConfig host).fileLines := by
  refine listsPeers_of_peers rfl (NodeConfig.staking_peers_nodup fleet.config.baseLines _) ?_
  rw [stakingConfig, NodeConfig.mem_staking_peers, Roster.mem_peers]
  simp [h]

theorem masternodeConfig_excludes {key : String} (h : ¬ itself) :
    fleet.ListsPeers host itself (fleet.masternodeConfig host key).fileLines := by
  refine listsPeers_of_peers rfl (NodeConfig.staking_peers_nodup fleet.config.baseLines _) ?_
  show host.address ∈ (fleet.stakingConfig host).peers ↔ itself
  rw [stakingConfig, NodeConfig.mem_staking_peers, Roster.mem_peers]
  simp [h]

/-- The host that makes the key is its own peer where it has the address of a masternode. -/
theorem keyMakerConfig_lists
    (h : host.address ∈ fleet.masternodes.map Host.address ↔ itself) :
    fleet.ListsPeers host itself (fleet.keyMakerConfig host).fileLines := by
  refine listsPeers_of_peers rfl (NodeConfig.staking_peers_nodup fleet.config.baseLines _) ?_
  rw [keyMakerConfig, NodeConfig.mem_staking_peers, List.mem_append, Roster.mem_peers, ← h]
  simp

/-- A promoted masternode is its own peer where it has the address of the host that made the key. -/
theorem promotedConfig_lists {staking : Host} {key : String}
    (h : host.address = staking.address ↔ itself) :
    fleet.ListsPeers host itself (fleet.promotedConfig host staking key).fileLines := by
  refine listsPeers_of_peers rfl (NodeConfig.staking_peers_nodup fleet.config.baseLines _) ?_
  show host.address ∈ (NodeConfig.staking fleet.config.baseLines [staking.address]).peers ↔ itself
  rw [NodeConfig.mem_staking_peers, List.mem_singleton]
  exact h

end Configs

/-- An order lists a host as its own peer only in a promotion. -/
theorem not_listsItself {order : Order} {host : Host} (h : ∀ staking?, order ≠ .promote staking?) :
    ¬ fleet.ListsItself order host := fun ⟨staking?, horder, _⟩ => h staking? horder

theorem promote_listsItself {staking? : Option String} {host : Host} :
    fleet.ListsItself (.promote staking?) host ↔
      host.address = (fleet.promoter staking?).address ∧
        host.address ∈ fleet.masternodes.map Host.address := by
  constructor
  · rintro ⟨_, heq, h⟩
    cases heq
    exact h
  · exact fun h => ⟨staking?, rfl, h⟩

/-- Of what an order asks of a host, the files are those of the order. -/
theorem files_of_asks {order : Order} {host : Host} {r : Request} (h : fleet.Asks order host r) :
    fleet.Files order r := by
  -- only a write has a file; on anything else there is nothing to say
  cases r with
  | write other path contents =>
    cases order with
    | sweep targets => exact absurd h.2.2 id
    | stop targets => exact absurd h.2.2 id
    | start targets wiped =>
      obtain ⟨-, rfl, -, rfl, rfl⟩ := h
      exact .inl ⟨_, rfl, rfl, stakingConfig_excludes (fleet.not_listsItself fun _ => by simp)⟩
    | restart wiped =>
      obtain ⟨-, ⟨-, h⟩ | ⟨rfl, -, rfl, rfl⟩⟩ := h
      · exact absurd h id
      · exact .inl ⟨_, rfl, rfl, stakingConfig_excludes (fleet.not_listsItself fun _ => by simp)⟩
    | coldRestart wiped amount? =>
      cases h with
      | stop h => exact absurd h.2 id
      | start h =>
        obtain ⟨rfl, -, rfl, rfl⟩ := h
        exact .inl ⟨_, rfl, rfl, stakingConfig_excludes (fleet.not_listsItself fun _ => by simp)⟩
      | writeList key hash hfirst => exact .inr (.inl ⟨wiped, amount?, rfl, rfl, rfl⟩)
      | startMasternode key hfirst h =>
        obtain ⟨rfl, rfl, rfl⟩ := h
        exact .inl ⟨_, rfl, rfl, masternodeConfig_excludes (fleet.not_listsItself fun _ => by simp)⟩
    | writeStakingConfigs targets =>
      obtain ⟨-, rfl, rfl, rfl⟩ := h
      exact .inl ⟨_, rfl, rfl, stakingConfig_excludes (fleet.not_listsItself fun _ => by simp)⟩
    | promote staking? =>
      obtain ⟨rfl, rfl, rfl, rfl⟩ | ⟨hm, key, rfl, rfl, rfl⟩ := h
      · refine .inl ⟨_, rfl, rfl, keyMakerConfig_lists ?_⟩
        rw [promote_listsItself]
        exact (and_iff_right rfl).symm
      · refine .inl ⟨_, rfl, rfl, promotedConfig_lists ?_⟩
        rw [promote_listsItself]
        exact (and_iff_left (List.mem_map_of_mem hm)).symm
    | installBinaries targets =>
      obtain ⟨-, binaries, rfl, binary, -, rfl, rfl⟩ := h
      exact .inr (.inr ⟨targets, binary, rfl, rfl, rfl⟩)
    | transfer tokens amount? =>
      obtain ⟨-, heq⟩ | ⟨-, amount, destinations, -, h⟩ := h
      · cases heq
      · exact absurd h id
    | awaitBalance targets amount? => cases h.2
    | reboot targets =>
      obtain ⟨-, ⟨-, h⟩ | ⟨-, h⟩⟩ := h
      all_goals exact absurd h id
    | openConsoles targets => exact absurd h id
  | _ => trivial

/-- Every file that an order writes is a node configuration, the masternode list of a cold restart
or a staged binary.  A node configuration has the base lines and then each peer once.  The host that
it is written to is among the peers exactly when the order is a promotion, and the host has the
address of the one that makes the key, and that is the address of a masternode. -/
theorem program_files {σ : Type} (order : Order) (world : World σ) (s : σ) :
    Only (fleet.Files order) ((fleet.program order).log world s) := by
  intro e he
  obtain ⟨r, answer⟩ := e
  cases r with
  | write host path contents =>
    obtain ⟨asked, hasks⟩ := fleet.asks_of_write (Program.yields_log world _ s) he
    exact fleet.files_of_asks hasks
  | _ => trivial

end Fleet

/-- The description of a main host and of a host under two roles, with no waits. -/
def Config.dual : Config := { Config.pair with stakingNodes := [.plain "mn" "10.0.0.2"] }

/-- The entries of the two hosts. -/
def Roster.dual : Roster where
  main := Roster.pair.main
  others := [.mn, { Host.mn with role := .staking }]

theorem Roster.ofConfig_dual : Roster.ofConfig .dual = .ok .dual :=
  Roster.ofConfig_ok (by decide +kernel) rfl rfl rfl rfl rfl

/-- A main host, and a host that is a masternode and a staking node. -/
def Fleet.dual : Fleet := ⟨.dual, .dual, false, Roster.ofConfig_dual⟩

namespace Fleet

/-- A node configuration may name the host that it is for as a peer: here a masternode that makes
the key itself is told to connect to itself. -/
theorem promote_lists_itself :
    ¬ ∀ e ∈ (dual.program (.promote none)).log (.replying fun _ => Task.agreed) (),
      ∀ (host : Host) (conf : NodeConfig),
        e.request = .write host dual.daemon.confPath conf.render.toUTF8 →
        conf.base = dual.config.baseLines →
        NodeConfig.peerLine host.address ∉ conf.peers.map NodeConfig.peerLine := by
  intro hspares
  have hwritten : ((dual.program (.promote none)).log (.replying fun _ => Task.agreed) ()).any
      (fun e => decide (e.request.file? = some (dual.roster.stakingHost, dual.daemon.confPath,
        (dual.keyMakerConfig dual.roster.stakingHost).render.toUTF8))) = true := by
    decide +kernel
  obtain ⟨e, he, hfile⟩ := List.any_eq_true.mp hwritten
  have hrequest := Request.file?_eq_some.mp (of_decide_eq_true hfile)
  have hlisted : NodeConfig.peerLine dual.roster.stakingHost.address ∈
      (dual.keyMakerConfig dual.roster.stakingHost).peers.map NodeConfig.peerLine := by
    decide +kernel
  exact hspares e he _ _ hrequest rfl hlisted

end Fleet

end NodeFleet
