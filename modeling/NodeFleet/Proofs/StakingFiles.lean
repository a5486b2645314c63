import NodeFleet.Proofs.KeptConfigs
import NodeFleet.Proofs.Repetitions
import NodeFleet.Proofs.Starting

/-!
# NodeFleet.Proofs.StakingFiles — what is written to a staking node

The node configuration of a staking node has the base lines of the fleet and then a line for each
address of the description, each once and in its order, but none for the node's own address, under
whatever names and roles other entries have it.

* `Fleet.addresses`, `Roster.peers_eq`: the addresses of a fleet, and those that are peers.
* `Fleet.stakingText`, `Fleet.stakingConfig_render`: the text of the file.
* `NodeConfig.staking_peers`: peers that are listed once stay as they are.
* `Fleet.WritesStakingTexts`: the orders that write such files write nothing else, and write one
  wherever its directory has been made.
* `Fleet.ResultsShowTexts`: a good result of a host stands for a file that was written to it.
* `Fleet.staking_texts_written`: the procedures that write such files.
-/

namespace NodeFleet

/-! ## The peers of a host -/

namespace Roster

variable {r : Roster}

/-- The addresses of a roster are those of the description. -/
theorem ofConfig_addresses {config : Config} (h : ofConfig config = .ok r) :
    r.entries.map Host.address = config.hostEntries.map HostEntry.address := by
  obtain ⟨-, hmain, masternodes, staking, wallets, hothers, hmasternodes, hstaking, hwallets⟩ :=
    ofConfig_groups h
  have hgroup {role : Role} {entries : List HostEntry} {hosts : List Host}
      (hmade : group config role entries = .ok hosts) :
      hosts.map Host.address = entries.map HostEntry.address :=
    group_map (fun hhost => (toHost?_fields hhost).2) hmade
  unfold entries Config.hostEntries
  rw [hothers, List.map_cons, List.map_append, List.map_append, hgroup hmasternodes,
    hgroup hstaking, hgroup hwallets, (toHost?_fields hmain).2, List.map_cons, List.map_append,
    List.map_append]

/-- The peers of a host are the addresses of all entries, each once, without the host's own. -/
theorem peers_eq (host : Host) : r.peers (some host) =
    (r.entries.map Host.address).eraseDups.filter (· != host.address) := by
  have hothers : (r.entries.filter fun h => !(some host).any fun e => e.address == h.address).map
      Host.address = (r.entries.map Host.address).filter (· != host.address) := by
    rw [List.filter_map]
    congr 1
    exact List.filter_congr fun h _ => congrArg not (Bool.beq_comm ..)
  unfold peers
  dsimp only
  rw [hothers, foldl_addNew, eraseDups_filter]

end Roster

/-- Peers that are listed once stay as they are. -/
theorem NodeConfig.staking_peers (base : List String) {peers : List String} (h : peers.Nodup) :
    (staking base peers).peers = peers := by
  show peers.foldl addNew [] = peers
  rw [foldl_addNew, eraseDups_eq_self h]

namespace Fleet

variable (fleet : Fleet)

/-- The addresses of a fleet, each once, in the order of its description. -/
def addresses : List String := (fleet.config.hostEntries.map HostEntry.address).eraseDups

/-- The file of a staking node: the base lines, and a line for each address that is not its own. -/
def stakingText (host : Host) : String :=
  let peers := fleet.addresses.filter (· != host.address)
  String.join ((fleet.config.baseLines ++ peers.map NodeConfig.peerLine).map (· ++ "\n"))

theorem peers_addresses (host : Host) :
    fleet.roster.peers (some host) = fleet.addresses.filter (· != host.address) := by
  rw [Roster.peers_eq, Roster.ofConfig_addresses fleet.ofConfig_config]
  rfl

theorem stakingConfig_peers (host : Host) :
    (fleet.stakingConfig host).peers = fleet.roster.peers (some host) :=
  NodeConfig.staking_peers _ (nodup_foldl_addNew List.nodup_nil)

theorem stakingConfig_render (host : Host) :
    (fleet.stakingConfig host).render = fleet.stakingText host := by
  have hidentity : (fleet.stakingConfig host).identityLines = [] := rfl
  unfold NodeConfig.render stakingText
  rw [NodeConfig.fileLines_eq, hidentity, List.append_nil, stakingConfig_peers, peers_addresses]
  rfl

/-! ## Orders -/

/-- The log writes files of staking nodes only, to each the one that is for it, and writes one
exactly where the directory for it has been made. -/
def WritesStakingTexts (l : Log) : Prop :=
  (∀ host path contents answer, (⟨.write host path contents, answer⟩ : Event) ∈ l →
    path = fleet.daemon.confPath ∧ contents = (fleet.stakingText host).toUTF8) ∧
  ∀ host, (∃ answer,
    (⟨.write host fleet.daemon.confPath (fleet.stakingText host).toUTF8, answer⟩ : Event) ∈ l) ↔
      fleet.MadeConfigDir host l

variable {fleet}

/-- An order that asks for files of staking nodes only writes their texts. -/
theorem writesStakingTexts_of_asks {order : Order} {l : Log} {report : Report}
    (h : (fleet.program order).Yields l report)
    (hwrites : ∀ host, fleet.WritesWhereMade host l)
    (hasks : ∀ {asked host path contents},
      fleet.Asks order asked (.write host path contents) →
      path = fleet.daemon.confPath ∧ contents = (fleet.stakingConfig host).render.toUTF8) :
    fleet.WritesStakingTexts l := by
  have htext : ∀ host path contents answer, (⟨.write host path contents, answer⟩ : Event) ∈ l →
      path = fleet.daemon.confPath ∧ contents = (fleet.stakingText host).toUTF8 := by
    intro host path contents answer he
    obtain ⟨asked, hasked⟩ := fleet.asks_of_write h he
    rw [← stakingConfig_render]
    exact hasks hasked
  refine ⟨htext, fun host => Iff.trans ⟨?_, ?_⟩ (hwrites host)⟩
  · rintro ⟨answer, he⟩
    exact ⟨_, answer, he⟩
  · rintro ⟨contents, answer, he⟩
    obtain ⟨-, rfl⟩ := htext host _ contents answer he
    exact ⟨answer, he⟩

/-! ## Results -/

variable (fleet)

/-- The hosts have results one after the other, as far as the results go, and a good result of a
host that is configured stands for a file that was written to it. -/
def ResultsShowTexts (configured : Host → Prop) (hosts : List Host) (l : Log)
    (results : List HostOutcome) : Prop :=
  results.length ≤ hosts.length ∧
  ∀ p ∈ hosts.zip results, p.2.host = p.1.name ∧ p.2.address = p.1.address ∧
    (p.2.ok = true → configured p.1 →
      ⟨.write p.1 fleet.daemon.confPath (fleet.stakingText p.1).toUTF8, .ok ()⟩ ∈ l)

variable {fleet}

/-- A host that was started has its configuration, unless it is a masternode. -/
theorem startHost_wrote {wiped : Bool} {host : Host} {l : Log}
    (h : (fleet.startHost wiped host).run.Yields l (.ok ())) (hrole : host.role ≠ .masternode) :
    ⟨.write host fleet.daemon.confPath (fleet.stakingText host).toUTF8, .ok ()⟩ ∈ l := by
  obtain ⟨⟨_, answer⟩, he, rfl, hsucceeds⟩ := (fleet.startSteps_inOrder wiped host).all_succeeded h
    (.write host fleet.daemon.confPath (fleet.stakingConfig host).render.toUTF8)
    (by simp [startRequests, startPreparations, configRequests, hrole])
  rw [← stakingConfig_render]
  cases answer with
  | error _ => exact absurd hsucceeds id
  | ok _ => exact he

/-- A host that was configured has its configuration. -/
theorem configureHost_wrote {host : Host} {l : Log} {peers : Nat}
    (h : (fleet.configureHost host).run.Yields l (.ok peers)) :
    ⟨.write host fleet.daemon.confPath (fleet.stakingText host).toUTF8, .ok ()⟩ ∈ l := by
  have horder : InOrder (fleet.configRequests host) (fleet.writeStakingConfig host) :=
    inOrder_writeConfigFile
  obtain ⟨⟨_, answer⟩, he, rfl, hsucceeds⟩ := (inOrder_map horder).all_succeeded h
    (.write host fleet.daemon.confPath (fleet.stakingConfig host).render.toUTF8)
    (by simp [configRequests])
  rw [← stakingConfig_render]
  cases answer with
  | error _ => exact absurd hsucceeds id
  | ok _ => exact he

/-- The results of the first visits show what the visits have written. -/
theorem results_show_of_visits {α : Type} {step : Host → Step α} {configured : Host → Prop}
    {hosts : List Host} {visits entered : List (Host × Except FleetError α)} {l : Log}
    (h : Visits step visits l) (hentered : entered <+: visits)
    (horder : entered.map Prod.fst <+: hosts)
    (hwrote : ∀ host l a, (step host).run.Yields l (.ok a) → configured host →
      ⟨.write host fleet.daemon.confPath (fleet.stakingText host).toUTF8, .ok ()⟩ ∈ l) :
    fleet.ResultsShowTexts configured hosts l (Conduct.outcomes entered) := by
  obtain ⟨rest, rfl⟩ := horder
  have hzip : (entered.map Prod.fst ++ rest).zip (Conduct.outcomes entered) =
      entered.map fun v => (v.1, Report.outcomeOf v.1.name v.1.address v.2) := by
    rw [← List.append_nil (Conduct.outcomes entered), List.zip_append (by simp [Conduct.outcomes]),
      Conduct.outcomes, List.zip_map', List.zip_nil_right, List.append_nil]
  refine ⟨by simp [Conduct.outcomes], fun p hp => ?_⟩
  rw [hzip] at hp
  obtain ⟨⟨host, result⟩, hv, rfl⟩ := List.mem_map.mp hp
  cases result with
  | error e => exact ⟨rfl, rfl, fun hok => absurd hok Bool.false_ne_true⟩
  | ok a =>
    refine ⟨rfl, rfl, fun _ hconfigured => ?_⟩
    obtain ⟨l₁, l₂, l₃, rfl, hvisit⟩ := h.of_mem (hentered.subset hv)
    exact List.mem_append_right _ (List.mem_append_left _ (hwrote host l₂ a hvisit hconfigured))

theorem startWallets_shows {wiped : Bool} {hosts : List Host} {l : Log} {report : Report}
    (h : (fleet.startWallets wiped hosts).Yields l report) :
    fleet.ResultsShowTexts (·.role ≠ .masternode) hosts l report.hosts := by
  obtain ⟨r, hends, rfl⟩ := Conduct.conclude_ends h
  obtain ⟨visits, entered, hvisits, hentered, horder, hhosts⟩ := Conduct.eachHost_entered hends
  rw [hhosts]
  exact results_show_of_visits hvisits hentered horder fun _ _ _ => startHost_wrote

theorem writeStakingConfigs_shows {hosts : List Host} {l : Log} {report : Report}
    (h : (fleet.writeStakingConfigs hosts).Yields l report) :
    fleet.ResultsShowTexts (fun _ => True) hosts l report.hosts := by
  obtain ⟨r, hends, rfl⟩ := Conduct.conclude_ends h
  obtain ⟨visits, entered, hvisits, hentered, horder, hhosts⟩ := Conduct.eachHost_entered hends
  rw [hhosts]
  exact results_show_of_visits hvisits hentered horder fun _ _ _ h _ => configureHost_wrote h

/-- In a restart the results of the starts come after those of all stops. -/
theorem restartWallets_shows {wiped : Bool} {l : Log} {report : Report}
    (h : (fleet.restartWallets wiped).Yields l report) :
    fleet.ResultsShowTexts (·.role ≠ .masternode) fleet.roster.all l
      (report.hosts.drop fleet.roster.all.length) := by
  obtain ⟨r, hends, rfl⟩ := Conduct.conclude_ends h
  obtain ⟨last, rfl, hstop⟩ | ⟨l₁, l₂, _, mid, rfl, hstop, hstart⟩ := Conduct.ends_bind_cases hends
  · -- the first loop was cut short, and no host was started
    obtain ⟨_, entered, -, -, horder, hhosts⟩ := Conduct.eachHost_entered hstop
    have hnone : (Conduct.finalReport (.error last)).hosts.drop fleet.roster.all.length = [] := by
      rw [hhosts]
      refine List.drop_eq_nil_of_le ?_
      simpa [Conduct.outcomes, Report.new] using horder.length_le
    rw [hnone]
    exact ⟨Nat.zero_le _, by simp⟩
  · obtain ⟨stops, _, -, hall, -, heq, -, hstopped⟩ | ⟨_, _, _, _, _, -, -, -, -, heq, -⟩ :=
      Conduct.eachHost_outcomes hstop
    · cases heq
      obtain ⟨visits, entered, hvisits, hentered, horder, hhosts⟩ :=
        Conduct.eachHost_entered hstart
      have hlength : mid.hosts.length = fleet.roster.all.length := by
        rw [hstopped, ← hall]
        simp [Conduct.outcomes, Report.new]
      rw [hhosts, ← hlength, List.drop_left]
      obtain ⟨hle, hshows⟩ := results_show_of_visits hvisits hentered horder fun _ _ _ =>
        startHost_wrote
      refine ⟨hle, fun p hp => ?_⟩
      obtain ⟨hname, haddress, hwritten⟩ := hshows p hp
      exact ⟨hname, haddress, fun hok hrole => List.mem_append_right _ (hwritten hok hrole)⟩
    · cases heq

/-- Starting hosts, a restart, and writing the configurations of staking nodes write to each host,
where its directory has been made, the base lines and one line for each address of the fleet but
its own; and a good result stands for such a file, except that of a masternode that was only
started.  Peers are already listed once when they come to the configuration, and stay as they
are. -/
theorem staking_texts_written {σ : Type} (fleet : Fleet) (world : World σ) (s : σ) :
    (∀ targets wiped,
      fleet.WritesStakingTexts ((fleet.program (.start targets wiped)).log world s)) ∧
    (∀ wiped, fleet.WritesStakingTexts ((fleet.program (.restart wiped)).log world s)) ∧
    (∀ targets,
      fleet.WritesStakingTexts ((fleet.program (.writeStakingConfigs targets)).log world s)) ∧
    (∀ hosts wiped, fleet.ResultsShowTexts (·.role ≠ .masternode) hosts
      ((fleet.startWallets wiped hosts).log world s)
      ((fleet.startWallets wiped hosts).run world s).1.hosts) ∧
    (∀ wiped, fleet.ResultsShowTexts (·.role ≠ .masternode) fleet.roster.all
      ((fleet.restartWallets wiped).log world s)
      (((fleet.restartWallets wiped).run world s).1.hosts.drop fleet.roster.all.length)) ∧
    (∀ hosts, fleet.ResultsShowTexts (fun _ => True) hosts
      ((fleet.writeStakingConfigs hosts).log world s)
      ((fleet.writeStakingConfigs hosts).run world s).1.hosts) ∧
    (∀ host, (fleet.stakingConfig host).peers = fleet.roster.peers (some host)) ∧
    ∀ base peers, NodeConfig.staking base (NodeConfig.staking base peers).peers =
      NodeConfig.staking base peers := by
  refine ⟨fun targets wiped => ?_, fun wiped => ?_, fun targets => ?_,
    fun hosts wiped => startWallets_shows (Program.yields_log world _ s),
    fun wiped => restartWallets_shows (Program.yields_log world _ s),
    fun hosts => writeStakingConfigs_shows (Program.yields_log world _ s),
    fleet.stakingConfig_peers, fun base peers => ?_⟩
  · have hyields := Program.yields_log world (fleet.program (.start targets wiped)) s
    refine writesStakingTexts_of_asks hyields
      (fun host => startWallets_writes targets wiped _ _ hyields) ?_
    rintro asked host path contents ⟨-, rfl, -, rfl, rfl⟩
    exact ⟨rfl, rfl⟩
  · have hyields := Program.yields_log world (fleet.program (.restart wiped)) s
    refine writesStakingTexts_of_asks hyields
      (fun host => restartWallets_writes wiped _ _ hyields) ?_
    rintro asked host path contents ⟨-, ⟨-, hnone⟩ | ⟨rfl, -, rfl, rfl⟩⟩
    · exact absurd hnone id
    · exact ⟨rfl, rfl⟩
  · have hyields := Program.yields_log world (fleet.program (.writeStakingConfigs targets)) s
    refine writesStakingTexts_of_asks hyields
      (fun host => writeStakingConfigs_writes targets _ _ hyields) ?_
    rintro asked host path contents ⟨-, rfl, rfl, rfl⟩
    exact ⟨rfl, rfl⟩
  · have hpeers := NodeConfig.staking_peers base (NodeConfig.staking_peers_nodup base peers)
    exact congrArg (fun listed => { NodeConfig.staking base peers with peers := listed }) hpeers

end Fleet

end NodeFleet
