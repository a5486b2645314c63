import NodeFleet.Proofs.PeerLists

/-!
# NodeFleet.Proofs.KeptConfigs — when the configuration of a masternode is overwritten

The configuration of a masternode carries its key.  Starting hosts leaves it alone, because a host
is started under its first role, and only the main host stands before the masternodes.  Writing the
configurations of all staking nodes does not look at roles: a masternode that is also a staking node
loses its key.

* `Request.Configures`: writing the node configuration of a host, under whatever role.
* `Fleet.WritesWhereMade`: the configuration is written exactly where its directory has been made.
* `Fleet.masternode_overwritten`: when starting, restarting and configuring hosts overwrite the
  configuration of a masternode.
* `Fleet.masternode_overwritten_dual`: a masternode whose configuration is overwritten.
-/

namespace NodeFleet

/-- Writing the node configuration of a host, under whatever role. -/
def Request.Configures (daemon : Daemon) (host : Host) : Request → Prop
  | .write h path _ => h.sameEntry host = true ∧ path = daemon.confPath
  | _ => False

instance (daemon : Daemon) (host : Host) (r : Request) : Decidable (r.Configures daemon host) :=
  match r with
  | .write h path _ =>
    inferInstanceAs (Decidable (h.sameEntry host = true ∧ path = daemon.confPath))
  | .connect _ | .run _ _ | .close _ | .cancelled | .sleep _ | .clock | .ping _ | .launch _ _
  | .load _ => .isFalse id

namespace Fleet

variable (fleet : Fleet) (host : Host)

/-- The log shows that the directory of the node configuration was made on a host. -/
def MadeConfigDir (l : Log) : Prop :=
  ∃ reply, (⟨.run host (fleet.command .makeConfigDir), .ok reply⟩ : Event) ∈ l

/-- The log shows that the node configuration was written to a host. -/
def Written (l : Log) : Prop :=
  ∃ contents answer, (⟨.write host fleet.daemon.confPath contents, answer⟩ : Event) ∈ l

/-- The node configuration of a host is written exactly where its directory has been made. -/
def WritesWhereMade (l : Log) : Prop := fleet.Written host l ↔ fleet.MadeConfigDir host l

/-- The log shows that the node configuration of a host was written, under whatever role. -/
def Overwritten (l : Log) : Prop := ∃ e ∈ l, e.request.Configures fleet.daemon host

/-- A request that neither makes the directory of the node configuration nor writes a file. -/
def SparesConfig : Request → Prop
  | .run _ command => command ≠ fleet.command .makeConfigDir
  | .write _ _ _ => False
  | _ => True

variable {fleet host}

theorem written_append {l₁ l₂ : Log} :
    fleet.Written host (l₁ ++ l₂) ↔ fleet.Written host l₁ ∨ fleet.Written host l₂ := by
  simp only [Written, List.mem_append, exists_or]

theorem madeConfigDir_append {l₁ l₂ : Log} :
    fleet.MadeConfigDir host (l₁ ++ l₂) ↔
      fleet.MadeConfigDir host l₁ ∨ fleet.MadeConfigDir host l₂ := by
  simp only [MadeConfigDir, List.mem_append, exists_or]

instance : Composes (fleet.WritesWhereMade host) where
  nil := by simp [WritesWhereMade, Written, MadeConfigDir]
  append h₁ h₂ := written_append.trans ((or_congr h₁ h₂).trans madeConfigDir_append.symm)

theorem writesWhereMade_of_spares {l : Log} (h : Only fleet.SparesConfig l) :
    fleet.WritesWhereMade host l := by
  constructor
  · rintro ⟨contents, answer, he⟩
    exact absurd (h _ he) id
  · rintro ⟨reply, he⟩
    exact absurd rfl (h _ he)

/-! ## Steps on one host -/

/-- The configuration of a host is written once its directory has been made, and not before. -/
theorem writeStakingConfig_writes (other : Host) :
    Leaves (fleet.WritesWhereMade host) (fleet.writeStakingConfig other) := by
  intro l r h
  -- the directory is refused and nothing is written, or both are there
  obtain ⟨cause, rfl, -⟩ | ⟨reply, answer, rfl, -⟩ := yields_writeConfigFile.mp h
  · constructor
    · rintro ⟨contents, answer, he⟩
      cases List.mem_singleton.mp he
    · rintro ⟨reply, he⟩
      cases List.mem_singleton.mp he
  · constructor
    · rintro ⟨contents, answer', he⟩
      have hhost : host = other := by
        rcases List.mem_cons.mp he with heq | he
        · cases heq
        · cases List.mem_singleton.mp he
          rfl
      rw [hhost]
      exact ⟨reply, List.mem_cons_self⟩
    · rintro ⟨reply', he⟩
      have hhost : host = other := by
        rcases List.mem_cons.mp he with heq | he
        · cases heq
          rfl
        · cases List.mem_singleton.mp he
      rw [hhost]
      exact ⟨_, answer, List.mem_cons_of_mem _ (List.mem_singleton_self _)⟩

/-- What a step asks apart from configuring does not count. -/
theorem spared_writes {α : Type} {step : Step α} (h : Leaves (Only fleet.SparesConfig) step) :
    Leaves (fleet.WritesWhereMade host) step :=
  leaves_mono (fun _ => writesWhereMade_of_spares) h

theorem inSession_writes {α : Type} {other : Host} {step : Step α}
    (h : Leaves (fleet.WritesWhereMade host) step) :
    Leaves (fleet.WritesWhereMade host) (inSession other step) := by
  refine leaves_inSession (fun answer => ?_) h ?_
  · exact writesWhereMade_of_spares (only_singleton.mpr trivial)
  · exact writesWhereMade_of_spares (only_singleton.mpr trivial)

theorem startDaemon_spares (other : Host) :
    Leaves (Only fleet.SparesConfig) (fleet.startDaemon other) := by
  have hstart : fleet.command .start ≠ fleet.command .makeConfigDir := by simp [command]
  exact leaves_bind (expect_only hstart) fun _ => settle_only trivial trivial

theorem startHost_writes (wiped : Bool) (other : Host) :
    Leaves (fleet.WritesWhereMade host) (fleet.startHost wiped other) := by
  -- apart from the configuration nothing here makes the directory or writes the file
  have hwipe : Leaves (Only fleet.SparesConfig) (fleet.wipe other) := by
    have hcommand : fleet.command .wipe ≠ fleet.command .makeConfigDir := by simp [command]
    exact leaves_bind (expect_only hcommand) fun _ => leaves_pure _
  have hgenerate : Leaves (Only fleet.SparesConfig) (fleet.enableGeneration other) := by
    have hcommand : fleet.command .enableGeneration ≠ fleet.command .makeConfigDir := by
      simp [command]
    exact leaves_bind (expect_only hcommand) fun _ => leaves_pure _
  have hstart : Leaves (fleet.WritesWhereMade host) (do
      fleet.startDaemon other
      if other.role = Role.main then fleet.enableGeneration other) := by
    refine leaves_bind (spared_writes (startDaemon_spares other)) fun _ => ?_
    exact leaves_ite (fun _ => spared_writes hgenerate) fun _ => leaves_pure _
  have hconfigured : Leaves (fleet.WritesWhereMade host) (do
      if other.role ≠ Role.masternode then fleet.writeStakingConfig other
      fleet.startDaemon other
      if other.role = Role.main then fleet.enableGeneration other) :=
    leaves_ite (fun _ => leaves_bind (writeStakingConfig_writes other) fun _ => hstart)
      fun _ => hstart
  refine inSession_writes (leaves_ite (fun _ => ?_) fun _ => hconfigured)
  exact leaves_bind (spared_writes hwipe) fun _ => hconfigured

theorem stopHost_writes (other : Host) :
    Leaves (fleet.WritesWhereMade host) (fleet.stopHost other) := by
  refine inSession_writes (spared_writes ?_)
  refine leaves_mono (fun _ hl => hl.mono fun r hr => ?_) (fleet.stopSteps_only other)
  cases r with
  | run _ _ =>
    obtain ⟨-, rfl⟩ := hr
    simp [SparesConfig, command]
  | write _ _ _ => exact hr.2
  | _ => trivial

theorem configureHost_writes (other : Host) :
    Leaves (fleet.WritesWhereMade host) (fleet.configureHost other) :=
  inSession_writes (leaves_bind (writeStakingConfig_writes other) fun _ => leaves_pure _)

/-! ## Orders -/

theorem startWallets_writes (targets : List String) (wiped : Bool) :
    Leaves (fleet.WritesWhereMade host) (fleet.program (.start targets wiped)) :=
  fleet.onTargets_leaves fun _ _ => Conduct.leaves_conclude
    (Conduct.leaves_eachHost fun other _ => startHost_writes wiped other)

theorem restartWallets_writes (wiped : Bool) :
    Leaves (fleet.WritesWhereMade host) (fleet.program (.restart wiped)) := by
  refine Conduct.leaves_conclude (leaves_bind ?_ fun _ => ?_)
  · exact Conduct.leaves_eachHost fun other _ => stopHost_writes other
  · exact Conduct.leaves_eachHost fun other _ => startHost_writes wiped other

theorem writeStakingConfigs_writes (targets : List String) :
    Leaves (fleet.WritesWhereMade host) (fleet.program (.writeStakingConfigs targets)) :=
  fleet.onTargets_leaves fun _ _ => Conduct.leaves_conclude
    (Conduct.leaves_eachHost fun other _ => configureHost_writes other)

/-- The configuration of a host is overwritten under one of the roles under which the order writes
it. -/
theorem configured_iff {masternode : Host} {order : Order} {l : Log} {report : Report}
    {may : Host → Prop} (h : (fleet.program order).Yields l report)
    (hwrites : ∀ host, fleet.WritesWhereMade host l)
    (hmay : ∀ asked host contents,
      fleet.Asks order asked (.write host fleet.daemon.confPath contents) →
      host.sameEntry masternode = true → may host) :
    fleet.Overwritten masternode l ↔
      ∃ host, may host ∧ host.sameEntry masternode = true ∧ fleet.MadeConfigDir host l := by
  constructor
  · rintro ⟨⟨r, answer⟩, he, hconfigures⟩
    cases r with
    | write host path contents =>
      obtain ⟨hsame, rfl⟩ := hconfigures
      obtain ⟨asked, hasks⟩ := fleet.asks_of_write h he
      exact ⟨host, hmay asked host contents hasks hsame, hsame,
        (hwrites host).mp ⟨contents, answer, he⟩⟩
    | _ => exact absurd hconfigures id
  · rintro ⟨host, -, hsame, hmade⟩
    obtain ⟨contents, answer, he⟩ := (hwrites host).mpr hmade
    exact ⟨_, he, hsame, rfl⟩

/-- Starting a host writes the configuration of a masternode only as that of the main host. -/
theorem started_iff {masternode : Host} (hm : masternode ∈ fleet.masternodes) {order : Order}
    {l : Log} {report : Report} (h : (fleet.program order).Yields l report)
    (hwrites : ∀ host, fleet.WritesWhereMade host l)
    (hasks : ∀ asked host contents,
      fleet.Asks order asked (.write host fleet.daemon.confPath contents) →
      host.IsFirstIn fleet.roster.entries ∧ host.role ≠ .masternode) :
    fleet.Overwritten masternode l ↔
      fleet.roster.main.sameEntry masternode = true ∧ fleet.MadeConfigDir fleet.roster.main l := by
  have hmain : ∀ asked host contents,
      fleet.Asks order asked (.write host fleet.daemon.confPath contents) →
      host.sameEntry masternode = true → host = fleet.roster.main := by
    intro asked host contents hasked hsame
    obtain ⟨hfirst, hrole⟩ := hasks asked host contents hasked
    exact fleet.main_of_masternode hm hsame hfirst hrole
  rw [configured_iff h hwrites hmain]
  constructor
  · rintro ⟨host, rfl, hsame, hmade⟩
    exact ⟨hsame, hmade⟩
  · rintro ⟨hsame, hmade⟩
    exact ⟨_, rfl, hsame, hmade⟩

/-- The configuration of a host under the masternode role is overwritten by starting hosts and by a
restart exactly when that host is the main host as well and the directory of its configuration has
been made, and by writing the configurations of all staking nodes exactly when it is the main host
or a staking node as well, and the directory has been made. -/
theorem masternode_overwritten {σ : Type} (fleet : Fleet) {masternode : Host}
    (hm : masternode ∈ fleet.masternodes) (world : World σ) (s : σ) :
    (∀ targets wiped,
      fleet.Overwritten masternode ((fleet.program (.start targets wiped)).log world s) ↔
        fleet.roster.main.sameEntry masternode = true ∧
          fleet.MadeConfigDir fleet.roster.main
            ((fleet.program (.start targets wiped)).log world s)) ∧
    (∀ wiped,
      fleet.Overwritten masternode ((fleet.program (.restart wiped)).log world s) ↔
        fleet.roster.main.sameEntry masternode = true ∧
          fleet.MadeConfigDir fleet.roster.main ((fleet.program (.restart wiped)).log world s)) ∧
    (fleet.Overwritten masternode ((fleet.program (.writeStakingConfigs [])).log world s) ↔
      ∃ host ∈ fleet.roster.stakers, host.sameEntry masternode = true ∧
        fleet.MadeConfigDir host ((fleet.program (.writeStakingConfigs [])).log world s)) := by
  refine ⟨fun targets wiped => ?_, fun wiped => ?_, ?_⟩
  · have hyields := Program.yields_log world (fleet.program (.start targets wiped)) s
    refine started_iff hm hyields (fun host => startWallets_writes targets wiped _ _ hyields) ?_
    rintro asked host contents ⟨⟨hosts, hselect, hin⟩, rfl, hrole, -⟩
    exact ⟨Roster.select_first hselect hin, hrole⟩
  · have hyields := Program.yields_log world (fleet.program (.restart wiped)) s
    refine started_iff hm hyields (fun host => restartWallets_writes wiped _ _ hyields) ?_
    rintro asked host contents ⟨hin, ⟨-, hnone⟩ | ⟨rfl, hrole, -⟩⟩
    · exact absurd hnone id
    · exact ⟨Roster.all_first hin, hrole⟩
  · have hyields := Program.yields_log world (fleet.program (.writeStakingConfigs [])) s
    refine configured_iff hyields (fun host => writeStakingConfigs_writes [] _ _ hyields) ?_
    rintro asked host contents ⟨⟨hosts, hselect, hin⟩, rfl, -⟩ -
    cases hselect
    exact hin

/-- The masternode of the pair is not its main host, and a restart leaves its configuration
alone. -/
theorem masternode_overwritten_pair :
    ∃ masternode ∈ pair.masternodes,
      ¬ pair.Overwritten masternode
        ((pair.program (.restart true)).log (.replying fun _ => Task.agreed) ()) := by
  have hm : Host.mn ∈ pair.masternodes := by decide +kernel
  refine ⟨_, hm, fun hover => ?_⟩
  have hrestart := (masternode_overwritten pair hm (.replying fun _ => Task.agreed) ()).2.1 true
  have hother : ¬ pair.roster.main.sameEntry .mn = true := by decide +kernel
  exact hother (hrestart.mp hover).1

/-- The configuration of a masternode is not always left alone: here it belongs to a staking node as
well, and is written with the others. -/
theorem masternode_overwritten_dual :
    ¬ ∀ masternode ∈ dual.masternodes,
      ∀ e ∈ (dual.program (.writeStakingConfigs [])).log (.replying fun _ => Task.agreed) (),
        ¬ e.request.Configures dual.daemon masternode := by
  intro hkept
  have hm : Host.mn ∈ dual.masternodes := by decide +kernel
  have hwritten : ∃ e ∈ (dual.program (.writeStakingConfigs [])).log
      (.replying fun _ => Task.agreed) (), e.request.Configures dual.daemon .mn := by
    decide +kernel
  obtain ⟨e, he, hconfigures⟩ := hwritten
  exact hkept _ hm e he hconfigures

end Fleet

end NodeFleet
