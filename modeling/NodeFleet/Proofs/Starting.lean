import NodeFleet.Proofs.Phases
import NodeFleet.Proofs.Replying
import NodeFleet.Proofs.Rosters
import NodeFleet.Proofs.Sequences

/-!
# NodeFleet.Proofs.Starting — a host is started step by step

Starting a host is a sequence: its chain data is removed if asked, its configuration is written
unless it is a masternode, its daemon is started, and generation is turned on if it is the main
host.  Each part is begun only once all before it have succeeded, so a host that refuses an early
part is never started.

* `Fleet.startOrder`: the commands and the file, in their order.
* `Fleet.StartedInOrder`: what that says of the log of a host and of its result.
* `Fleet.startHost_inOrder`: whatever a host answers, it is started like that.
* `Fleet.starts_inOrder`: every host that is started, by itself or among others.
-/

namespace NodeFleet

namespace Fleet

variable (fleet : Fleet) (wiped : Bool) (host : Host)

/-! ## The order -/

/-- What is written of the configuration of a host. -/
def configRequests : List Request :=
  [.run host (fleet.command .makeConfigDir),
    .write host fleet.daemon.confPath (fleet.stakingConfig host).render.toUTF8]

/-- What stands before the start of the daemon. -/
def startPreparations : List Request :=
  (if wiped then [.run host (fleet.command .wipe)] else []) ++
    if host.role ≠ .masternode then fleet.configRequests host else []

/-- What starting a host asks, with the requests of the wait for the daemon. -/
def startRequests (waits : List Request) : List Request :=
  fleet.startPreparations wiped host ++ (.run host (fleet.command .start) :: (waits ++
    if host.role = .main then [.run host (fleet.command .enableGeneration)] else []))

/-- The commands and the file of starting a host, in their order. -/
def startOrder : List Request := fleet.startRequests wiped host []

theorem filter_acts_ite {c : Prop} [Decidable c] {requests : List Request}
    (h : requests.filter Request.isAct = requests) :
    (if c then requests else []).filter Request.isAct = if c then requests else [] := by
  split
  · exact h
  · rfl

/-- A wait asks for no command and no file. -/
theorem startRequests_acts (delay : Duration) :
    (fleet.startRequests wiped host (settleRequests delay)).filter Request.isAct =
      fleet.startOrder wiped host := by
  have hwait : (settleRequests delay).filter Request.isAct = [] := by
    unfold settleRequests
    split
    · rfl
    · rfl
  unfold startOrder startRequests startPreparations
  rw [List.filter_append, List.filter_append, filter_acts_ite rfl, filter_acts_ite rfl,
    List.filter_cons_of_pos rfl, List.filter_append, hwait, filter_acts_ite rfl]

/-- Starting a host goes through its requests in their order. -/
theorem startSteps_inOrder :
    InOrder (fleet.startRequests wiped host (settleRequests fleet.startDelay))
      (fleet.startSteps wiped host) := by
  -- each step sends its requests in order, and so does the line of steps
  have hwipe : InOrder [.run host (fleet.command .wipe)] (fleet.wipe host) :=
    inOrder_map (inOrder_expect fun _ => changesFiles_iff)
  have hconfig : InOrder (fleet.configRequests host) (fleet.writeStakingConfig host) :=
    inOrder_writeConfigFile
  have hstart : InOrder ([.run host (fleet.command .start)] ++ settleRequests fleet.startDelay)
      (fleet.startDaemon host) :=
    inOrder_bind (inOrder_expect fun _ => noError_iff) fun _ => inOrder_settle
  have hgenerate : InOrder [.run host (fleet.command .enableGeneration)]
      (fleet.enableGeneration host) :=
    inOrder_map (inOrder_expect fun _ => noError_iff)
  have hsteps := inOrder_guard (c := wiped = true) hwipe
    (inOrder_guard (c := host.role ≠ .masternode) hconfig
      (inOrder_bind hstart fun _ => inOrder_when (c := host.role = .main) hgenerate))
  unfold startRequests startPreparations
  rw [List.append_assoc]
  exact hsteps

/-! ## One host -/

/-- A host is started in the order that starting has.  So no daemon is started unless the chain data
has been removed, where that was asked, and the configuration has been written, where there is one
to be written. -/
structure StartedInOrder (l : Log) (r : Except FleetError Unit) : Prop extends
    Performs host (fleet.startOrder wiped host) l r where
  wiped_first : ∀ before e after, l = before ++ e :: after →
    e.request = .run host (fleet.command .start) → wiped = true →
      ∃ reply, (⟨.run host (fleet.command .wipe), .ok reply⟩ : Event) ∈ before ∧ reply.ChangesFiles
  configured_first : ∀ before e after, l = before ++ e :: after →
    e.request = .run host (fleet.command .start) → host.role ≠ .masternode →
      ⟨.write host fleet.daemon.confPath (fleet.stakingConfig host).render.toUTF8, .ok ()⟩ ∈ before

variable {fleet wiped host} {l : Log} {r : Except FleetError Unit}

/-- The preparations are made, and have succeeded, before the daemon is started. -/
theorem startHost_prepares (h : (fleet.startHost wiped host).run.Yields l r) {before after : Log}
    {e : Event} (hl : l = before ++ e :: after)
    (hstart : e.request = .run host (fleet.command .start)) :
    ∀ request ∈ fleet.startPreparations wiped host,
      ∃ e' ∈ before, e'.request = request ∧ e'.Succeeds := by
  obtain ⟨cause, rfl, -⟩ | ⟨inner, rfl, hinner⟩ := inSession_cases h
  · have hmem : e ∈ Log.refused host cause := by simp [hl]
    cases List.mem_singleton.mp hmem
    cases hstart
  · obtain ⟨early, late, rfl, rfl⟩ := session_split hl (by rw [hstart]; rfl)
    have hlate : e.request ∉ fleet.startPreparations wiped host := by
      rw [hstart]
      unfold startPreparations configRequests
      split <;> split <;> simp [command]
    intro request hrequest
    obtain ⟨e', he', hsame⟩ :=
      ((fleet.startSteps_inOrder wiped host) _ r hinner).after rfl hlate request hrequest
    exact ⟨e', List.mem_cons_of_mem _ he', hsame⟩

/-- Whatever a host answers, it is started in the order that starting has. -/
theorem startHost_inOrder (h : (fleet.startHost wiped host).run.Yields l r) :
    fleet.StartedInOrder wiped host l r := by
  have hacts := fleet.startRequests_acts wiped host fleet.startDelay
  have hperforms := performs_inSession (fleet.startSteps_inOrder wiped host) h
  rw [hacts] at hperforms
  refine ⟨hperforms, fun before e after hl hstart hwiped => ?_,
    fun before e after hl hstart hrole => ?_⟩
  · obtain ⟨⟨_, answer⟩, he, rfl, hsucceeds⟩ := startHost_prepares h hl hstart
      (.run host (fleet.command .wipe)) (by simp [startPreparations, hwiped])
    cases answer with
    | error _ => exact absurd hsucceeds id
    | ok reply => exact ⟨reply, he, hsucceeds⟩
  · obtain ⟨⟨_, answer⟩, he, rfl, hsucceeds⟩ := startHost_prepares h hl hstart
      (.write host fleet.daemon.confPath (fleet.stakingConfig host).render.toUTF8)
      (by simp [startPreparations, configRequests, hrole])
    cases answer with
    | error _ => exact absurd hsucceeds id
    | ok _ => exact he

/-! ## Every start -/

/-- Every host that is started, whether by itself or among others, is started in the order that
starting has; and unless the operator cancels, the report has a result for each. -/
theorem starts_inOrder {σ : Type} (fleet : Fleet) (wiped : Bool) (world : World σ) (s : σ) :
    (∀ host, fleet.StartedInOrder wiped host ((fleet.startHost wiped host).run.log world s)
      ((fleet.startHost wiped host).run.run world s).1) ∧
    ∀ hosts, ∃ starts logs,
      (fleet.startWallets wiped hosts).log world s = logs.flatten ∧
      List.Forall₂ (fun start log => fleet.StartedInOrder wiped start.1 log start.2) starts logs ∧
      starts.map Prod.fst <+: hosts ∧
      (Calm logs.flatten → starts.map Prod.fst = hosts ∧
        ((fleet.startWallets wiped hosts).run world s).1.hosts = Conduct.outcomes starts) := by
  refine ⟨fun host => startHost_inOrder (Program.yields_log world _ s), fun hosts => ?_⟩
  obtain ⟨r, hends, hreport⟩ :=
    Conduct.conclude_ends (Program.yields_log world (fleet.startWallets wiped hosts) s)
  obtain ⟨starts, hvisits, horder, hall⟩ :=
    Conduct.eachHost_visits (fun host => fleet.startHost_uncancelled host wiped) hends
  obtain ⟨logs, hlog, hstarts⟩ := hvisits.segments
  refine ⟨starts, logs, hlog, hstarts.imp fun _ _ => startHost_inOrder, horder, fun hcalm => ?_⟩
  obtain ⟨hhosts, hresults⟩ := hall (hlog ▸ hcalm)
  exact ⟨hhosts, (congrArg Report.hosts hreport).trans hresults⟩

end Fleet

/-- On the pair, a host that refuses to be wiped is not started, and the other one is. -/
example :
    ((Fleet.pair.startWallets true Fleet.pair.roster.all).run
      (World.replying fun host task =>
        if host = .mn ∧ task = .wipe then "Permission denied" else task.agreed) ()).1.hosts.map
      (fun outcome => (outcome.host, outcome.ok)) = [("stake", true), ("mn", false)] := by
  decide +kernel

end NodeFleet
