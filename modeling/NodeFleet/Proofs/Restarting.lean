import NodeFleet.Proofs.Conducting
import NodeFleet.Proofs.Replying
import NodeFleet.Proofs.Rosters
import NodeFleet.Proofs.Stopping

/-!
# NodeFleet.Proofs.Restarting — a restart starts hosts whatever came of stopping them

A restart of the wallets is two loops over the hosts, one that stops and one that starts, and
nothing of the first reaches the second: a host that could not be stopped is wiped, configured and
started like any other.

* `Request.Touches`: wiping, configuring and starting a host.
* `Fleet.startHost_touches`: when starting a host touches it.
* `Fleet.restartWallets_touches`: when a restart touches a host.
* `Fleet.restartWallets_touches_running`: it wipes a host whose daemon has refused to stop.
-/

namespace NodeFleet

/-- Removing the chain data of a host, writing its configuration, and starting its daemon. -/
def Request.Touches (daemon : Daemon) (host : Host) : Request → Prop
  | .run h command => h = host ∧ (command = ⟨daemon, .wipe⟩ ∨ command = ⟨daemon, .start⟩)
  | .write h path _ => h = host ∧ path = daemon.confPath
  | _ => False

instance (daemon : Daemon) (host : Host) (r : Request) : Decidable (r.Touches daemon host) :=
  match r with
  | .run h command =>
    inferInstanceAs (Decidable (h = host ∧
      (command = ⟨daemon, .wipe⟩ ∨ command = ⟨daemon, .start⟩)))
  | .write h path _ => inferInstanceAs (Decidable (h = host ∧ path = daemon.confPath))
  | .connect _ | .close _ | .cancelled | .sleep _ | .clock | .ping _ | .launch _ _ | .load _ =>
    .isFalse id

/-- What touches a host concerns no other. -/
theorem Request.Touches.concerns {daemon : Daemon} {host other : Host} {r : Request}
    (h : r.Touches daemon host) (hr : r.Concerns other) : other = host := by
  cases r with
  | run _ _ => exact hr.symm.trans h.1
  | write _ _ _ => exact hr.symm.trans h.1
  | _ => exact absurd h id

/-! ## First requests -/

/-- A step makes this request before any other. -/
def AsksFirst {α : Type} (step : Step α) (r : Request) : Prop :=
  ∀ l result, step.run.Yields l result → ∃ answer rest, l = ⟨r, answer⟩ :: rest

section First

variable {α β : Type} {host : Host} {command : Command}

theorem asksFirst_bind {x : Step α} {f : α → Step β} {r : Request} (h : AsksFirst x r) :
    AsksFirst (x >>= f) r := by
  intro l result hl
  rw [ExceptT.run_bind] at hl
  obtain ⟨l₁, l₂, mid, rfl, h₁, -⟩ := Program.yields_bind.mp hl
  obtain ⟨answer, rest, rfl⟩ := h l₁ mid h₁
  exact ⟨answer, rest ++ l₂, rfl⟩

theorem asksFirst_expect {kind : ReplyKind} :
    AsksFirst (expect host command kind) (.run host command) := by
  refine asksFirst_bind fun l result hl => ?_
  obtain ⟨answer, rfl, -⟩ := yields_exchange.mp hl
  exact ⟨answer, [], rfl⟩

end First

namespace Fleet

variable (fleet : Fleet)

/-! ## One host -/

/-- When starting a host touches it: at once where it is wiped, or where it is a masternode, and
else as soon as its directory is made. -/
def Reaches (wiped : Bool) (host : Host) (l : Log) : Prop :=
  wiped = true ∨ host.role = .masternode ∨
    ∃ reply, (⟨.run host (fleet.command .makeConfigDir), .ok reply⟩ : Event) ∈ l

theorem Reaches.mono {fleet : Fleet} {wiped : Bool} {host : Host} {l l' : Log}
    (h : fleet.Reaches wiped host l') (hsub : l' ⊆ l) : fleet.Reaches wiped host l := by
  obtain hwiped | hrole | ⟨reply, hmade⟩ := h
  · exact .inl hwiped
  · exact .inr (.inl hrole)
  · exact .inr (.inr ⟨reply, hsub hmade⟩)

/-- A host that is configured before it is started is touched as soon as its directory is made. -/
theorem configured_touches {host : Host} {rest : Step Unit} {l : Log} {r : Except FleetError Unit}
    (h : (fleet.writeStakingConfig host >>= fun _ => rest).run.Yields l r) :
    (∃ e ∈ l, e.request.Touches fleet.daemon host) ↔
      ∃ reply, (⟨.run host (fleet.command .makeConfigDir), .ok reply⟩ : Event) ∈ l := by
  rw [ExceptT.run_bind] at h
  obtain ⟨l₁, l₂, result, rfl, hwrite, hrest⟩ := Program.yields_bind.mp h
  obtain ⟨cause, rfl, rfl⟩ | ⟨reply, answer, rfl, -⟩ := yields_writeConfigFile.mp hwrite
  · -- neither is the directory made nor anything else asked
    obtain ⟨rfl, -⟩ := Program.yields_pure.mp hrest
    constructor
    · rintro ⟨e, he, htouches⟩
      obtain rfl := List.mem_singleton.mp he
      obtain ⟨-, hcommand | hcommand⟩ := htouches
      all_goals cases hcommand
    · rintro ⟨reply, hmade⟩
      cases List.mem_singleton.mp hmade
  · constructor
    · exact fun _ => ⟨reply, List.mem_append_left l₂ List.mem_cons_self⟩
    · intro _
      have hwritten := List.mem_append_left l₂ (List.mem_cons_of_mem
        (⟨.run host (fleet.command .makeConfigDir), .ok reply⟩ : Event)
        (List.mem_singleton_self (⟨.write host fleet.daemon.confPath
          (fleet.stakingConfig host).render.toUTF8, answer⟩ : Event)))
      exact ⟨_, hwritten, rfl, rfl⟩

theorem startSteps_touches {wiped : Bool} {host : Host} {l : Log} {r : Except FleetError Unit}
    (h : (fleet.startSteps wiped host).run.Yields l r) :
    (∃ e ∈ l, e.request.Touches fleet.daemon host) ↔ fleet.Reaches wiped host l := by
  unfold startSteps at h
  unfold Reaches
  cases wiped with
  | true =>
    obtain ⟨answer, rest, rfl⟩ := asksFirst_bind (asksFirst_bind asksFirst_expect) l r h
    exact ⟨fun _ => .inl rfl, fun _ => ⟨_, List.mem_cons_self, rfl, .inl rfl⟩⟩
  | false =>
    by_cases hrole : host.role = .masternode
    · simp only [hrole, ne_eq, not_true_eq_false, ite_false, Bool.false_eq_true] at h
      obtain ⟨answer, rest, rfl⟩ := asksFirst_bind (asksFirst_bind asksFirst_expect) l r h
      exact ⟨fun _ => .inr (.inl hrole), fun _ => ⟨_, List.mem_cons_self, rfl, .inr rfl⟩⟩
    · simp only [hrole, ne_eq, not_false_eq_true, ite_true, Bool.false_eq_true, ite_false] at h
      rw [fleet.configured_touches h]
      simp only [hrole, Bool.false_eq_true, false_or]

/-- Starting a host touches it when its session is opened and it comes that far. -/
theorem startHost_touches {wiped : Bool} {host : Host} {l : Log} {r : Except FleetError Unit}
    (h : (fleet.startHost wiped host).run.Yields l r) :
    (∃ e ∈ l, e.request.Touches fleet.daemon host) ↔
      (⟨.connect host, .ok ()⟩ : Event) ∈ l ∧ fleet.Reaches wiped host l := by
  obtain ⟨cause, rfl, -⟩ | ⟨inner, rfl, hinner⟩ := inSession_cases h
  · constructor
    · rintro ⟨e, he, htouches⟩
      obtain rfl := List.mem_singleton.mp he
      exact absurd htouches id
    · rintro ⟨hopened, -⟩
      cases List.mem_singleton.mp hopened
  -- the ends of the session make no directory, and touch nothing
  · have hmade {reply : Reply} :
        (⟨.run host (fleet.command .makeConfigDir), .ok reply⟩ : Event) ∈ Log.session host inner ↔
          (⟨.run host (fleet.command .makeConfigDir), .ok reply⟩ : Event) ∈ inner := by
      rw [mem_session]
      constructor
      · rintro (heq | hm | heq)
        · cases heq
        · exact hm
        · cases heq
      · exact fun hm => .inr (.inl hm)
    have hreaches : fleet.Reaches wiped host (Log.session host inner) ↔
        fleet.Reaches wiped host inner :=
      or_congr_right (or_congr_right (exists_congr fun _ => hmade))
    rw [hreaches, ← fleet.startSteps_touches hinner]
    constructor
    · rintro ⟨e, he, htouches⟩
      refine ⟨mem_session.mpr (.inl rfl), e, ?_, htouches⟩
      rcases mem_session.mp he with rfl | he | rfl
      · exact absurd htouches id
      · exact he
      · exact absurd htouches id
    · rintro ⟨-, e, he, htouches⟩
      exact ⟨e, mem_session.mpr (.inr (.inl he)), htouches⟩

/-! ## The two loops -/

/-- A restart visits the hosts to stop them; unless the operator cancelled that, it then visits the
same hosts to start them, whatever came of the stops. -/
theorem restartWallets_visits {wiped : Bool} {l : Log} {report : Report}
    (h : (fleet.restartWallets wiped).Yields l report) :
    ∃ stops starts l₁ l₂, l = l₁ ++ l₂ ∧ Visits fleet.stopHost stops l₁ ∧
      Visits (fleet.startHost wiped) starts l₂ ∧ Covers fleet.roster.all stops ∧
      if ∀ v ∈ stops, wasCancelled v.2 = false then Covers fleet.roster.all starts
      else starts = [] := by
  obtain ⟨r, hr⟩ : ∃ r, (fleet.stopStage fleet.roster.all >>= fun _ =>
      fleet.startStage wiped fleet.roster.all).Ends (.new .restartWallets) l r := by
    obtain ⟨last, hlast, -⟩ | haborted := Conduct.yields_conclude.mp h
    · exact ⟨_, hlast⟩
    · exact ⟨_, haborted⟩
  -- the starts come only after a full round of stops
  obtain ⟨last, -, hcut⟩ | ⟨l₁, l₂, _, mid, rfl, hstop, hstart⟩ := Conduct.ends_bind_cases hr
  · obtain ⟨stops, hv, hcovers, hgo⟩ := Conduct.ends_eachHost hcut
    refine ⟨stops, [], l, [], (List.append_nil l).symm, hv, .nil, hcovers, ?_⟩
    rw [if_neg]
    intro hall
    obtain ⟨_, heq⟩ := hgo.mpr hall
    cases heq
  · obtain ⟨stops, hv, hcovers, hgo⟩ := Conduct.ends_eachHost hstop
    obtain ⟨starts, hv', hcovers', -⟩ := Conduct.ends_eachHost hstart
    refine ⟨stops, starts, l₁, l₂, rfl, hv, hv', hcovers, ?_⟩
    rw [if_pos (hgo.mp ⟨mid, rfl⟩)]
    exact hcovers'

theorem startHost_concerns {wiped : Bool} {host : Host} {l : Log} {r : Except FleetError Unit}
    (h : (fleet.startHost wiped host).run.Yields l r) {e : Event} (he : e ∈ l) :
    e.request.Concerns host :=
  (inSession_only (fleet.startSteps_only host wiped) l r h e he).concerns

/-- Stopping a host touches none. -/
theorem stops_not_touching {stops : List (Host × Except FleetError Stopped)} {l : Log} {host : Host}
    (h : Visits fleet.stopHost stops l) :
    Only (fun r => ¬ r.Touches fleet.daemon host) l := by
  refine h.only fun v _ => leaves_mono (fun _ hl => hl.mono fun r hr => ?_) fleet.stopHost_only
  obtain rfl | rfl | rfl | rfl | ⟨delay, rfl⟩ := fleet.stop_cases hr
  all_goals simp [Request.Touches, command]

/-- What concerns only one host is asked in a visit to that host. -/
theorem mem_starts {wiped : Bool} {starts : List (Host × Except FleetError Unit)} {l : Log}
    {host : Host} {e : Event} (h : Visits (fleet.startHost wiped) starts l) (he : e ∈ l)
    (hone : ∀ other, e.request.Concerns other → other = host) :
    ∃ result l', (fleet.startHost wiped host).run.Yields l' result ∧ e ∈ l' ∧ l' ⊆ l := by
  obtain ⟨other, result, l', -, hl', hel', hsub⟩ := h.mem_log he
  obtain rfl := hone other (fleet.startHost_concerns hl' hel')
  exact ⟨result, l', hl', hel', hsub⟩

/-- Starting hosts touches one when its session is opened and it comes that far. -/
theorem starts_touching {wiped : Bool} {starts : List (Host × Except FleetError Unit)} {l : Log}
    {host : Host} (h : Visits (fleet.startHost wiped) starts l) :
    (∃ e ∈ l, e.request.Touches fleet.daemon host) ↔
      (⟨.connect host, .ok ()⟩ : Event) ∈ l ∧ fleet.Reaches wiped host l := by
  constructor
  · rintro ⟨e, he, htouches⟩
    obtain ⟨result, l', hl', hel', hsub⟩ := fleet.mem_starts h he fun _ => htouches.concerns
    obtain ⟨hopened, hreaches⟩ := (fleet.startHost_touches hl').mp ⟨e, hel', htouches⟩
    exact ⟨hsub hopened, hreaches.mono hsub⟩
  · rintro ⟨hopened, hreaches⟩
    obtain ⟨result, l', hl', hopened', hsub, hreaches'⟩ : ∃ result l',
        (fleet.startHost wiped host).run.Yields l' result ∧
          (⟨.connect host, .ok ()⟩ : Event) ∈ l' ∧ l' ⊆ l ∧ fleet.Reaches wiped host l' := by
      obtain hwiped | hrole | ⟨reply, hmade⟩ := hreaches
      · obtain ⟨result, l', hl', hel', hsub⟩ := fleet.mem_starts h hopened fun _ => Eq.symm
        exact ⟨result, l', hl', hel', hsub, .inl hwiped⟩
      · obtain ⟨result, l', hl', hel', hsub⟩ := fleet.mem_starts h hopened fun _ => Eq.symm
        exact ⟨result, l', hl', hel', hsub, .inr (.inl hrole)⟩
      · -- the visit in which the directory was made is one whose session was opened
        obtain ⟨result, l', hl', hel', hsub⟩ := fleet.mem_starts h hmade fun _ => Eq.symm
        obtain ⟨cause, rfl, -⟩ | ⟨inner, rfl, -⟩ := inSession_cases hl'
        · cases List.mem_singleton.mp hel'
        · exact ⟨result, _, hl', mem_session.mpr (.inl rfl), hsub, .inr (.inr ⟨reply, hel'⟩)⟩
    obtain ⟨e, he, htouches⟩ := (fleet.startHost_touches hl').mpr ⟨hopened', hreaches'⟩
    exact ⟨e, hsub he, htouches⟩

/-- A restart stops the hosts and then starts them all, unless the operator cancels.  It removes the
chain data of a host, writes its configuration or starts its daemon exactly when its second session
is opened and it comes that far; whether its daemon could be stopped in the first does not
matter. -/
theorem restartWallets_touches {σ : Type} (wiped : Bool) (world : World σ) (s : σ) :
    ∃ stops starts l₁ l₂,
      (fleet.restartWallets wiped).log world s = l₁ ++ l₂ ∧
      Visits fleet.stopHost stops l₁ ∧ Visits (fleet.startHost wiped) starts l₂ ∧
      Covers fleet.roster.all stops ∧
      (if ∀ v ∈ stops, wasCancelled v.2 = false then Covers fleet.roster.all starts
        else starts = []) ∧
      ∀ host, (∃ e ∈ (fleet.restartWallets wiped).log world s,
          e.request.Touches fleet.daemon host) ↔
        (⟨.connect host, .ok ()⟩ : Event) ∈ l₂ ∧ fleet.Reaches wiped host l₂ := by
  obtain ⟨stops, starts, l₁, l₂, hl, hv, hv', hcovers, hstarts⟩ :=
    fleet.restartWallets_visits (Program.yields_log world (fleet.restartWallets wiped) s)
  refine ⟨stops, starts, l₁, l₂, hl, hv, hv', hcovers, hstarts, fun host => ?_⟩
  rw [hl, ← fleet.starts_touching hv']
  constructor
  · rintro ⟨e, he, htouches⟩
    rcases List.mem_append.mp he with he | he
    · exact absurd htouches (fleet.stops_not_touching hv e he)
    · exact ⟨e, he, htouches⟩
  · rintro ⟨e, he, htouches⟩
    exact ⟨e, List.mem_append_right _ he, htouches⟩

/-- A world in which the main host's daemon does not stop, and all else goes well. -/
def busyMain : World Unit :=
  .replying fun host task =>
    if host = pair.roster.main ∧ task = .stop then "error: wallet is busy" else task.agreed

/-- A restart does not spare the hosts whose daemons were not shown as stopped: here it removes the
chain data of one whose daemon has refused to stop. -/
theorem restartWallets_touches_running :
    ¬ ∀ host ∈ pair.roster.all,
      (∀ e ∈ (pair.restartWallets true).log busyMain (), ¬ pair.ShowsStopped host e) →
        ∀ e ∈ (pair.restartWallets true).log busyMain (),
          ¬ e.request.Touches pair.daemon host := by
  intro hspares
  have hlisted : pair.roster.main ∈ pair.roster.all := by decide +kernel
  have hrunning : ∀ e ∈ (pair.restartWallets true).log busyMain (),
      ¬ pair.ShowsStopped pair.roster.main e := by decide +kernel
  have htouched : ∃ e ∈ (pair.restartWallets true).log busyMain (),
      e.request.Touches pair.daemon pair.roster.main := by decide +kernel
  obtain ⟨e, he, htouches⟩ := htouched
  exact hspares _ hlisted hrunning e he htouches

end Fleet

end NodeFleet
