import NodeFleet.Proofs.Cancelling
import NodeFleet.Proofs.Uncancelled

/-!
# NodeFleet.Proofs.Promoting — one key, and then each masternode on its own

A promotion first has one host make a key.  Whatever goes wrong until then ends it, and no other
host has been asked anything; a daemon that refuses to start is the one exception.  With the key
each masternode is configured and restarted, in the order of the roster, and a failure on one is of
no concern to the others.

* `Fleet.KeyFails`, `Fleet.MakesKey`: the logs of the session in which the key is made.
* `Fleet.Installs`: what can be said of the log and the result of each masternode.
* `Turns`: one log after the other, a log for each host.
* `Fleet.Promotes`: every way in which a promotion can go.
* `Fleet.KeyFirst`: nothing is asked of another host before the key has been made.
* `Fleet.promotion_outcomes`: every promotion goes in one of those ways, the key first.
-/

namespace NodeFleet

/-! ## Steps that go well exactly when every event does -/

namespace Fleet

variable (fleet : Fleet)

/-- The event is no failure: the host is reached and answers, the file arrives, and a start is
accepted; any other answer will do. -/
def GoesWell : Event → Prop
  | ⟨.connect _, .error _⟩ | ⟨.run _ _, .error _⟩ | ⟨.write _ _ _, .error _⟩ => False
  | ⟨.run _ command, .ok reply⟩ =>
    command = fleet.command .start → (ReplyKind.start.read reply).refusal? = none
  | _ => True

/-- Without a cancellation, the step goes well exactly when every event does. -/
def Decides {α : Type} (x : Step α) : Prop :=
  ∀ l r, x.run.Yields l r → Calm l → ((∃ a, r = .ok a) ↔ ∀ e ∈ l, fleet.GoesWell e)

section Rules

variable {fleet} {α β : Type} {host : Host}

theorem not_ok_error {ε : Type} {e : ε} : ¬ ∃ a, (.error e : Except ε α) = .ok a := by
  rintro ⟨_, heq⟩
  cases heq

theorem decides_pure (a : α) : fleet.Decides (pure a : Step α) := by
  rintro l r ⟨rfl, rfl⟩ -
  exact ⟨fun _ _ he => absurd he List.not_mem_nil, fun _ => ⟨a, rfl⟩⟩

theorem decides_bind {x : Step α} {f : α → Step β} (hx : fleet.Decides x)
    (hf : ∀ a, fleet.Decides (f a)) : fleet.Decides (x >>= f) := by
  intro l r h hcalm
  rw [ExceptT.run_bind] at h
  obtain ⟨l₁, l₂, first, rfl, hfirst, hrest⟩ := Program.yields_bind.mp h
  obtain ⟨hcalm₁, hcalm₂⟩ := calm_append.mp hcalm
  rw [List.forall_mem_append, ← hx l₁ first hfirst hcalm₁]
  cases first with
  | ok a =>
    rw [← hf a l₂ r hrest hcalm₂]
    exact ⟨fun hok => ⟨⟨a, rfl⟩, hok⟩, And.right⟩
  | error e =>
    obtain ⟨-, rfl⟩ := Program.yields_pure.mp hrest
    exact iff_of_false not_ok_error fun hall => not_ok_error hall.1

theorem decides_exchange {command : Command} (hc : command ≠ fleet.command .start) :
    fleet.Decides (exchange host command) := by
  intro l r h _
  obtain ⟨answer, rfl, rfl⟩ := yields_exchange.mp h
  rw [List.forall_mem_singleton]
  cases answer with
  | ok reply => exact ⟨fun _ heq => absurd heq hc, fun _ => ⟨reply, rfl⟩⟩
  | error cause => exact iff_of_false not_ok_error id

theorem decides_writeConfigFile {path contents : String} :
    fleet.Decides (writeConfigFile host fleet.daemon path contents) := by
  refine decides_bind (decides_exchange fun heq => ?_) fun _ => ?_
  · cases heq
  · intro l r h _
    obtain ⟨answer, rfl, rfl⟩ := yields_writeFile.mp h
    rw [List.forall_mem_singleton]
    cases answer with
    | ok _ => exact ⟨fun _ => trivial, fun _ => ⟨_, rfl⟩⟩
    | error cause => exact iff_of_false not_ok_error id

theorem decides_settle (delay : Duration) : fleet.Decides (settle delay) := by
  intro l r h hcalm
  obtain rfl := settle_calm hcalm h
  refine ⟨fun _ e he => ?_, fun _ => ⟨(), rfl⟩⟩
  have honly : Leaves (Only fun r => ¬ r.IsPrompt) (settle delay) := settle_only id id
  have hwait := honly l _ h e he
  obtain ⟨r, answer⟩ := e
  cases r with
  | cancelled => trivial
  | sleep _ => trivial
  | _ => exact absurd trivial hwait

theorem decides_inSession {x : Step α} (hx : fleet.Decides x) :
    fleet.Decides (inSession host x) := by
  intro l r h hcalm
  obtain ⟨cause, rfl, rfl⟩ | ⟨inner, rfl, hinner⟩ := inSession_cases h
  · exact iff_of_false not_ok_error fun hall => hall _ (List.mem_singleton_self _)
  · rw [hx inner r hinner (calm_session.mp hcalm)]
    constructor
    · intro hall e he
      obtain rfl | he | rfl := mem_session.mp he
      · trivial
      · exact hall e he
      · trivial
    · exact fun hall e he => hall e (mem_session.mpr (.inr (.inl he)))

theorem startDaemon_decides : fleet.Decides (fleet.startDaemon host) := by
  refine decides_bind (fun l r h _ => ?_) fun _ => decides_settle _
  cases r with
  | ok reading =>
    obtain ⟨reply, rfl, rfl, hnone⟩ := yields_expect_ok.mp h
    rw [List.forall_mem_singleton]
    exact ⟨fun _ _ => hnone, fun _ => ⟨_, rfl⟩⟩
  | error e =>
    refine iff_of_false not_ok_error fun hall => ?_
    obtain ⟨cause, rfl, -⟩ | ⟨reply, reason, rfl, hreason, -⟩ := yields_expect_error.mp h
    · exact hall _ (List.mem_singleton_self _)
    · have hnone := hall _ (List.mem_singleton_self _) rfl
      rw [hreason] at hnone
      cases hnone

/-- A stop that is refused is no failure, one without an answer is. -/
theorem stopOrGoOn_decides : fleet.Decides (fleet.stopOrGoOn host) := by
  intro l r h hcalm
  unfold stopOrGoOn at h
  rw [ExceptT.run_bind] at h
  obtain ⟨l₁, l₂, caught, rfl, h₁, h₂⟩ := Program.yields_bind.mp h
  obtain ⟨result, hresult, rfl⟩ := yields_caught.mp h₁
  have hcalm₂ := (calm_append.mp hcalm).2
  rw [List.forall_mem_append]
  have hreply (reply : Reply) :
      fleet.GoesWell ⟨.run host (fleet.command .stop), .ok reply⟩ := fun heq => by cases heq
  cases result with
  | ok reading =>
    obtain ⟨reply, rfl, -⟩ := yields_expect_ok.mp hresult
    rw [decides_settle _ l₂ r h₂ hcalm₂, List.forall_mem_singleton]
    exact ⟨fun hall => ⟨hreply reply, hall⟩, And.right⟩
  | error e =>
    obtain ⟨cause, rfl, rfl⟩ | ⟨reply, reason, rfl, -, rfl⟩ := yields_expect_error.mp hresult
    · obtain ⟨-, rfl⟩ := Program.yields_run_throw.mp h₂
      exact iff_of_false not_ok_error fun hall => hall.1 _ (List.mem_singleton_self _)
    · rw [decides_pure () l₂ r h₂ hcalm₂, List.forall_mem_singleton]
      exact ⟨fun hall => ⟨hreply reply, hall⟩, And.right⟩

theorem installMasternode_decides {staking masternode : Host} {key : String} :
    fleet.Decides (fleet.installMasternode staking key masternode) := by
  refine decides_inSession (decides_bind decides_writeConfigFile fun _ => ?_)
  exact decides_bind stopOrGoOn_decides fun _ => startDaemon_decides

end Rules

/-! ## One masternode -/

/-- The lines of the configuration of a promoted masternode. -/
def promotedLines (staking : Host) (key : String) (masternode : Host) : List String :=
  fleet.config.baseLines ++
    ["addnode=" ++ staking.address, "externalip=" ++ masternode.address,
      "masternodeprivkey=" ++ key, "masternode=1"]

/-- The file of a promoted masternode: its lines, each with a line feed after it. -/
def promotedFile (staking : Host) (key : String) (masternode : Host) : ByteArray :=
  (String.join ((fleet.promotedLines staking key masternode).map (· ++ "\n"))).toUTF8

theorem promotedConfig_file (staking : Host) (key : String) (masternode : Host) :
    (fleet.promotedConfig masternode staking key).render.toUTF8 =
      fleet.promotedFile staking key masternode := by
  unfold promotedFile NodeConfig.render
  congr 3
  simp [promotedConfig, NodeConfig.staking, NodeConfig.withKey, NodeConfig.promoted,
    NodeConfig.fileLines, promotedLines, addNew]

/-- What a promotion with a key does on a masternode, and what comes of it. -/
structure Installs (staking : Host) (key : String) (masternode : Host) (l : Log)
    (r : Except FleetError Unit) : Prop where
  /-- There is one session, if it can be opened, and in it only this host is asked anything. -/
  session : (∃ cause, l = Log.refused masternode cause) ∨
    ∃ inner, l = Log.session masternode inner ∧
      Only (fleet.PromoteAsks masternode staking key) inner
  /-- The only file is the node configuration with the key. -/
  file {host : Host} {path : String} {contents : ByteArray} {answer : Except RemoteError Unit}
    (h : (⟨.write host path contents, answer⟩ : Event) ∈ l) :
    host = masternode ∧ path = fleet.daemon.confPath ∧
      contents = fleet.promotedFile staking key masternode
  /-- The daemon is started once that file has arrived. -/
  start {before after : Log} {answer : Except RemoteError Reply}
    (h : l = before ++ ⟨.run masternode (fleet.command .start), answer⟩ :: after) :
    (⟨.write masternode fleet.daemon.confPath (fleet.promotedFile staking key masternode),
      .ok ()⟩ : Event) ∈ before
  /-- Without a cancellation, the result is good when nothing fails and the daemon is started. -/
  ok_iff (h : Calm l) :
    r = .ok () ↔ (∀ e ∈ l, fleet.GoesWell e) ∧ ∃ e ∈ l, fleet.AcceptsStart masternode e
  cancelled_iff : r = .error .cancelled ↔ ¬ Calm l

variable {fleet} {staking masternode : Host} {key : String} {l : Log} {r : Except FleetError Unit}

theorem startDaemon_accepts {host : Host} (h : (fleet.startDaemon host).run.Yields l (.ok ())) :
    ∃ e ∈ l, fleet.AcceptsStart host e := by
  obtain ⟨l₁, l₂, reading, rfl, hexpect, -⟩ := Program.yields_bind_ok.mp h
  obtain ⟨reply, rfl, rfl, hnone⟩ := yields_expect_ok.mp hexpect
  exact ⟨_, List.mem_append_left _ (List.mem_singleton_self _), rfl, rfl, hnone⟩

/-- In an installation that goes well the daemon is started. -/
theorem installMasternode_accepts
    (h : (fleet.installMasternode staking key masternode).run.Yields l (.ok ())) :
    ∃ e ∈ l, fleet.AcceptsStart masternode e := by
  obtain ⟨inner, rfl, hinner⟩ := yields_inSession_ok.mp h
  obtain ⟨l₁, l₂, _, rfl, -, hrest⟩ := Program.yields_bind_ok.mp hinner
  obtain ⟨l₃, l₄, _, rfl, -, hstart⟩ := Program.yields_bind_ok.mp hrest
  obtain ⟨e, he, haccepts⟩ := startDaemon_accepts hstart
  exact ⟨e, mem_session.mpr (.inr (.inl (by simp [he]))), haccepts⟩

/-- The daemon of a masternode is started once its configuration has arrived. -/
theorem installMasternode_start
    (h : (fleet.installMasternode staking key masternode).run.Yields l r) {before after : Log}
    {answer : Except RemoteError Reply}
    (hl : l = before ++ ⟨.run masternode (fleet.command .start), answer⟩ :: after) :
    (⟨.write masternode fleet.daemon.confPath (fleet.promotedFile staking key masternode),
      .ok ()⟩ : Event) ∈ before := by
  have hmem : (⟨.run masternode (fleet.command .start), answer⟩ : Event) ∈ l := by simp [hl]
  obtain ⟨cause, rfl, -⟩ | ⟨inner, rfl, hinner⟩ := inSession_cases h
  · cases List.mem_singleton.mp hmem
  rw [ExceptT.run_bind] at hinner
  obtain ⟨l₁, l₂, written, rfl, hwrite, hrest⟩ := Program.yields_bind.mp hinner
  -- nothing that is asked until the writing has ended is a start
  have hwrites : Leaves (Only (· ≠ .run masternode (fleet.command .start)))
      (writeNodeConfig masternode fleet.daemon (fleet.promotedConfig masternode staking key)) :=
    writeConfigFile_only (fun heq => by cases heq) Request.noConfusion
  have honly : Only (· ≠ .run masternode (fleet.command .start))
      (⟨.connect masternode, .ok ()⟩ :: l₁) :=
    List.forall_mem_cons.mpr ⟨Request.noConfusion, hwrites l₁ written hwrite⟩
  have hsplit : (⟨.connect masternode, .ok ()⟩ :: l₁) ++ (l₂ ++ [⟨.close masternode, ()⟩]) =
      before ++ ⟨.run masternode (fleet.command .start), answer⟩ :: after := by
    rw [← hl]
    simp [Log.session]
  have hbefore := honly.prefix_before (fun hne => hne rfl) hsplit
  cases written with
  | ok _ =>
    obtain ⟨cause, -, heq⟩ | ⟨reply, answer, rfl, heq⟩ := yields_writeConfigFile.mp hwrite
    · cases heq
    · cases answer with
      | ok _ =>
        refine hbefore.subset ?_
        rw [promotedConfig_file]
        simp
      | error _ => cases heq
  | error e =>
    obtain ⟨rfl, -⟩ := Program.yields_pure.mp hrest
    rw [List.append_nil] at hmem
    obtain heq | hm | heq := mem_session.mp hmem
    · cases heq
    · exact absurd rfl (honly _ (List.mem_cons_of_mem _ hm))
    · cases heq

/-- What a promotion does on a masternode. -/
theorem installMasternode_installs
    (h : (fleet.installMasternode staking key masternode).run.Yields l r) :
    fleet.Installs staking key masternode l r where
  session := by
    obtain ⟨cause, rfl, -⟩ | ⟨inner, rfl, hinner⟩ := inSession_cases h
    · exact .inl ⟨cause, rfl⟩
    · exact .inr ⟨inner, rfl, fleet.promoteSteps_only masternode staking key inner r hinner⟩
  file := by
    intro host path contents answer hwrite
    have hasks := inSession_only (fleet.promoteSteps_only masternode staking key) l r h _ hwrite
    -- the only write among its requests is that of the configuration
    obtain heq | heq | ⟨rfl, rfl, rfl⟩ := hasks
    · cases heq
    · cases heq
    · exact ⟨rfl, rfl, fleet.promotedConfig_file staking key _⟩
  start := installMasternode_start h
  ok_iff hcalm := by
    have hiff := installMasternode_decides l r h hcalm
    constructor
    · rintro rfl
      exact ⟨hiff.mp ⟨(), rfl⟩, installMasternode_accepts h⟩
    · rintro ⟨hall, -⟩
      obtain ⟨_, hok⟩ := hiff.mpr hall
      exact hok
  cancelled_iff := by
    constructor
    · rintro rfl hcalm
      exact fleet.installMasternode_uncancelled masternode staking key l hcalm h
    · intro hcut
      obtain hcalm | ⟨_, rfl, rfl, -⟩ := fleet.installMasternode_heeds masternode staking key l r h
      · exact absurd hcalm hcut
      · rfl

/-! ## The key -/

variable (fleet staking)

/-- The host that makes the key has its configuration and has been told to start its daemon; how it
answers to that does not matter. -/
def KeySetup (l : Log) : Prop :=
  ∃ reply answer, l =
    [⟨.run staking (fleet.command .makeConfigDir), .ok reply⟩,
      ⟨.write staking fleet.daemon.confPath (fleet.keyMakerConfig staking).render.toUTF8, .ok ()⟩,
      ⟨.run staking (fleet.command .start), answer⟩]

/-- The stages at which the making of a key fails, with the log and the cause. -/
inductive KeyFails : String → Log → FleetError → Prop
  | directory (cause : RemoteError) :
    KeyFails "staking-config" [⟨.run staking (fleet.command .makeConfigDir), .error cause⟩]
      (.session staking.name cause)
  | file (reply : Reply) (cause : RemoteError) :
    KeyFails "staking-config"
      [⟨.run staking (fleet.command .makeConfigDir), .ok reply⟩,
        ⟨.write staking fleet.daemon.confPath (fleet.keyMakerConfig staking).render.toUTF8,
          .error cause⟩]
      (writeFailure staking cause)
  | wait {setup wait : Log} (hsetup : fleet.KeySetup staking setup) (hwait : wait.IsWait)
    (hcut : ¬ Calm wait) : KeyFails "start-staking" (setup ++ wait) .cancelled
  | unanswered {setup wait : Log} (hsetup : fleet.KeySetup staking setup) (hwait : wait.IsWait)
    (hcalm : Calm wait) (cause : RemoteError) :
    KeyFails "genkey"
      (setup ++ (wait ++ [⟨.run staking (fleet.command .privateKey), .error cause⟩]))
      (.session staking.name cause)
  | unaccepted {setup wait : Log} (hsetup : fleet.KeySetup staking setup) (hwait : wait.IsWait)
    (hcalm : Calm wait) (reply : Reply) (reason : String) (h : token reply = .error reason) :
    KeyFails "genkey" (setup ++ (wait ++ [⟨.run staking (fleet.command .privateKey), .ok reply⟩]))
      (.commandRejected staking.name (fleet.command .privateKey).line reason)

/-- The log of a session in which a key is made: the last answer is the one that has it. -/
inductive MakesKey : Log → String → Prop
  | intro {setup wait : Log} (hsetup : fleet.KeySetup staking setup) (hwait : wait.IsWait)
    (hcalm : Calm wait) {reply : Reply} {key : String} (h : token reply = .ok key) :
    MakesKey (setup ++ (wait ++ [⟨.run staking (fleet.command .privateKey), .ok reply⟩])) key

/-- How the session in which the key is made can end: with the key, or with an abort at a stage at
which the making fails.  No result of a host is entered. -/
def KeyEnds (before : Report) (l : Log) (res : Except Report (String × Report)) : Prop :=
  (∃ stage e last, res = .error last ∧ fleet.KeyFails staking stage l e ∧
    last.outcome = .aborted stage e.kind e.message ∧ last.hosts = before.hosts) ∨
  ∃ key after, res = .ok (key, after) ∧ fleet.MakesKey staking l key ∧
    after.outcome = before.outcome ∧ after.hosts = before.hosts

variable {fleet staking}

/-- The end of that session, once the daemon has been told to start. -/
theorem awaitKey_ends {before : Report} {setup : Log} {res : Except Report (String × Report)}
    (hsetup : fleet.KeySetup staking setup)
    (h : (do
      Conduct.need "start-staking" (settle (.ofSeconds fleet.config.timing.daemonSettle))
      let key ← Conduct.need "genkey" (expectToken staking (fleet.command .privateKey))
      Conduct.passed "genkey" staking none
      pure key : Conduct String).Ends before l res) :
    fleet.KeyEnds staking before (setup ++ l) res := by
  have hwaits {wait : Log} {ended : Except FleetError Unit}
      (hwait : (settle (.ofSeconds fleet.config.timing.daemonSettle)).run.Yields wait ended) :
      wait.IsWait := settle_only id id wait ended hwait
  -- cut short in the wait, or waited out and then asked for the key
  obtain ⟨last, rfl, hfirst⟩ | ⟨wait, l₂, _, mid, rfl, hfirst, hrest⟩ := Conduct.ends_bind_cases h
  · obtain ⟨e, hwait, rfl⟩ := Conduct.ends_need_error.mp hfirst
    obtain hcalm | ⟨_, heq, rfl, -⟩ := heeds_settle _ l _ hwait
    · cases settle_calm hcalm hwait
    · cases heq
      refine .inl ⟨_, _, _, rfl, .wait hsetup (hwaits hwait) fun hcalm => ?_, rfl, rfl⟩
      cases settle_calm hcalm hwait
  obtain ⟨hwait, rfl⟩ := Conduct.ends_need_ok.mp hfirst
  have hcalm : Calm wait := (heeds_settle _).calm_of_ok hwait
  obtain ⟨last, rfl, hsecond⟩ | ⟨l₃, l₄, key, mid', rfl, hsecond, hlast⟩ :=
    Conduct.ends_bind_cases hrest
  · obtain ⟨e, hasked, rfl⟩ := Conduct.ends_need_error.mp hsecond
    refine .inl ⟨_, e, _, rfl, ?_, rfl, rfl⟩
    obtain ⟨cause, rfl, rfl⟩ | ⟨reply, reason, rfl, hreason, rfl⟩ :=
      yields_expectToken_error.mp hasked
    · exact .unanswered hsetup (hwaits hwait) hcalm cause
    · exact .unaccepted hsetup (hwaits hwait) hcalm reply reason hreason
  · obtain ⟨hasked, rfl⟩ := Conduct.ends_need_ok.mp hsecond
    obtain ⟨reply, rfl, hkey⟩ := yields_expectToken_ok.mp hasked
    obtain ⟨rfl, rfl⟩ := hlast
    rw [List.append_nil]
    exact .inr ⟨key, _, rfl, .intro hsetup (hwaits hwait) hcalm hkey, rfl, rfl⟩

theorem makeKey_ends {before : Report} {res : Except Report (String × Report)}
    (h : (fleet.makeKey staking).Ends before l res) : fleet.KeyEnds staking before l res := by
  obtain ⟨last, rfl, hconf⟩ | ⟨l₁, l₂, _, mid, rfl, hconf, hrest⟩ := Conduct.ends_bind_cases h
  · obtain ⟨e, hwrite, rfl⟩ := Conduct.ends_need_error.mp hconf
    refine .inl ⟨_, e, _, rfl, ?_, rfl, rfl⟩
    obtain ⟨cause, rfl, heq⟩ | ⟨reply, answer, rfl, heq⟩ := yields_writeConfigFile.mp hwrite
    · cases heq
      exact .directory cause
    · cases answer with
      | ok _ => cases heq
      | error cause =>
        cases heq
        exact .file reply cause
  obtain ⟨hwrite, rfl⟩ := Conduct.ends_need_ok.mp hconf
  obtain ⟨_, -, hstart⟩ | ⟨l₃, l₄, started, mid', rfl, hstart, hawait⟩ :=
    Conduct.ends_bind_cases (Conduct.ends_enter_bind.mp hrest)
  · exact absurd hstart Conduct.not_ends_attempt_error
  obtain ⟨hsent, rfl⟩ := Conduct.ends_attempt_ok.mp hstart
  have hsetup : fleet.KeySetup staking (l₁ ++ l₃) := by
    obtain ⟨answer, rfl⟩ := expect_sends hsent
    obtain ⟨cause, -, heq⟩ | ⟨reply, written, rfl, heq⟩ := yields_writeConfigFile.mp hwrite
    · cases heq
    · cases written with
      | ok _ => exact ⟨reply, answer, rfl⟩
      | error _ => cases heq
  have hends := awaitKey_ends hsetup (Conduct.ends_enter_bind.mp hawait)
  rw [List.append_assoc] at hends
  -- the entry of the start leaves the outcome and the results as they were
  cases started with
  | ok _ => exact hends
  | error _ => exact hends

/-- The making of a key concerns only the host that makes it. -/
theorem KeySetup.concerns {setup : Log} (h : fleet.KeySetup staking setup) :
    Only (Request.Concerns staking) setup := by
  obtain ⟨reply, answer, rfl⟩ := h
  simp [Only, Request.Concerns]

theorem wait_concerns {wait : Log} (h : wait.IsWait) : Only (Request.Concerns staking) wait := by
  refine h.mono fun r hr => ?_
  cases r with
  | cancelled => trivial
  | sleep _ => trivial
  | _ => exact absurd trivial hr

/-! ## The promotion -/

end Fleet

/-- One log after the other, a log and a result for each host. -/
inductive Turns {α : Type} (part : Host → Log → Except FleetError α → Prop) :
    List (Host × Except FleetError α) → Log → Prop
  | nil : Turns part [] []
  | cons {host : Host} {result : Except FleetError α} {turns : List (Host × Except FleetError α)}
    {l₁ l₂ : Log} (h : part host l₁ result) (rest : Turns part turns l₂) :
    Turns part ((host, result) :: turns) (l₁ ++ l₂)

theorem Visits.turns {α : Type} {step : Host → Step α}
    {part : Host → Log → Except FleetError α → Prop}
    {visits : List (Host × Except FleetError α)} {l : Log} (h : Visits step visits l)
    (hpart : ∀ host l r, (step host).run.Yields l r → part host l r) : Turns part visits l := by
  induction h with
  | nil => exact .nil
  | cons hv _ ih => exact .cons (hpart _ _ _ hv) ih

namespace Fleet

variable (fleet : Fleet) (staking : Host)

/-- How far a promotion with a key gets, and what it reports: every masternode in the order of the
roster, unless the operator cancels at one of them, which is then the last and has no result. -/
inductive PromotionEnds : List (Host × Except FleetError Unit) → Report → Prop
  | completed {turns : List (Host × Except FleetError Unit)} {report : Report}
    (hall : turns.map Prod.fst = fleet.masternodes)
    (hnone : ∀ t ∈ turns, t.2 ≠ .error .cancelled) (houtcome : report.outcome = .completed)
    (hhosts : report.hosts = Conduct.outcomes turns) : PromotionEnds turns report
  | cancelled {turns : List (Host × Except FleetError Unit)} {host : Host} {rest : List Host}
    {report : Report} (hcut : fleet.masternodes = turns.map Prod.fst ++ host :: rest)
    (hnone : ∀ t ∈ turns, t.2 ≠ .error .cancelled)
    (houtcome : report.outcome =
      .aborted "restart-masternode" .cancelled FleetError.cancelled.message)
    (hhosts : report.hosts = Conduct.outcomes turns) :
    PromotionEnds (turns ++ [(host, .error .cancelled)]) report

/-- Every way in which a promotion can go, with its log and its report. -/
inductive Promotes : Log → Report → Prop
  | unselected {report : Report} (hnone : fleet.masternodes = [])
    (houtcome : report.abortedAt? = some ("select", .config)) (hhosts : report.hosts = []) :
    Promotes [] report
  | unreached {report : Report} (cause : RemoteError)
    (houtcome : report.abortedAt? = some ("connect-staking", .connectFailure))
    (hhosts : report.hosts = []) : Promotes (Log.refused staking cause) report
  | keyless {report : Report} {inner : Log} {stage : String} {e : FleetError}
    (hfails : fleet.KeyFails staking stage inner e)
    (houtcome : report.outcome = .aborted stage e.kind e.message) (hhosts : report.hosts = []) :
    Promotes (Log.session staking inner) report
  | keyed {report : Report} {inner rest : Log} {key : String}
    {turns : List (Host × Except FleetError Unit)} (hkey : fleet.MakesKey staking inner key)
    (hturns : Turns (fleet.Installs staking key) turns rest)
    (hends : fleet.PromotionEnds turns report) :
    Promotes (Log.session staking inner ++ rest) report

variable {fleet staking}

theorem wasCancelled_iff {result : Except FleetError Unit} :
    wasCancelled result = true ↔ result = .error .cancelled := by
  match result with
  | .ok _ => simp [wasCancelled]
  | .error e => cases e with
    | cancelled => simp [wasCancelled]
    | _ => simp [wasCancelled]

/-- How the masternodes get their turns, and how that is reported. -/
theorem turns_end {key : String} {last : Report} {l : Log} {res : Except Report (Unit × Report)}
    (hrunning : last.outcome = .running) (hnone : last.hosts = [])
    (h : (Conduct.eachHost "restart-masternode" fleet.masternodes
      (fleet.installMasternode staking key) fun _ => none).Ends last l res) :
    ∃ turns, Turns (fleet.Installs staking key) turns l ∧
      fleet.PromotionEnds turns (Conduct.finalReport res) := by
  have hinstalls (host : Host) (l : Log) (r : Except FleetError Unit)
      (hr : (fleet.installMasternode staking key host).run.Yields l r) :
      fleet.Installs staking key host l r := installMasternode_installs hr
  have hgoes {result : Except FleetError Unit} (hr : wasCancelled result = false) :
      result ≠ .error .cancelled := by
    rintro rfl
    cases hr
  -- the loop comes to its end, or to a cancellation, where the report is aborted
  obtain ⟨turns, after, hv, hall, hcalm, rfl, houtcome, hhosts⟩ |
    ⟨turns, host, result, rest, final, hv, hcut, hcalm, hlast, rfl, houtcome, hhosts⟩ :=
    Conduct.eachHost_outcomes h
  · refine ⟨turns, hv.turns hinstalls, .completed hall (fun t ht => hgoes (hcalm t ht)) ?_ ?_⟩
    · show (if after.outcome = .running then Outcome.completed else after.outcome) = _
      rw [if_pos (houtcome.trans hrunning)]
    · show after.hosts = _
      rw [hhosts, hnone, List.nil_append]
  · obtain rfl := wasCancelled_iff.mp hlast
    refine ⟨_, hv.turns hinstalls, .cancelled hcut (fun t ht => hgoes (hcalm t ht)) houtcome ?_⟩
    show final.hosts = _
    rw [hhosts, hnone, List.nil_append]

/-- A promotion goes in one of these ways. -/
theorem promote_promotes {staking? : Option Host} {l : Log} {report : Report}
    (h : (fleet.promote staking?).Yields l report) :
    fleet.Promotes (staking?.getD fleet.roster.stakingHost) l report := by
  obtain ⟨res, hends, rfl⟩ := Conduct.conclude_ends h
  by_cases hempty : fleet.masternodes.isEmpty = true
  · simp only [hempty, if_true] at hends
    obtain ⟨_, rfl, habort⟩ | ⟨_, _, _, _, -, habort, -⟩ := Conduct.ends_bind_cases hends
    · obtain ⟨rfl, heq⟩ := Conduct.ends_abort.mp habort
      cases heq
      exact .unselected (List.isEmpty_iff.mp hempty) rfl rfl
    · cases (Conduct.ends_abort.mp habort).2
  simp only [hempty, Bool.false_eq_true, if_false] at hends
  -- no masternode is turned to before there is a key
  obtain ⟨last, rfl, hfirst⟩ | ⟨l₁, l₂, key, last, rfl, hfirst, hrest⟩ :=
    Conduct.ends_bind_cases hends
  · obtain ⟨cause, rfl, heq⟩ | ⟨inner, rfl, hinner⟩ := Conduct.inSession_ends hfirst
    · cases heq
      exact .unreached cause rfl rfl
    · obtain ⟨stage, e, _, heq, hfails, houtcome, hhosts⟩ | ⟨_, _, heq, -⟩ := makeKey_ends hinner
      · cases heq
        exact .keyless hfails houtcome hhosts
      · cases heq
  · obtain ⟨cause, -, heq⟩ | ⟨inner, rfl, hinner⟩ := Conduct.inSession_ends hfirst
    · cases heq
    · obtain ⟨_, _, _, heq, -⟩ | ⟨_, _, heq, hkey, houtcome, hhosts⟩ := makeKey_ends hinner
      · cases heq
      · cases heq
        obtain ⟨turns, hturns, hend⟩ := turns_end houtcome hhosts hrest
        exact .keyed hkey hturns hend

/-! ## Nobody else before the key -/

variable (fleet staking) in
/-- Whatever is asked of another host, the host that makes the key has answered with it before. -/
def KeyFirst (l : Log) : Prop :=
  ∀ before e after, l = before ++ e :: after → ¬ e.request.Concerns staking →
    ∃ reply key, (⟨.run staking (fleet.command .privateKey), .ok reply⟩ : Event) ∈ before ∧
      token reply = .ok key

/-- What is asked until the key has been asked for concerns only the host that makes it. -/
theorem asked_concerns {setup wait : Log} {answer : Except RemoteError Reply}
    (hsetup : fleet.KeySetup staking setup) (hwait : wait.IsWait) :
    Only (Request.Concerns staking)
      (setup ++ (wait ++ [⟨.run staking (fleet.command .privateKey), answer⟩])) :=
  Composes.append hsetup.concerns
    (Composes.append (wait_concerns hwait) (only_singleton.mpr rfl))

theorem KeyFails.concerns {stage : String} {e : FleetError} {l : Log}
    (h : fleet.KeyFails staking stage l e) : Only (Request.Concerns staking) l := by
  cases h with
  | directory cause => exact only_singleton.mpr rfl
  | file reply cause => exact List.forall_mem_cons.mpr ⟨rfl, only_singleton.mpr rfl⟩
  | wait hsetup hwait _ => exact Composes.append hsetup.concerns (wait_concerns hwait)
  | unanswered hsetup hwait _ cause => exact asked_concerns hsetup hwait
  | unaccepted hsetup hwait _ reply reason _ => exact asked_concerns hsetup hwait

theorem MakesKey.concerns {key : String} {l : Log} (h : fleet.MakesKey staking l key) :
    Only (Request.Concerns staking) l := by
  obtain ⟨hsetup, hwait, -, -⟩ := h
  exact asked_concerns hsetup hwait

theorem MakesKey.answered {key : String} {l : Log} (h : fleet.MakesKey staking l key) :
    ∃ reply, (⟨.run staking (fleet.command .privateKey), .ok reply⟩ : Event) ∈ l ∧
      token reply = .ok key := by
  obtain ⟨-, -, -, htoken⟩ := h
  exact ⟨_, by simp, htoken⟩

theorem session_concerns {inner : Log} (h : Only (Request.Concerns staking) inner) :
    Only (Request.Concerns staking) (Log.session staking inner) := by
  intro e he
  obtain rfl | he | rfl := mem_session.mp he
  · rfl
  · exact h e he
  · rfl

theorem Promotes.keyFirst {l : Log} {report : Report} (h : fleet.Promotes staking l report) :
    fleet.KeyFirst staking l := by
  intro before e after hsplit hother
  have hmem : e ∈ l := by simp [hsplit]
  cases h with
  | unselected _ _ _ => exact absurd hmem List.not_mem_nil
  | unreached cause _ _ =>
    obtain rfl := List.mem_singleton.mp hmem
    exact absurd rfl hother
  | keyless hfails _ _ => exact absurd (session_concerns hfails.concerns e hmem) hother
  | keyed hkey _ _ =>
    obtain ⟨reply, hanswer, htoken⟩ := hkey.answered
    have hbefore := (session_concerns hkey.concerns).prefix_before hother hsplit
    exact ⟨reply, _, hbefore.subset (mem_session.mpr (.inr (.inl hanswer))), htoken⟩

/-- In any world, a promotion goes in one of the ways that `Promotes` has, and asks nothing of
another host before the key has been made. -/
theorem promotion_outcomes {σ : Type} (fleet : Fleet) (staking? : Option Host) (world : World σ)
    (s : σ) :
    let staking := staking?.getD fleet.roster.stakingHost
    let log := (fleet.promote staking?).log world s
    fleet.Promotes staking log ((fleet.promote staking?).run world s).1 ∧
      fleet.KeyFirst staking log := by
  intro staking log
  have hpromotes := promote_promotes (Program.yields_log world (fleet.promote staking?) s)
  exact ⟨hpromotes, hpromotes.keyFirst⟩

end Fleet

/-- On the pair, the main host makes the key for the one masternode. -/
example :
    ((Fleet.pair.promote none).run (World.replying fun _ => Task.agreed) ()).1.hosts =
      [⟨"mn", "10.0.0.2", true, false, none⟩] := by
  decide +kernel

end NodeFleet
