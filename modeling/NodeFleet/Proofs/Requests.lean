import NodeFleet.Procedure.AwaitBalance
import NodeFleet.Procedure.ColdRestart
import NodeFleet.Procedure.Console
import NodeFleet.Procedure.Promotion
import NodeFleet.Procedure.Reboot
import NodeFleet.Procedure.Rollout
import NodeFleet.Procedure.Sweep
import NodeFleet.Procedure.Transfer
import NodeFleet.Proofs.Attempts
import NodeFleet.Proofs.Leaves

/-!
# NodeFleet.Proofs.Requests — what steps, polls and parts of procedures may ask

Each step that is taken in a session sends certain commands and writes certain files, all of them to
the host of the session, and otherwise only waits.

* `Request.IsOn`: commands and files of certain kinds on one host, and waits.
* `Request.InSession`: the same, with the opening and the closing of the session.
* `leaves_inSession`, `inSession_only`: a step in a session of its own.
* `leaves_poll`: a poll asks its question, and waits in between.
* `Conduct.leaves_need`, `Conduct.leaves_eachHost`, ...: the parts that procedures are made of.
* `stopSteps_only`, `startSteps_only`, ...: the commands and files of each step.
-/

namespace NodeFleet

/-- Commands and files of certain kinds on one host, and waits. -/
def Request.IsOn (host : Host) (runs : Command → Prop) (writes : String → ByteArray → Prop) :
    Request → Prop
  | .run h command => h = host ∧ runs command
  | .write h path contents => h = host ∧ writes path contents
  | .cancelled | .sleep _ => True
  | _ => False

/-- A request that concerns no session. -/
def Request.IsAside : Request → Prop
  | .cancelled | .sleep _ | .clock | .ping _ | .launch _ _ | .load _ => True
  | _ => False

/-- The opening and the closing of a session to a host, and what is asked in it. -/
def Request.InSession (host : Host) (asks : Request → Prop) (r : Request) : Prop :=
  r = .connect host ∨ r = .close host ∨ asks r

/-- A session is opened, or cannot be opened. -/
def Request.Connects (r : Request) : Prop := ∃ host, r = .connect host

/-- The request concerns this host, if it concerns one. -/
def Request.Concerns (host : Host) : Request → Prop
  | .connect h | .run h _ | .write h _ _ | .close h => h = host
  | _ => True

theorem Request.InSession.concerns {host : Host} {runs : Command → Prop}
    {writes : String → ByteArray → Prop} {r : Request}
    (h : r.InSession host (Request.IsOn host runs writes)) : r.Concerns host := by
  rcases h with rfl | rfl | h
  · exact rfl
  · exact rfl
  · cases r with
    | connect _ => exact absurd h id
    | close _ => exact absurd h id
    | run _ _ => exact h.1
    | write _ _ _ => exact h.1
    | _ => trivial

theorem Request.IsAside.not_connects {r : Request} (h : r.IsAside) : ¬ r.Connects := by
  rintro ⟨host, rfl⟩
  exact h

/-- No session is opened in a session. -/
theorem Request.IsOn.not_connects {host : Host} {runs : Command → Prop}
    {writes : String → ByteArray → Prop} {r : Request} (h : r.IsOn host runs writes) :
    ¬ r.Connects := by
  rintro ⟨other, rfl⟩
  exact h

/-- No file. -/
def NoFile : String → ByteArray → Prop := fun _ _ => False

section Steps

variable {ok : Request → Prop} {host : Host} {α : Type}

theorem leaves_ofExcept {P : Log → Prop} [Composes P] (result : Except FleetError α) :
    Leaves P (Step.ofExcept result) := leaves_pure (m := Program) result

theorem leaves_ofRequest {P : Log → Prop} [Composes P] {wrap : RemoteError → FleetError}
    {p : Program (Except RemoteError α)} (hp : Leaves P p) : Leaves P (Step.ofRequest wrap p) :=
  leaves_map (m := Program) _ hp

theorem leaves_caught {P : Log → Prop} [Composes P] {step : Step α} (h : Leaves P step) :
    Leaves P step.caught :=
  leaves_lift_except (leaves_run.mpr h)

theorem exchange_only {command : Command} (h : ok (.run host command)) :
    Leaves (Only ok) (exchange host command) :=
  leaves_ofRequest (leaves_request fun _ => only_singleton.mpr h)

theorem expect_only {command : Command} {kind : ReplyKind} (h : ok (.run host command)) :
    Leaves (Only ok) (expect host command kind) := by
  refine leaves_bind (exchange_only h) fun reply => ?_
  dsimp only
  split
  · exact leaves_throw _
  · exact leaves_pure _

theorem expectToken_only {command : Command} (h : ok (.run host command)) :
    Leaves (Only ok) (expectToken host command) := by
  refine leaves_bind (exchange_only h) fun reply => ?_
  split
  · exact leaves_pure _
  · exact leaves_throw _

theorem writeFile_only {path : String} {contents : ByteArray} (h : ok (.write host path contents)) :
    Leaves (Only ok) (writeFile host path contents) :=
  leaves_ofRequest (leaves_request fun _ => only_singleton.mpr h)

theorem writeConfigFile_only {daemon : Daemon} {path contents : String}
    (hdir : ok (.run host ⟨daemon, .makeConfigDir⟩))
    (hfile : ok (.write host path contents.toUTF8)) :
    Leaves (Only ok) (writeConfigFile host daemon path contents) :=
  leaves_bind (exchange_only hdir) fun _ => writeFile_only hfile

theorem settle_only {delay : Duration} (hc : ok .cancelled) (hs : ok (.sleep delay)) :
    Leaves (Only ok) (settle delay) := by
  refine leaves_bind (leaves_lift_except (leaves_request fun _ => only_singleton.mpr hc)) ?_
  intro cancelled
  dsimp only
  refine leaves_ite (fun _ => leaves_bind (leaves_throw _) fun _ => ?_) fun _ => ?_
  all_goals
    refine leaves_ite (fun _ => ?_) fun _ => leaves_pure _
    refine leaves_bind (leaves_lift_except (leaves_request fun _ => only_singleton.mpr hs)) ?_
    exact fun _ => leaves_ite (fun _ => leaves_pure _) fun _ => leaves_throw _

/-- What runs in a session has a property that it has by itself, if opening and closing the session
have it. -/
theorem leaves_withSession {P : Log → Prop} [Composes P] {body : Program α}
    (hopen : ∀ answer, P [⟨.connect host, answer⟩]) (h : Leaves P body)
    (hclose : P [⟨.close host, ()⟩]) : Leaves P (withSession host body) := by
  refine leaves_bind (leaves_ofRequest (leaves_request hopen)) fun _ => ?_
  refine leaves_bind (leaves_lift_except h) fun result => ?_
  exact leaves_bind (leaves_lift_except (leaves_request fun _ => hclose)) fun _ => leaves_pure _

theorem leaves_inSession {P : Log → Prop} [Composes P] {step : Step α}
    (hopen : ∀ answer, P [⟨.connect host, answer⟩]) (h : Leaves P step)
    (hclose : P [⟨.close host, ()⟩]) : Leaves P (inSession host step) :=
  leaves_bind (leaves_withSession hopen (leaves_run.mpr h) hclose) fun result =>
    leaves_ofExcept result

theorem inSession_only {step : Step α} (h : Leaves (Only ok) step) :
    Leaves (Only (Request.InSession host ok)) (inSession host step) := by
  refine leaves_inSession (fun _ => ?_) ?_ ?_
  · exact only_singleton.mpr (.inl rfl)
  · exact leaves_mono (fun l hl => hl.mono fun r hr => .inr (.inr hr)) h
  · exact only_singleton.mpr (.inr (.inl rfl))

theorem queryToken_only {command : Command} :
    Leaves (Only (Request.InSession host (· = .run host command))) (queryToken host command) :=
  inSession_only (expectToken_only rfl)

end Steps

/-! ## Asking again and again -/

section Polls

variable {P : Log → Prop} [Composes P] {α : Type} {question : Program (Option α)}

/-- A call for an attempt asks the clock, waits, and listens for a cancellation. -/
theorem leaves_next (ha : ∀ r : Request, r.IsAside → ∀ answer, P [⟨r, answer⟩]) (poller : Poller) :
    Leaves P poller.next := by
  intro l r h
  have hlook (answer : Bool) : P [⟨.cancelled, answer⟩] := ha .cancelled trivial answer
  have hwait (ended : Bool) : P [⟨.sleep poller.policy.interval, ended⟩] :=
    ha (.sleep _) trivial ended
  have hpause (now : Duration) :
      P [⟨.cancelled, false⟩, ⟨.sleep poller.policy.interval, true⟩, ⟨.clock, now⟩] :=
    Composes.append (hlook false) (Composes.append (hwait true) (ha .clock trivial now))
  obtain ⟨hattempt, -⟩ := Poller.next_attempt h
  generalize r.map Poller.attempts = result at hattempt
  cases hattempt with
  | cancelled => exact hlook true
  | exhausted | first => exact hlook false
  | cutShort => exact Composes.append (hlook false) (hwait false)
  | late | later => exact hpause _

/-- A poll asks its question and the clock, waits, and listens for a cancellation. -/
theorem leaves_poll (ha : ∀ r : Request, r.IsAside → ∀ answer, P [⟨r, answer⟩])
    (hq : Leaves P question) (settings : PollSettings) (awaited : String) :
    Leaves P (poll settings awaited question) := by
  have hask (fuel : Nat) (poller : Poller) : Leaves P (poller.askUntil question fuel) := by
    induction fuel generalizing poller with
    | zero => exact leaves_throw _
    | succ fuel ih =>
      refine leaves_bind (leaves_next ha poller) fun poller => ?_
      refine leaves_bind (leaves_lift_except hq) fun answer? => ?_
      cases answer? with
      | some answer => exact leaves_pure _
      | none => exact ih poller
  have hstart : Leaves P (Poller.start settings.policy) :=
    leaves_bind (leaves_request (ha .clock trivial)) fun _ => leaves_pure _
  have huntil : Leaves P (pollUntil settings.policy question) :=
    leaves_bind (leaves_lift_except hstart) fun poller => hask _ poller
  exact leaves_bind (m := Program) huntil fun result => leaves_pure _

end Polls

/-! ## The parts of a procedure -/

namespace Conduct

variable {P : Log → Prop} [Composes P] {α : Type}

theorem leaves_enter (change : Report → Report) : Leaves P (enter change) :=
  leaves_modify (m := ExceptT Report Program) change

theorem leaves_abort (stage : String) (e : FleetError) : Leaves P (abort stage e : Conduct α) :=
  leaves_bind leaves_get fun _ => fun _ => leaves_bind (leaves_throw _) fun _ => leaves_pure _

theorem leaves_attempt {step : Step α} (h : Leaves P step) : Leaves P (attempt step) :=
  leaves_lift_state (leaves_lift_except h)

theorem leaves_need {stage : String} {step : Step α} (h : Leaves P step) :
    Leaves P (need stage step) := by
  refine leaves_bind (leaves_attempt h) fun result => ?_
  cases result with
  | ok a => exact leaves_pure a
  | error e => exact leaves_abort stage e

/-- A part in a session that it needs has a property that the session has, whatever the part starts
with. -/
theorem leaves_inSession {stage : String} {host : Host} {body : Conduct α}
    (h : ∀ begun, Leaves P (withSession host (body.run begun).run)) :
    Leaves P (inSession stage host body) := by
  refine leaves_bind leaves_get fun begun => ?_
  refine leaves_bind (leaves_need (h begun)) fun result => ?_
  match result with
  | .ok (a, report) => exact leaves_bind (leaves_set report) fun _ => leaves_pure a
  | .error report => exact fun _ => leaves_bind (leaves_throw report) fun _ => leaves_pure _

theorem leaves_passed (stage : String) (host : Host) (detail? : Option String) :
    Leaves P (passed stage host detail?) := leaves_enter _

theorem leaves_settled (stage : String) (host : Host) (detail : α → Option String)
    (result : Except FleetError α) : Leaves P (settled stage host detail result) := leaves_enter _

theorem leaves_eachHost {stage : String} {hosts : List Host} {step : Host → Step α}
    {detail : α → Option String} (h : ∀ host ∈ hosts, Leaves P (step host)) :
    Leaves P (eachHost stage hosts step detail) := by
  refine leaves_forM fun host hm => leaves_bind (leaves_attempt (h host hm)) fun result => ?_
  refine leaves_ite (fun _ => leaves_bind (leaves_abort _ _) fun _ => ?_) fun _ => ?_
  all_goals exact leaves_settled _ _ _ _

theorem leaves_conclude {procedure : Procedure} {conduct : Conduct Unit} (h : Leaves P conduct) :
    Leaves P (conclude procedure conduct) := by
  refine leaves_bind (h _) fun result => ?_
  cases result with
  | ok end_ => exact leaves_pure _
  | error report => exact leaves_pure _

end Conduct

namespace Fleet

variable (fleet : Fleet) (host : Host)

/-! ## Stopping and starting a daemon -/

/-- What stopping a daemon may ask. -/
def StopAsks : Request → Prop := Request.IsOn host (· = fleet.command .stop) NoFile

/-- What starting a daemon as it is may ask. -/
def AgainAsks : Request → Prop := Request.IsOn host (· = fleet.command .start) NoFile

/-- What starting a host may ask: a wipe only where it is asked for, the node configuration only of
a host that is no masternode, generation only on the main host. -/
def StartAsks (wiped : Bool) : Request → Prop :=
  Request.IsOn host
    (fun command =>
      command = fleet.command .wipe ∧ wiped ∨
      command = fleet.command .makeConfigDir ∧ host.role ≠ .masternode ∨
      command = fleet.command .start ∨
      command = fleet.command .enableGeneration ∧ host.role = .main)
    (fun path contents =>
      host.role ≠ .masternode ∧ path = fleet.daemon.confPath ∧
        contents = (fleet.stakingConfig host).render.toUTF8)

theorem stopDaemon_only : Leaves (Only (fleet.StopAsks host)) (fleet.stopDaemon host) := by
  refine leaves_bind (leaves_caught (expect_only ⟨rfl, rfl⟩)) fun result => ?_
  cases result with
  | ok reading => exact leaves_pure _
  | error e =>
    dsimp only
    split
    · exact leaves_ite (fun _ => leaves_pure _) fun _ => leaves_throw _
    · exact leaves_throw _

theorem stopSteps_only : Leaves (Only (fleet.StopAsks host)) (fleet.stopSteps host) := by
  refine leaves_bind (fleet.stopDaemon_only host) fun stopped => ?_
  dsimp only
  refine leaves_ite (fun _ => ?_) fun _ => leaves_pure _
  exact leaves_bind (settle_only trivial trivial) fun _ => leaves_pure _

theorem startDaemon_only : Leaves (Only (fleet.AgainAsks host)) (fleet.startDaemon host) :=
  leaves_bind (expect_only ⟨rfl, rfl⟩) fun _ => settle_only trivial trivial

theorem startSteps_only (wiped : Bool) :
    Leaves (Only (fleet.StartAsks host wiped)) (fleet.startSteps wiped host) := by
  have hwipe (h : wiped = true) : Leaves (Only (fleet.StartAsks host wiped)) (fleet.wipe host) :=
    leaves_bind (expect_only ⟨rfl, .inl ⟨rfl, h⟩⟩) fun _ => leaves_pure _
  have hconf (h : host.role ≠ .masternode) :
      Leaves (Only (fleet.StartAsks host wiped)) (fleet.writeStakingConfig host) :=
    writeConfigFile_only ⟨rfl, .inr (.inl ⟨rfl, h⟩)⟩ ⟨rfl, h, rfl, rfl⟩
  have hstart : Leaves (Only (fleet.StartAsks host wiped)) (fleet.startDaemon host) :=
    leaves_bind (expect_only ⟨rfl, .inr (.inr (.inl rfl))⟩) fun _ => settle_only trivial trivial
  have hrest : Leaves (Only (fleet.StartAsks host wiped)) (do
      fleet.startDaemon host
      if host.role = Role.main then fleet.enableGeneration host) := by
    refine leaves_bind hstart fun _ => leaves_ite (fun h => ?_) fun _ => leaves_pure _
    exact leaves_bind (expect_only ⟨rfl, .inr (.inr (.inr ⟨rfl, h⟩))⟩) fun _ => leaves_pure _
  have hconfigured : Leaves (Only (fleet.StartAsks host wiped)) (do
      if host.role ≠ Role.masternode then fleet.writeStakingConfig host
      fleet.startDaemon host
      if host.role = Role.main then fleet.enableGeneration host) :=
    leaves_ite (fun h => leaves_bind (hconf h) fun _ => hrest) fun _ => hrest
  exact leaves_ite (fun h => leaves_bind (hwipe h) fun _ => hconfigured) fun _ => hconfigured

/-! ## Steps on the operator's machine -/

section Operator

variable {P : Log → Prop} [Composes P]

theorem launch_leaves {program : String} {arguments : List String}
    (h : ∀ answer, P [⟨.launch program arguments, answer⟩]) :
    Leaves P (launch program arguments) := by
  refine leaves_bind (leaves_lift_except (leaves_request h)) fun launched => ?_
  split
  · exact leaves_pure _
  · exact leaves_throw _

theorem readBinary_leaves {path : String} (h : ∀ answer, P [⟨.load path, answer⟩]) :
    Leaves P (readBinary path) := by
  unfold readBinary
  split
  · exact leaves_throw _
  · refine leaves_bind (leaves_lift_except (leaves_request h)) fun loaded => ?_
    split
    · exact leaves_pure _
    · exact leaves_throw _

theorem pinged_leaves {fleet : Fleet} {host : Host} (s : Snapshot)
    (h : ∀ answer, P [⟨.ping host.address, answer⟩]) : Leaves P (fleet.pinged host s) :=
  leaves_ite (fun _ => leaves_map _ (leaves_request h)) fun _ => leaves_pure _

end Operator

/-! ## The other steps on a host -/

/-- What writing the configuration of a host may ask. -/
def ConfigureAsks : Request → Prop :=
  Request.IsOn host (· = fleet.command .makeConfigDir) fun path contents =>
    path = fleet.daemon.confPath ∧ contents = (fleet.stakingConfig host).render.toUTF8

/-- What telling a host to reboot may ask. -/
def RebootAsks : Request → Prop :=
  Request.IsOn host (· = fleet.command (.reboot fleet.config.rebootCommand)) NoFile

/-- What installing binaries on a host may ask. -/
def InstallAsks (binaries : List Binary) : Request → Prop :=
  Request.IsOn host
    (fun command => ∃ b ∈ binaries, command = fleet.command (.swapIn (fleet.installPath b)))
    (fun path contents =>
      ∃ b ∈ binaries, path = stagedPath (fleet.installPath b) ∧ contents = b.contents)

/-- What looking at a host may ask. -/
def InspectAsks : Request → Prop :=
  Request.IsOn host
    (fun command =>
      command = fleet.command .uptime ∨
      (∃ name ∈ fleet.config.mainServices, command = fleet.command (.findProcess name)) ∨
      command = fleet.command .status ∨
      command = fleet.command .masternodeStatus ∨
      command = fleet.command .balance)
    NoFile

/-- What configuring and starting the host that makes the key may ask. -/
def MakeKeyAsks : Request → Prop :=
  Request.IsOn host
    (fun command =>
      command = fleet.command .makeConfigDir ∨ command = fleet.command .start ∨
        command = fleet.command .privateKey)
    (fun path contents =>
      path = fleet.daemon.confPath ∧ contents = (fleet.keyMakerConfig host).render.toUTF8)

/-- What configuring and restarting a masternode may ask. -/
def PromoteAsks (staking : Host) (key : String) : Request → Prop :=
  Request.IsOn host
    (fun command =>
      command = fleet.command .makeConfigDir ∨ command = fleet.command .stop ∨
        command = fleet.command .start)
    (fun path contents =>
      path = fleet.daemon.confPath ∧
        contents = (fleet.promotedConfig host staking key).render.toUTF8)

/-- What sending a sum to destinations may ask. -/
def SendAsks (amount : Amount) (destinations : List Destination) : Request → Prop :=
  Request.IsOn fleet.roster.main
    (fun command => ∃ d ∈ destinations, command = fleet.command (.pay d.address amount)) NoFile

theorem configureSteps_only :
    Leaves (Only (fleet.ConfigureAsks host)) (fleet.writeStakingConfig host) :=
  writeConfigFile_only ⟨rfl, rfl⟩ ⟨rfl, rfl, rfl⟩

theorem rebootSteps_only :
    Leaves (Only (fleet.RebootAsks host)) (do
      match ← (exchange host (fleet.command (.reboot fleet.config.rebootCommand))).caught with
      | .ok _ | .error (.session _ _) => pure ()
      | .error e => throw e : Step Unit) := by
  refine leaves_bind (leaves_caught (exchange_only ⟨rfl, rfl⟩)) fun result => ?_
  split
  · exact leaves_pure _
  · exact leaves_pure _
  · exact leaves_throw _

theorem installSteps_only (binaries : List Binary) :
    Leaves (Only (fleet.InstallAsks host binaries)) (do
      binaries.forM (fleet.stageBinary host)
      binaries.forM (fleet.swapBinary host)) := by
  refine leaves_bind (leaves_forM fun b hb => ?_) fun _ => leaves_forM fun b hb => ?_
  · exact writeFile_only ⟨rfl, b, hb, rfl, rfl⟩
  · refine leaves_bind (leaves_caught (expect_only ⟨rfl, b, hb, rfl⟩)) fun result => ?_
    cases result with
    | ok _ => exact leaves_pure _
    | error _ => exact leaves_throw _

theorem inspect_only : Leaves (Only (fleet.InspectAsks host)) (fleet.inspect host) := by
  have hask {command : Command} (h : fleet.InspectAsks host (.run host command)) :
      Leaves (Only (fleet.InspectAsks host)) (Inspection.ask host command) :=
    leaves_lift_state (exchange_only h)
  have hnote (change : Snapshot → Snapshot) :
      Leaves (Only (fleet.InspectAsks host)) (Inspection.note change) :=
    leaves_lift_except (leaves_modify (m := Program) change)
  refine leaves_bind (hask ⟨rfl, .inl rfl⟩) fun _ => leaves_bind (hnote _) fun _ => ?_
  refine leaves_ite (fun _ => ?_) fun _ => ?_
  · refine leaves_bind (leaves_forM fun name hm => ?_) fun _ => ?_
    · exact leaves_bind (hask ⟨rfl, .inr (.inl ⟨name, hm, rfl⟩)⟩) fun _ => hnote _
    · exact leaves_bind (hask ⟨rfl, .inr (.inr (.inl rfl))⟩) fun _ => hnote _
  · refine leaves_bind (hask ⟨rfl, .inr (.inr (.inr (.inl rfl)))⟩) fun _ => ?_
    refine leaves_bind (hnote _) fun _ => ?_
    exact leaves_bind (hask ⟨rfl, .inr (.inr (.inr (.inr rfl)))⟩) fun _ => hnote _

theorem makeKey_only : Leaves (Only (fleet.MakeKeyAsks host)) (fleet.makeKey host) := by
  refine leaves_bind (Conduct.leaves_need (writeConfigFile_only ⟨rfl, .inl rfl⟩ ⟨rfl, rfl, rfl⟩)) ?_
  refine fun _ => leaves_bind (Conduct.leaves_passed _ _ _) fun _ => ?_
  refine leaves_bind (Conduct.leaves_attempt (expect_only ⟨rfl, .inr (.inl rfl)⟩)) fun _ => ?_
  refine leaves_bind (Conduct.leaves_enter _) fun _ => ?_
  refine leaves_bind (Conduct.leaves_need (settle_only trivial trivial)) fun _ => ?_
  refine leaves_bind (Conduct.leaves_need (expectToken_only ⟨rfl, .inr (.inr rfl)⟩)) fun _ => ?_
  exact leaves_bind (Conduct.leaves_passed _ _ _) fun _ => leaves_pure _

theorem promoteSteps_only (staking : Host) (key : String) :
    Leaves (Only (fleet.PromoteAsks host staking key)) (do
      writeNodeConfig host fleet.daemon (fleet.promotedConfig host staking key)
      fleet.stopOrGoOn host
      fleet.startDaemon host) := by
  refine leaves_bind (writeConfigFile_only ⟨rfl, .inl rfl⟩ ⟨rfl, rfl, rfl⟩) fun _ => ?_
  refine leaves_bind (leaves_bind (leaves_caught (expect_only ⟨rfl, .inr (.inl rfl)⟩)) ?_) ?_
  · intro result
    split
    · exact settle_only trivial trivial
    · exact leaves_pure _
    · exact leaves_throw _
  · exact fun _ =>
      leaves_bind (expect_only ⟨rfl, .inr (.inr rfl)⟩) fun _ => settle_only trivial trivial

theorem sendAll_only (amount : Amount) (destinations : List Destination) :
    Leaves (Only (fleet.SendAsks amount destinations)) (fleet.sendAll amount destinations) := by
  refine leaves_forM fun d hd => ?_
  refine leaves_bind (Conduct.leaves_attempt (expectToken_only ⟨rfl, d, hd, rfl⟩)) fun _ => ?_
  exact Conduct.leaves_enter _

end Fleet

end NodeFleet
