import NodeFleet.Desk
import NodeFleet.Proofs.ColdLine

/-!
# NodeFleet.Proofs.Orders — what each order may ask of which host

Every procedure opens its sessions through `withSession` and asks in a session only what concerns
its host.  `Fleet.Asks` says for each order what that is: which hosts, which commands, which files.
A law that holds of whole sessions of this kind holds of every log that an order can leave.

* `HoldsOfSessions`: a property of logs that whole sessions have, as long as the hosts are asked
  only certain things; its rules are those by which sessions are opened.
* `Fleet.Asks`, `Fleet.ColdAsks`: what an order may ask of a host in a session.
* `Fleet.program_leaves`: every log of an order has such a property.
* `Fleet.program_asks`: whatever an order asks is aside, or is asked in a session, and allowed
  there.
-/

namespace NodeFleet

/-! ## Logs of whole sessions -/

/-- A property of logs that holds of single requests aside, of connections that failed, and of whole
sessions in which a host is asked only what is allowed. -/
structure HoldsOfSessions (allowed : Host → Request → Prop) (P : Log → Prop) : Prop where
  aside {r : Request} (h : r.IsAside) (answer : r.Answer) : P [⟨r, answer⟩]
  refused (host : Host) (cause : RemoteError) : P (Log.refused host cause)
  session {host : Host} {inner : Log} (h : Only (allowed host) inner) : P (Log.session host inner)

namespace HoldsOfSessions

variable {allowed : Host → Request → Prop} {asks : Request → Prop} {P : Log → Prop}
  (hP : HoldsOfSessions allowed P) {α : Type} {host : Host}
include hP

theorem withSession {body : Program α} (h : Leaves (Only asks) body)
    (hasks : ∀ r, asks r → allowed host r) : Leaves P (withSession host body) := by
  intro l r hl
  obtain ⟨cause, rfl, -⟩ | ⟨inner, a, rfl, hinner, -⟩ := yields_withSession.mp hl
  · exact hP.refused host cause
  · exact hP.session ((h inner a hinner).mono hasks)

variable [Composes P]

theorem inSession {step : Step α} (h : Leaves (Only asks) step)
    (hasks : ∀ r, asks r → allowed host r) : Leaves P (inSession host step) :=
  leaves_bind (hP.withSession h hasks) fun result => leaves_ofExcept result

theorem conductInSession {stage : String} {body : Conduct α} (h : Leaves (Only asks) body)
    (hasks : ∀ r, asks r → allowed host r) : Leaves P (Conduct.inSession stage host body) :=
  Conduct.leaves_inSession fun begun => hP.withSession (h begun) hasks

theorem query {command : Command} {kind : ReplyKind} (h : allowed host (.run host command)) :
    Leaves P (query host command kind) :=
  hP.inSession (expect_only h) fun _ => id

theorem queryToken {command : Command} (h : allowed host (.run host command)) :
    Leaves P (queryToken host command) :=
  hP.inSession (expectToken_only h) fun _ => id

theorem ofAside {l : Log} (h : Only Request.IsAside l) : P l := by
  induction l with
  | nil => exact Composes.nil
  | cons e l ih =>
    have hl : Only Request.IsAside l := fun e' he' => h e' (List.mem_cons_of_mem _ he')
    exact Composes.append (hP.aside (h e List.mem_cons_self) e.answer) (ih hl)

theorem settle (delay : Duration) : Leaves P (settle delay) :=
  leaves_mono (fun _ => hP.ofAside) (settle_only trivial trivial)

end HoldsOfSessions

/-- A kind of requests holds of whole sessions, wherever they are asked, when opening and closing
them and everything aside are of that kind. -/
theorem holdsOfSessions_only {ok : Request → Prop} (haside : ∀ r, Request.IsAside r → ok r)
    (hopen : ∀ host, ok (.connect host)) (hclose : ∀ host, ok (.close host)) :
    HoldsOfSessions (fun _ => ok) (Only ok) where
  aside h _ := only_singleton.mpr (haside _ h)
  refused host _ := only_singleton.mpr (hopen host)
  session {host inner} h := by
    intro e he
    obtain rfl | he | rfl := mem_session.mp he
    · exact hopen host
    · exact h e he
    · exact hclose host

namespace Fleet

variable (fleet : Fleet)

/-! ## What an order may ask of a host -/

/-- The hosts that the tokens of an order select, or the default ones without tokens. -/
def Targets (tokens : List String) (default : List Host) (host : Host) : Prop :=
  ∃ hosts, fleet.roster.select tokens default = .ok hosts ∧ host ∈ hosts

/-- The host that makes the key for a promotion. -/
def promoter : Option String → Host
  | none => fleet.roster.stakingHost
  | some token => (fleet.roster.resolve [token]).hosts.head?.getD fleet.roster.stakingHost

/-- What configuring and starting a listed masternode may ask. -/
def StartMasternodeAsks (masternode : Host) (key : String) : Request → Prop :=
  Request.IsOn masternode
    (fun command => command = fleet.command .makeConfigDir ∨ command = fleet.command .start)
    (fun path contents =>
      path = fleet.daemon.confPath ∧
        contents = (fleet.masternodeConfig masternode key).render.toUTF8)

/-- What a cold restart may ask of a host. -/
inductive ColdAsks (wiped : Bool) : Host → Request → Prop
  | stop {host : Host} {r : Request} (h : fleet.StopAsks host r) : ColdAsks wiped host r
  | wipe (host : Host) (h : wiped = true) : ColdAsks wiped host (.run host (fleet.command .wipe))
  | start {host : Host} {r : Request} (h : fleet.StartAsks host false r) : ColdAsks wiped host r
  | makeKey : ColdAsks wiped fleet.control (.run fleet.control (fleet.command .privateKey))
  | giveAddress : ColdAsks wiped fleet.control
    (.run fleet.control (fleet.command (.accountAddress fleet.config.masternodeAlias)))
  | pay (address : String) (amount : Amount) : ColdAsks wiped fleet.roster.main
    (.run fleet.roster.main (fleet.command (.pay address amount)))
  | listOutputs : ColdAsks wiped fleet.control (.run fleet.control (fleet.command .outputs))
  | makeConfigDir : ColdAsks wiped fleet.control
    (.run fleet.control (fleet.command .makeConfigDir))
  | writeList {masternode : Host} (key hash : String)
    (hfirst : fleet.roster.firstMasternode? = some masternode) : ColdAsks wiped fleet.control
    (.write fleet.control fleet.daemon.masternodeListPath
      (fleet.masternodeLine masternode key hash ++ "\n").toUTF8)
  | startMasternode {masternode : Host} {r : Request} (key : String)
    (hfirst : fleet.roster.firstMasternode? = some masternode)
    (h : fleet.StartMasternodeAsks masternode key r) : ColdAsks wiped masternode r
  | startAlias : ColdAsks wiped fleet.control
    (.run fleet.control (fleet.command (.startAlias fleet.config.masternodeAlias)))
  | startLocal {masternode : Host} (hfirst : fleet.roster.firstMasternode? = some masternode) :
    ColdAsks wiped masternode (.run masternode (fleet.command .startLocal))

/-- What an order may ask of a host in a session. -/
def Asks : Order → Host → Request → Prop
  | .sweep targets, host, r =>
    fleet.Targets targets fleet.roster.all host ∧ fleet.InspectAsks host r
  | .stop targets, host, r =>
    fleet.Targets targets fleet.roster.all host ∧ fleet.StopAsks host r
  | .start targets wiped, host, r =>
    fleet.Targets targets fleet.roster.all host ∧ fleet.StartAsks host wiped r
  | .restart wiped, host, r =>
    host ∈ fleet.roster.all ∧ (fleet.StopAsks host r ∨ fleet.StartAsks host wiped r)
  | .coldRestart wiped _, host, r => fleet.ColdAsks wiped host r
  | .writeStakingConfigs targets, host, r =>
    fleet.Targets targets fleet.roster.stakers host ∧ fleet.ConfigureAsks host r
  | .promote staking?, host, r =>
    host = fleet.promoter staking? ∧ fleet.MakeKeyAsks host r ∨
      host ∈ fleet.masternodes ∧ ∃ key, fleet.PromoteAsks host (fleet.promoter staking?) key r
  | .installBinaries targets, host, r =>
    fleet.Targets targets fleet.roster.all host ∧ ∃ binaries, fleet.InstallAsks host binaries r
  | .transfer tokens _, host, r =>
    host ∈ (fleet.roster.resolve tokens).hosts ∧
        r = .run host (fleet.command (.accountAddress "")) ∨
      host = fleet.roster.main ∧
        ∃ amount destinations, fleet.SendAsks amount destinations r
  | .awaitBalance targets _, host, r =>
    fleet.Targets targets fleet.masternodes host ∧ r = .run host (fleet.command .balance)
  | .reboot targets, host, r =>
    fleet.Targets targets fleet.roster.all host ∧
      (fleet.RebootAsks host r ∨ fleet.AgainAsks host r)
  | .openConsoles _, _, _ => False

/-! ## Steps on one host -/

section Hosts

variable {allowed : Host → Request → Prop} {P : Log → Prop} [Composes P]
  (hP : HoldsOfSessions allowed P) {host : Host}
include hP

theorem stopHost_leaves (h : ∀ r, fleet.StopAsks host r → allowed host r) :
    Leaves P (fleet.stopHost host) :=
  hP.inSession (fleet.stopSteps_only host) h

theorem startHost_leaves {wiped : Bool} (h : ∀ r, fleet.StartAsks host wiped r → allowed host r) :
    Leaves P (fleet.startHost wiped host) :=
  hP.inSession (fleet.startSteps_only host wiped) h

theorem startAgain_leaves (h : ∀ r, fleet.AgainAsks host r → allowed host r) :
    Leaves P (fleet.startAgain host) :=
  hP.inSession (fleet.startDaemon_only host) h

theorem configureHost_leaves (h : ∀ r, fleet.ConfigureAsks host r → allowed host r) :
    Leaves P (fleet.configureHost host) :=
  hP.inSession (leaves_bind (fleet.configureSteps_only host) fun _ => leaves_pure _) h

theorem rebootHost_leaves (h : ∀ r, fleet.RebootAsks host r → allowed host r) :
    Leaves P (fleet.rebootHost host) :=
  hP.inSession (fleet.rebootSteps_only host) h

theorem install_leaves {binaries : List Binary}
    (h : ∀ r, fleet.InstallAsks host binaries r → allowed host r) :
    Leaves P (fleet.install binaries host) :=
  hP.inSession (fleet.installSteps_only host binaries) h

theorem installMasternode_leaves {staking : Host} {key : String}
    (h : ∀ r, fleet.PromoteAsks host staking key r → allowed host r) :
    Leaves P (fleet.installMasternode staking key host) :=
  hP.inSession (fleet.promoteSteps_only host staking key) h

theorem visit_leaves (h : ∀ r, fleet.InspectAsks host r → allowed host r) :
    Leaves P (fleet.visit host) := by
  refine leaves_bind ?_ fun visited => ?_
  · exact hP.withSession (fleet.inspect_only host _) h
  · cases visited with
    | ok _ => exact leaves_pure _
    | error _ => exact leaves_pure _

theorem sweepHost_leaves (h : ∀ r, fleet.InspectAsks host r → allowed host r) :
    Leaves P (fleet.sweepHost host) := by
  refine leaves_bind (leaves_lift_state (leaves_lift_except (fleet.visit_leaves hP h))) ?_
  rintro ⟨result, seen⟩
  have hpinged : Leaves P (fleet.pinged host seen) := pinged_leaves seen (hP.aside trivial)
  refine leaves_bind (leaves_lift_state (leaves_lift_except hpinged)) fun snapshot => ?_
  exact leaves_bind (Conduct.leaves_settled _ _ _ _) fun _ => Conduct.leaves_enter _

theorem lists_leaves {hash : String} (h : allowed host (.run host (fleet.command .outputs))) :
    Leaves P (fleet.lists host hash) := by
  refine leaves_bind (m := Program) (hP.query h) fun result => ?_
  split
  · exact leaves_pure _
  · exact leaves_pure _

theorem awaitConfirmation_leaves (h : allowed host (.run host (fleet.command .outputs)))
    (hash : String) : Leaves P (fleet.awaitConfirmation host hash) :=
  leaves_bind (leaves_poll (fun _ haside => hP.aside haside) (fleet.lists_leaves hP h) _ _)
    fun _ => leaves_pure _

theorem wipe_leaves (h : allowed host (.run host (fleet.command .wipe))) :
    Leaves P (inSession host (fleet.wipe host)) := by
  have hwipe : Leaves (Only (· = .run host (fleet.command .wipe))) (fleet.wipe host) :=
    leaves_bind (expect_only rfl) fun _ => leaves_pure _
  refine hP.inSession hwipe ?_
  rintro r rfl
  exact h

theorem startMasternode_leaves {key : String}
    (h : ∀ r, fleet.StartMasternodeAsks host key r → allowed host r) :
    Leaves P (fleet.startMasternode host key) := by
  have hstart : Leaves (Only (fleet.StartMasternodeAsks host key)) (do
      writeNodeConfig host fleet.daemon (fleet.masternodeConfig host key)
      fleet.startDaemon host) := by
    refine leaves_bind (writeConfigFile_only ⟨rfl, .inl rfl⟩ ⟨rfl, rfl, rfl⟩) fun _ => ?_
    exact leaves_bind (expect_only ⟨rfl, .inr rfl⟩) fun _ => settle_only trivial trivial
  exact hP.inSession hstart h

theorem writeMasternodeList_leaves {line : String}
    (hdir : allowed fleet.control (.run fleet.control (fleet.command .makeConfigDir)))
    (hlist : allowed fleet.control
      (.write fleet.control fleet.daemon.masternodeListPath (line ++ "\n").toUTF8)) :
    Leaves P (fleet.writeMasternodeList line) := by
  have hwrite : Leaves (Only (allowed fleet.control))
      (writeConfigFile fleet.control fleet.daemon fleet.daemon.masternodeListPath
        (line ++ "\n")) := writeConfigFile_only hdir hlist
  exact hP.inSession hwrite fun _ => id

theorem balanceOf_leaves (h : allowed host (.run host (fleet.command .balance))) :
    Leaves P (fleet.balanceOf host) := by
  refine leaves_bind (m := Program) (hP.query h) fun result => ?_
  split
  · exact leaves_pure _
  · exact leaves_pure _

end Hosts

/-! ## Cold restart -/

section Cold

variable {wiped : Bool} {P : Log → Prop} [Composes P]
  (hP : HoldsOfSessions (fleet.ColdAsks wiped) P)
include hP

theorem stopAll_leaves : Leaves P fleet.stopAll := by
  refine leaves_bind (leaves_mapM fun host _ => ?_) fun results => ?_
  · refine leaves_bind (Conduct.leaves_attempt (fleet.stopHost_leaves hP fun _ => .stop)) ?_
    exact fun _ => leaves_bind (Conduct.leaves_enter _) fun _ => leaves_pure _
  · split
    · exact Conduct.leaves_abort _ _
    · exact leaves_pure _

theorem wipeAll_leaves (hw : wiped = true) : Leaves P fleet.wipeAll := by
  refine leaves_forM fun host _ => leaves_bind (Conduct.leaves_need ?_) fun _ => ?_
  · exact fleet.wipe_leaves hP (.wipe host hw)
  · exact Conduct.leaves_passed _ _ _

theorem restartControl_leaves : Leaves P fleet.restartControl := by
  refine leaves_ite (fun _ => ?_) fun _ => leaves_pure _
  refine leaves_bind (Conduct.leaves_need (fleet.stopHost_leaves hP fun _ => .stop)) fun _ => ?_
  refine leaves_bind (Conduct.leaves_need (fleet.startHost_leaves hP fun _ => .start)) fun _ => ?_
  exact Conduct.leaves_passed _ _ _

theorem sendCollateral_leaves (address : String) (amount : Amount) :
    Leaves P (fleet.sendCollateral address amount) := by
  refine leaves_bind (Conduct.leaves_need (hP.queryToken (.pay address amount))) fun hash => ?_
  refine leaves_bind (Conduct.leaves_passed _ _ _) fun _ => ?_
  exact leaves_bind (Conduct.leaves_enter _) fun _ => leaves_pure _

theorem startListed_leaves {masternode : Host}
    (hfirst : fleet.roster.firstMasternode? = some masternode) (provisioning : Provisioning)
    (hname : provisioning.listName = fleet.config.masternodeAlias) :
    Leaves P (fleet.startListed masternode provisioning) := by
  have halias : fleet.ColdAsks wiped fleet.control
      (.run fleet.control (fleet.command (.startAlias provisioning.listName))) :=
    hname ▸ .startAlias
  refine leaves_bind (Conduct.leaves_need (fleet.startMasternode_leaves hP ?_)) fun _ => ?_
  · exact fun _ => .startMasternode _ hfirst
  refine leaves_bind (Conduct.leaves_passed _ _ _) fun _ => ?_
  refine leaves_bind (Conduct.leaves_need (hP.query halias)) fun _ => ?_
  refine leaves_bind (Conduct.leaves_passed _ _ _) fun _ => ?_
  refine leaves_bind (Conduct.leaves_need (hP.query (.startLocal hfirst))) fun _ => ?_
  exact Conduct.leaves_passed _ _ _

/-- From the key on, the masternode is listed and started under the alias of the fleet. -/
theorem listAndStart_leaves {masternode : Host} (amount : Amount)
    (hfirst : fleet.roster.firstMasternode? = some masternode) :
    Leaves P (do
      let provisioning ← fleet.listMasternode masternode amount
      fleet.startListed masternode provisioning) := by
  unfold listMasternode provision
  simp only [bind_assoc, pure_bind]
  refine leaves_bind (Conduct.leaves_need (hP.queryToken .makeKey)) fun key => ?_
  refine leaves_bind (Conduct.leaves_passed _ _ _) fun _ => ?_
  refine leaves_bind (Conduct.leaves_need (hP.queryToken .giveAddress)) fun address => ?_
  refine leaves_bind (Conduct.leaves_passed _ _ _) fun _ => ?_
  refine leaves_bind (fleet.sendCollateral_leaves hP address amount) fun hash => ?_
  have hconfirmed := fleet.awaitConfirmation_leaves hP .listOutputs hash
  refine leaves_bind (Conduct.leaves_need hconfirmed) fun _ => ?_
  refine leaves_bind (Conduct.leaves_passed _ _ _) fun _ => ?_
  have hline : Provisioning.line? { Provisioning.new fleet.config.masternodeAlias key
      fleet.config.network.port with collateral? := some hash, confirmed := true }
      masternode.address = some (fleet.masternodeLine masternode key hash) := rfl
  rw [hline]
  simp only [bind_assoc, pure_bind]
  have hlist := fleet.writeMasternodeList_leaves hP .makeConfigDir (.writeList key hash hfirst)
  refine leaves_bind (Conduct.leaves_need hlist) fun _ => ?_
  refine leaves_bind (Conduct.leaves_passed _ _ _) fun _ => ?_
  exact fleet.startListed_leaves hP hfirst _ rfl

theorem coldStages_leaves {masternode : Host} (amount : Amount)
    (hfirst : fleet.roster.firstMasternode? = some masternode) :
    Leaves P (fleet.coldStages wiped amount masternode) := by
  have hrest : Leaves P (do
      Conduct.need "start-main" (fleet.startHost false fleet.roster.main)
      Conduct.passed "start-main" fleet.roster.main none
      Conduct.need "bootstrap-settle" (settle (.ofSeconds fleet.config.timing.bootstrapSettle))
      fleet.restartControl
      let provisioning ← fleet.listMasternode masternode amount
      fleet.startListed masternode provisioning) := by
    refine leaves_bind (Conduct.leaves_need (fleet.startHost_leaves hP fun _ => .start)) fun _ => ?_
    refine leaves_bind (Conduct.leaves_passed _ _ _) fun _ => ?_
    refine leaves_bind (Conduct.leaves_need (hP.settle _)) fun _ => ?_
    refine leaves_bind (fleet.restartControl_leaves hP) fun _ => ?_
    exact fleet.listAndStart_leaves hP amount hfirst
  refine leaves_bind (fleet.stopAll_leaves hP) fun _ => ?_
  exact leaves_ite (fun hw => leaves_bind (fleet.wipeAll_leaves hP hw) fun _ => hrest)
    fun _ => hrest

theorem coldRestart_leaves (requested? : Option Amount) :
    Leaves P (fleet.coldRestart wiped requested?) := by
  refine Conduct.leaves_conclude ?_
  refine leaves_bind (Conduct.leaves_need (leaves_ofExcept _)) fun amount => ?_
  split
  · exact Conduct.leaves_abort _ _
  · exact fleet.coldStages_leaves hP amount ‹_›

end Cold

/-! ## The other procedures -/

section Procedures

variable {allowed : Host → Request → Prop} {P : Log → Prop} [Composes P]
  (hP : HoldsOfSessions allowed P)
include hP

theorem sweepAll_leaves {hosts : List Host}
    (h : ∀ host ∈ hosts, ∀ r, fleet.InspectAsks host r → allowed host r) :
    Leaves P (fleet.sweepAll hosts) := by
  cases hosts with
  | nil => exact leaves_pure _
  | cons host rest =>
    refine leaves_bind (fleet.sweepHost_leaves hP (h host List.mem_cons_self)) fun _ => ?_
    refine leaves_forM fun next hnext => ?_
    refine leaves_bind (Conduct.leaves_need (hP.settle _)) fun _ => ?_
    exact fleet.sweepHost_leaves hP (h next (List.mem_cons_of_mem _ hnext))

theorem promote_leaves {staking? : Option Host}
    (hkey : ∀ r, fleet.MakeKeyAsks (staking?.getD fleet.roster.stakingHost) r →
      allowed (staking?.getD fleet.roster.stakingHost) r)
    (h : ∀ host ∈ fleet.masternodes, ∀ key r,
      fleet.PromoteAsks host (staking?.getD fleet.roster.stakingHost) key r → allowed host r) :
    Leaves P (fleet.promote staking?) := by
  refine Conduct.leaves_conclude ?_
  have hrest : Leaves P (do
      let key ← Conduct.inSession "connect-staking" (staking?.getD fleet.roster.stakingHost)
        (fleet.makeKey (staking?.getD fleet.roster.stakingHost))
      Conduct.eachHost "restart-masternode" fleet.masternodes
        (fleet.installMasternode (staking?.getD fleet.roster.stakingHost) key) fun _ => none) := by
    refine leaves_bind (hP.conductInSession (fleet.makeKey_only _) hkey) fun key => ?_
    exact Conduct.leaves_eachHost fun host hm =>
      fleet.installMasternode_leaves hP (h host hm key)
  refine leaves_ite (fun _ => leaves_bind (Conduct.leaves_abort _ _) fun _ => ?_) fun _ => ?_
  all_goals exact hrest

/-- The binaries are those of the description, by their names. -/
def Reads (binaries : List Binary) : Prop :=
  ∀ b ∈ binaries, ∃ path ∈ fleet.config.binaries, Path.fileName? path = some b.name

omit hP [Composes P] in
theorem readBinary_name {path : String} {l : Log} {b : Binary}
    (h : (readBinary path).run.Yields l (.ok b)) : Path.fileName? path = some b.name := by
  unfold readBinary at h
  split at h
  · cases (Program.yields_run_throw.mp h).2
  · obtain ⟨l₁, l₂, loaded, rfl, -, hlast⟩ := Program.yields_bind_ok.mp h
    cases loaded with
    | ok contents =>
      cases (Program.yields_run_pure.mp hlast).2
      assumption
    | error reason => cases (Program.yields_run_throw.mp hlast).2

omit hP [Composes P] in
theorem readBinaries_reads {paths : List String} {l : Log} {binaries : List Binary}
    (h : (paths.mapM readBinary).run.Yields l (.ok binaries)) :
    ∀ b ∈ binaries, ∃ path ∈ paths, Path.fileName? path = some b.name := by
  induction paths generalizing l binaries with
  | nil =>
    cases (Program.yields_run_pure.mp h).2
    exact fun _ hm => absurd hm List.not_mem_nil
  | cons path paths ih =>
    rw [List.mapM_cons] at h
    obtain ⟨l₁, l₂, first, rfl, hfirst, h⟩ := Program.yields_bind_ok.mp h
    obtain ⟨l₃, l₄, rest, rfl, hrest, h⟩ := Program.yields_bind_ok.mp h
    cases (Program.yields_run_pure.mp h).2
    intro b hm
    rcases List.mem_cons.mp hm with rfl | hm
    · exact ⟨path, List.mem_cons_self, readBinary_name hfirst⟩
    · obtain ⟨other, hother, hname⟩ := ih hrest b hm
      exact ⟨other, List.mem_cons_of_mem path hother, hname⟩

theorem installBinaries_leaves {hosts : List Host}
    (h : ∀ host ∈ hosts, ∀ binaries, fleet.Reads binaries → ∀ r,
      fleet.InstallAsks host binaries r → allowed host r) :
    Leaves P (fleet.installBinaries hosts) := by
  refine Conduct.leaves_conclude (Conduct.leaves_bind_ends (Conduct.leaves_need ?_) ?_)
  · exact leaves_mapM fun path _ => readBinary_leaves (hP.aside trivial)
  · intro before l binaries mid hread
    have hreads : fleet.Reads binaries := readBinaries_reads (Conduct.ends_need_ok.mp hread).1
    exact Conduct.leaves_eachHost fun host hm =>
      fleet.install_leaves hP (h host hm binaries hreads)

theorem deriveAddresses_leaves {hosts : List Host}
    (h : ∀ host ∈ hosts, allowed host (.run host (fleet.command (.accountAddress "")))) :
    Leaves P (fleet.deriveAddresses hosts) := by
  induction hosts with
  | nil => exact leaves_pure _
  | cons host rest ih =>
    have hothers := ih fun other hm => h other (List.mem_cons_of_mem _ hm)
    have hasked := hP.queryToken (h host List.mem_cons_self)
    refine leaves_bind (Conduct.leaves_attempt hasked) fun result => ?_
    cases result with
    | ok address =>
      refine leaves_bind (Conduct.leaves_passed _ _ _) fun _ => ?_
      exact leaves_bind hothers fun _ => leaves_pure _
    | error e => exact leaves_bind (Conduct.leaves_settled _ _ _ _) fun _ => hothers

theorem transfer_leaves {hosts : List Host} {addresses : List String} {requested? : Option Amount}
    (hderive : ∀ host ∈ hosts, allowed host (.run host (fleet.command (.accountAddress ""))))
    (hsend : ∀ amount destinations r, fleet.SendAsks amount destinations r →
      allowed fleet.roster.main r) :
    Leaves P (fleet.transfer hosts addresses requested?) := by
  refine Conduct.leaves_conclude ?_
  have hrest : Leaves P (do
      let amount ← Conduct.need "select" (.ofExcept (fleet.amount requested?))
      let derived ← fleet.deriveAddresses hosts
      let destinations := derived ++ addresses.map Destination.given
      unless destinations.isEmpty do
        Conduct.inSession "connect-main" fleet.roster.main
          (fleet.sendAll amount destinations)) := by
    refine leaves_bind (Conduct.leaves_need (leaves_ofExcept _)) fun amount => ?_
    refine leaves_bind (fleet.deriveAddresses_leaves hP hderive) fun derived => ?_
    refine leaves_ite (fun _ => leaves_pure _) fun _ => ?_
    exact hP.conductInSession (fleet.sendAll_only amount _) (hsend amount _)
  refine leaves_ite (fun _ => leaves_bind (Conduct.leaves_abort _ _) fun _ => ?_) fun _ => ?_
  all_goals exact hrest

theorem awaitBalance_leaves {hosts : List Host} {requested? : Option Amount}
    (h : ∀ host ∈ hosts, allowed host (.run host (fleet.command .balance))) :
    Leaves P (fleet.awaitBalance hosts requested?) := by
  have hround (amount : Amount) : Leaves P (fleet.balanceRound hosts amount) :=
    leaves_bind (leaves_mapM fun host hm => fleet.balanceOf_leaves hP (h host hm)) fun _ =>
      leaves_pure _
  refine Conduct.leaves_conclude ?_
  refine leaves_bind (Conduct.leaves_need (leaves_ofExcept _)) fun amount => ?_
  refine leaves_bind (Conduct.leaves_need ?_) fun (balances, _) => ?_
  · exact leaves_poll (fun _ h => hP.aside h) (hround amount) _ _
  · exact leaves_forM fun _ _ => Conduct.leaves_settled _ _ _ _

theorem rebootAll_leaves {hosts : List Host}
    (h : ∀ host ∈ hosts, ∀ r, fleet.RebootAsks host r → allowed host r) :
    Leaves P (fleet.rebootAll hosts) := by
  induction hosts with
  | nil => exact leaves_pure _
  | cons host rest ih =>
    have hothers := ih fun other hm => h other (List.mem_cons_of_mem _ hm)
    have htold := fleet.rebootHost_leaves hP (h host List.mem_cons_self)
    refine leaves_bind (Conduct.leaves_attempt htold) fun result => ?_
    cases result with
    | ok _ =>
      refine leaves_bind (Conduct.leaves_passed _ _ _) fun _ => ?_
      exact leaves_bind hothers fun _ => leaves_pure _
    | error e => exact leaves_bind (Conduct.leaves_settled _ _ _ _) fun _ => hothers

omit hP [Composes P] in
/-- Only hosts that were to be told to reboot have been told. -/
theorem rebootAll_told {hosts told : List Host} {before after : Report} {l : Log}
    (h : (fleet.rebootAll hosts).Ends before l (.ok (told, after))) : told ⊆ hosts := by
  induction hosts generalizing told before l with
  | nil =>
    cases (Conduct.ends_pure.mp h).2
    exact List.Subset.refl []
  | cons host rest ih =>
    obtain ⟨l₁, l₂, result, mid, rfl, -, hnext⟩ := Conduct.ends_bind_ok.mp h
    cases result with
    | ok _ =>
      obtain ⟨l₃, l₄, _, _, rfl, -, hothers⟩ := Conduct.ends_bind_ok.mp hnext
      obtain ⟨l₅, l₆, others, _, rfl, hothers, hlast⟩ := Conduct.ends_bind_ok.mp hothers
      cases (Conduct.ends_pure.mp hlast).2
      exact List.cons_subset_cons host (ih hothers)
    | error e =>
      obtain ⟨l₃, l₄, _, _, rfl, -, hothers⟩ := Conduct.ends_bind_ok.mp hnext
      exact List.subset_cons_of_subset host (ih hothers)

theorem reboot_leaves {hosts : List Host}
    (htell : ∀ host ∈ hosts, ∀ r, fleet.RebootAsks host r → allowed host r)
    (hstart : ∀ host ∈ hosts, ∀ r, fleet.AgainAsks host r → allowed host r) :
    Leaves P (fleet.reboot hosts) := by
  refine Conduct.leaves_conclude ?_
  refine Conduct.leaves_bind_ends (fleet.rebootAll_leaves hP htell) ?_
  intro before l told mid htold
  refine leaves_ite (fun _ => leaves_pure _) fun _ => ?_
  refine leaves_bind (Conduct.leaves_need (hP.settle _)) fun _ => ?_
  refine Conduct.leaves_eachHost fun host hm => fleet.startAgain_leaves hP ?_
  exact hstart host (fleet.rebootAll_told htold hm)

theorem openConsoles_leaves (hosts : List Host) : Leaves P (fleet.openConsoles hosts) := by
  refine Conduct.leaves_conclude ?_
  split
  · split
    · exact Conduct.leaves_abort _ _
    · exact Conduct.leaves_eachHost fun host _ => launch_leaves (hP.aside trivial)
  · exact Conduct.leaves_abort _ _

end Procedures

/-! ## Every order -/

section Orders

variable {P : Log → Prop} [Composes P]

theorem onTargets_leaves {procedure : Procedure} {tokens : List String} {default : List Host}
    {run : List Host → Program Report}
    (h : ∀ hosts, fleet.roster.select tokens default = .ok hosts → Leaves P (run hosts)) :
    Leaves P (fleet.onTargets procedure tokens default run) := by
  unfold onTargets
  split
  · exact h _ ‹_›
  · exact leaves_pure _

/-- The host that a token selects first makes the key. -/
theorem promoteWith_leaves {staking? : Option String}
    (h : ∀ chosen?, chosen?.getD fleet.roster.stakingHost = fleet.promoter staking? →
      Leaves P (fleet.promote chosen?)) :
    Leaves P (fleet.promoteWith staking?) := by
  cases staking? with
  | none => exact h none rfl
  | some token =>
    refine fleet.onTargets_leaves fun hosts hselect => h hosts.head? ?_
    unfold Roster.select at hselect
    simp only [List.isEmpty_cons, Bool.false_eq_true, if_false] at hselect
    split at hselect
    · cases hselect
    · cases hselect
      rfl

/-- A property that whole sessions have in which only that is asked which an order may ask is a
property of every log of the order. -/
theorem program_leaves {order : Order} (hP : HoldsOfSessions (fleet.Asks order) P) :
    Leaves P (fleet.program order) := by
  -- order by order: what the procedure asks in its sessions is among what the order may ask
  cases order with
  | sweep targets =>
    refine fleet.onTargets_leaves fun hosts hselect => Conduct.leaves_conclude ?_
    exact fleet.sweepAll_leaves hP fun host hm r hr => ⟨⟨hosts, hselect, hm⟩, hr⟩
  | stop targets =>
    refine fleet.onTargets_leaves fun hosts hselect => Conduct.leaves_conclude ?_
    refine Conduct.leaves_eachHost fun host hm => ?_
    exact fleet.stopHost_leaves hP fun r hr => ⟨⟨hosts, hselect, hm⟩, hr⟩
  | start targets wiped =>
    refine fleet.onTargets_leaves fun hosts hselect => Conduct.leaves_conclude ?_
    refine Conduct.leaves_eachHost fun host hm => ?_
    exact fleet.startHost_leaves hP fun r hr => ⟨⟨hosts, hselect, hm⟩, hr⟩
  | restart wiped =>
    refine Conduct.leaves_conclude (leaves_bind ?_ fun _ => ?_)
    · refine Conduct.leaves_eachHost fun host hm => ?_
      exact fleet.stopHost_leaves hP fun r hr => ⟨hm, .inl hr⟩
    · refine Conduct.leaves_eachHost fun host hm => ?_
      exact fleet.startHost_leaves hP fun r hr => ⟨hm, .inr hr⟩
  | coldRestart wiped amount? => exact fleet.coldRestart_leaves hP amount?
  | writeStakingConfigs targets =>
    refine fleet.onTargets_leaves fun hosts hselect => Conduct.leaves_conclude ?_
    refine Conduct.leaves_eachHost fun host hm => ?_
    exact fleet.configureHost_leaves hP fun r hr => ⟨⟨hosts, hselect, hm⟩, hr⟩
  | promote staking? =>
    refine fleet.promoteWith_leaves fun chosen? hchosen => fleet.promote_leaves hP ?_ ?_
    · rw [hchosen]
      exact fun r hr => .inl ⟨rfl, hr⟩
    · rw [hchosen]
      exact fun host hm key r hr => .inr ⟨hm, key, hr⟩
  | installBinaries targets =>
    refine fleet.onTargets_leaves fun hosts hselect => fleet.installBinaries_leaves hP ?_
    exact fun host hm binaries _ r hr => ⟨⟨hosts, hselect, hm⟩, binaries, hr⟩
  | transfer tokens amount? =>
    refine fleet.transfer_leaves hP (fun host hm => .inl ⟨hm, rfl⟩) ?_
    exact fun amount destinations r hr => .inr ⟨rfl, amount, destinations, hr⟩
  | awaitBalance targets amount? =>
    refine fleet.onTargets_leaves fun hosts hselect => fleet.awaitBalance_leaves hP ?_
    exact fun host hm => ⟨⟨hosts, hselect, hm⟩, rfl⟩
  | reboot targets =>
    refine fleet.onTargets_leaves fun hosts hselect => fleet.reboot_leaves hP ?_ ?_
    · exact fun host hm r hr => ⟨⟨hosts, hselect, hm⟩, .inl hr⟩
    · exact fun host hm r hr => ⟨⟨hosts, hselect, hm⟩, .inr hr⟩
  | openConsoles targets =>
    exact fleet.onTargets_leaves fun hosts _ => fleet.openConsoles_leaves hP hosts

/-- Whatever an order asks is aside, or concerns a session to a host that may be asked this. -/
theorem program_asks (order : Order) :
    Leaves (Only fun r => r.IsAside ∨ ∃ host, r.InSession host (fleet.Asks order host))
      (fleet.program order) := by
  refine fleet.program_leaves ⟨fun h _ => only_singleton.mpr (.inl h), fun host _ => ?_, ?_⟩
  · exact only_singleton.mpr (.inr ⟨host, .inl rfl⟩)
  · intro host inner hinner e he
    obtain rfl | he | rfl := mem_session.mp he
    · exact .inr ⟨host, .inl rfl⟩
    · exact .inr ⟨host, .inr (.inr (hinner e he))⟩
    · exact .inr ⟨host, .inr (.inl rfl)⟩

/-- A file is written only where the order may write it. -/
theorem asks_of_write {order : Order} {l : Log} {report : Report} {host : Host} {path : String}
    {contents : ByteArray} {answer : Except RemoteError Unit}
    (h : (fleet.program order).Yields l report)
    (he : (⟨.write host path contents, answer⟩ : Event) ∈ l) :
    ∃ asked, fleet.Asks order asked (.write host path contents) := by
  obtain haside | ⟨asked, hopen | hclose | hasks⟩ := fleet.program_asks order _ _ h _ he
  · exact absurd haside id
  · cases hopen
  · cases hclose
  · exact ⟨asked, hasks⟩

end Orders

end Fleet

end NodeFleet
