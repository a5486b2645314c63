import NodeFleet.Proofs.DeskSessions
import NodeFleet.Proofs.Words

/-!
# NodeFleet.Proofs.Network — every line and every file is of the fleet's network

The flag and the directory of the network enter the settings of the daemon once.  Whatever is
ordered and however the fleet behaves, no host is sent a line without the flag that has to have it,
and no file is written into the directory of the other network.

* `Text.trimEnd_parts`, `Daemon.call_eq`: directories, and calls as words.
* `Config.Line`, `Config.File`: the lines and the files that go with a directory and with options.
* `Fleet.asks_kept`, `Fleet.program_keeps`: an order sends and writes no others.
* `Desk.logs_keepNetwork`: all orders, one after the other, in any world.
-/

namespace NodeFleet

/-! ## Words of a call -/

namespace Text

theorem join_eq (sep : String) (parts : List String) : join sep parts = sep.intercalate parts := by
  rw [join, ← String.toList_intercalate, String.ofList_toList]

/-- What is trimmed away at the end stood there, and nothing like it is left. -/
theorem trimEnd_parts (c : Char) (s : String) :
    (∃ n, s.toList = (trimEnd c s).toList ++ List.replicate n c) ∧
      (trimEnd c s).toList.getLast? ≠ some c := by
  rw [trimEnd, String.toList_ofList]
  unfold stripEndChars
  constructor
  · have hparts := List.takeWhile_append_dropWhile (p := (· == c)) (l := s.toList.reverse)
    rw [takeWhile_eq_replicate] at hparts
    have hwhole := congrArg List.reverse hparts
    rw [List.reverse_append, List.reverse_replicate, List.reverse_reverse] at hwhole
    exact ⟨_, hwhole.symm⟩
  · rw [List.getLast?_reverse]
    intro h
    simpa [h] using List.head?_dropWhile_not (· == c) s.toList.reverse

end Text

/-- The words that every call of the daemon and of its client has before its arguments. -/
def Config.options (config : Config) : List String :=
  Text.words config.serverOption ++
    match config.network with
    | .mainnet => []
    | .testnet => ["-testnet"]

namespace Daemon

variable (config : Config) (program arguments : String)

theorem options_eq : (ofConfig config).options = Text.join " " config.options := by
  unfold ofConfig Config.options
  cases config.network <;> rfl

/-- No option is empty. -/
theorem options_isWord : ∀ word ∈ config.options, Text.IsWord word := by
  intro word hm
  rcases List.mem_append.mp hm with hm | hm
  · exact Text.isWord_of_mem hm
  · split at hm
    · exact absurd hm List.not_mem_nil
    · obtain rfl := List.mem_singleton.mp hm
      decide

/-- A call is the program, the options and the arguments, with single spaces between them. -/
theorem call_eq : (ofConfig config).call program arguments =
    Text.join " " (program :: config.options ++ [arguments]) := by
  unfold call
  rw [options_eq, Text.join_eq, Text.join_eq]
  by_cases hnone : config.options = []
  · rw [hnone]
    rfl
  · have hsome : (" ".intercalate config.options).isEmpty = false := by
      obtain ⟨first, rest, hoptions⟩ := List.exists_cons_of_ne_nil hnone
      have hfirst : first ≠ "" := (options_isWord config first (by simp [hoptions])).1
      rw [hoptions]
      cases rest <;> simp [hfirst]
    have hfront : " ".intercalate (program :: config.options) =
        program ++ " " ++ " ".intercalate config.options :=
      String.intercalate_cons_of_ne_nil hnone
    rw [hsome, String.intercalate_append_of_ne_nil (List.cons_ne_nil _ _) (List.cons_ne_nil _ _),
      hfront, String.intercalate_singleton]
    rfl

end Daemon

/-! ## Lines and files -/

namespace Config

variable (config : Config)

/-- The directory of the daemon's files: the data directory without the slashes at its end, and on
the test network `testnet4` in it. -/
def IsDirectory (dir : String) : Prop :=
  ∃ data slashes, config.dataDir.toList = data.toList ++ List.replicate slashes '/' ∧
    data.toList.getLast? ≠ some '/' ∧
    dir = match config.network with
      | .mainnet => data
      | .testnet => data ++ "/testnet4"

theorem isDirectory_configDir : config.IsDirectory config.configDir := by
  obtain ⟨⟨slashes, hparts⟩, hend⟩ := Text.trimEnd_parts '/' config.dataDir
  exact ⟨_, slashes, hparts, hend, rfl⟩

/-- The arguments with which the client is called. -/
inductive Asked : String → Prop
  | stop : Asked "stop"
  | status : Asked "status"
  | masternodeStatus : Asked "masternode status"
  | balance : Asked "getbalance"
  | privateKey : Asked "masternode genkey"
  | accountAddress (account : String) : Asked ("getaccountaddress \"" ++ account ++ "\"")
  | pay (address : String) (amount : Amount) :
    Asked ("sendtoaddress " ++ address ++ " " ++ amount.toText)
  | outputs : Asked "masternode outputs"
  | enableGeneration : Asked "setgenerate true 1"
  | startAlias (name : String) : Asked ("startmasternode alias false " ++ name)
  | startLocal : Asked "startmasternode local false"

/-- The places into which the binaries of the description are put. -/
def Place (place : String) : Prop :=
  ∃ path ∈ config.binaries, ∃ name, Path.fileName? path = some name ∧
    place = Text.trimEnd '/' config.installDir ++ "/" ++ name

/-- The lines that go with a directory for the daemon's files and with options for its calls. -/
inductive Line (dir : String) (options : List String) : String → Prop
  | uptime : Line dir options "uptime"
  | findProcess {name : String} (h : name ∈ config.mainServices) :
    Line dir options ("ps -e|grep " ++ name)
  | reboot : Line dir options config.rebootCommand
  | swapIn {place : String} (h : config.Place place) :
    Line dir options ("rm -f " ++ place ++ " && mv " ++ place ++ ".new " ++ place ++
      " && chmod 755 " ++ place)
  | makeDir : Line dir options ("mkdir -p " ++ dir)
  | wipe : Line dir options ("rm -rf " ++ Text.join " " (chainData.map (dir ++ "/" ++ ·)))
  | client {arguments : String} (h : Asked arguments) :
    Line dir options (Text.join " " (config.cliBinary :: options ++ [arguments]))
  | daemon : Line dir options (Text.join " " (config.daemonBinary :: options ++ ["-daemon"]))

/-- The files that go with a directory for the daemon's files: a node configuration, a line of the
masternode list with the port of the network, and staged copies of binaries. -/
inductive File (dir : String) : String → ByteArray → Prop
  | nodeConfig {conf : NodeConfig} (h : conf.base = config.baseLines) :
    File dir (dir ++ "/" ++ config.confFile) conf.render.toUTF8
  | masternodeList (address key hash : String) :
    File dir (dir ++ "/masternode.conf")
      (config.masternodeAlias ++ " " ++ address ++ ":" ++ toString config.network.port ++ " " ++
        key ++ " " ++ hash ++ " 1" ++ "\n").toUTF8
  | staged {place : String} (h : config.Place place) (contents : ByteArray) :
    File dir (place ++ ".new") contents

/-- A host is sent only lines and files that go with the directory and the options. -/
def Keeps (dir : String) (options : List String) : Request → Prop
  | .run _ command => config.Line dir options command.line
  | .write _ path contents => config.File dir path contents
  | _ => True

end Config

namespace Fleet

variable (fleet : Fleet) {host : Host} {r : Request}

/-- What a host may be sent on the fleet. -/
def Kept : Request → Prop := fleet.config.Keeps fleet.config.configDir fleet.config.options

/-- The tasks that the description allows. -/
def Plans : Task → Prop
  | .findProcess name => name ∈ fleet.config.mainServices
  | .reboot line => line = fleet.config.rebootCommand
  | .swapIn place => fleet.config.Place place
  | _ => True

/-- The line of a task goes with the directory and the options of the fleet. -/
theorem line_kept {task : Task} (h : fleet.Plans task) :
    fleet.config.Line fleet.config.configDir fleet.config.options (fleet.command task).line := by
  -- questions to a daemon differ in their arguments only
  have hask {arguments : String} (hasked : Config.Asked arguments) :
      fleet.config.Line fleet.config.configDir fleet.config.options
        (fleet.daemon.ask arguments) := by
    unfold Daemon.ask daemon
    rw [Daemon.call_eq]
    exact .client hasked
  cases task with
  | start =>
    show fleet.config.Line _ _ (fleet.daemon.call fleet.daemon.program "-daemon")
    unfold daemon
    rw [Daemon.call_eq]
    exact .daemon
  | stop => exact hask .stop
  | status => exact hask .status
  | masternodeStatus => exact hask .masternodeStatus
  | balance => exact hask .balance
  | privateKey => exact hask .privateKey
  | accountAddress account => exact hask (.accountAddress account)
  | pay address amount => exact hask (.pay address amount)
  | outputs => exact hask .outputs
  | enableGeneration => exact hask .enableGeneration
  | startAlias name => exact hask (.startAlias name)
  | startLocal => exact hask .startLocal
  | wipe => exact .wipe
  | makeConfigDir => exact .makeDir
  | uptime => exact .uptime
  | findProcess name => exact .findProcess h
  | reboot line =>
    obtain rfl := h
    exact .reboot
  | swapIn place =>
    have hline : fleet.config.Line fleet.config.configDir fleet.config.options _ := .swapIn h
    simpa [Command.line, command, stagedPath, String.append_assoc] using hline

/-- What is asked of a host in a session is kept when its commands and its files are. -/
theorem kept_of_isOn {runs : Command → Prop} {writes : String → ByteArray → Prop}
    (h : r.IsOn host runs writes)
    (hruns : ∀ command, runs command → ∃ task, command = fleet.command task ∧ fleet.Plans task)
    (hwrites : ∀ path contents, writes path contents →
      fleet.config.File fleet.config.configDir path contents) : fleet.Kept r := by
  cases r with
  | run _ command =>
    obtain ⟨task, rfl, hplans⟩ := hruns command h.2
    exact fleet.line_kept hplans
  | write _ path contents => exact hwrites path contents h.2
  | _ => trivial

theorem writes_config {conf : NodeConfig} (h : conf.base = fleet.config.baseLines) :
    fleet.config.File fleet.config.configDir fleet.daemon.confPath conf.render.toUTF8 :=
  .nodeConfig h

theorem not_noFile {path : String} {contents : ByteArray} (h : NoFile path contents) :
    fleet.config.File fleet.config.configDir path contents := absurd h id

/-! ## Steps on one host -/

theorem stopAsks_kept (h : fleet.StopAsks host r) : fleet.Kept r :=
  fleet.kept_of_isOn h (fun _ hc => ⟨_, hc, trivial⟩) fun _ _ => fleet.not_noFile

theorem againAsks_kept (h : fleet.AgainAsks host r) : fleet.Kept r :=
  fleet.kept_of_isOn h (fun _ hc => ⟨_, hc, trivial⟩) fun _ _ => fleet.not_noFile

theorem startAsks_kept {wiped : Bool} (h : fleet.StartAsks host wiped r) : fleet.Kept r := by
  refine fleet.kept_of_isOn h ?_ ?_
  · rintro command (⟨rfl, -⟩ | ⟨rfl, -⟩ | rfl | ⟨rfl, -⟩)
    all_goals exact ⟨_, rfl, trivial⟩
  · rintro path contents ⟨-, rfl, rfl⟩
    exact fleet.writes_config rfl

theorem configureAsks_kept (h : fleet.ConfigureAsks host r) : fleet.Kept r := by
  refine fleet.kept_of_isOn h (fun _ hc => ⟨_, hc, trivial⟩) ?_
  rintro path contents ⟨rfl, rfl⟩
  exact fleet.writes_config rfl

theorem rebootAsks_kept (h : fleet.RebootAsks host r) : fleet.Kept r :=
  fleet.kept_of_isOn h (fun _ hc => ⟨_, hc, rfl⟩) fun _ _ => fleet.not_noFile

theorem inspectAsks_kept (h : fleet.InspectAsks host r) : fleet.Kept r := by
  refine fleet.kept_of_isOn h ?_ fun _ _ => fleet.not_noFile
  rintro command (rfl | ⟨name, hname, rfl⟩ | rfl | rfl | rfl)
  · exact ⟨_, rfl, trivial⟩
  · exact ⟨_, rfl, hname⟩
  all_goals exact ⟨_, rfl, trivial⟩

theorem makeKeyAsks_kept (h : fleet.MakeKeyAsks host r) : fleet.Kept r := by
  refine fleet.kept_of_isOn h ?_ ?_
  · rintro command (rfl | rfl | rfl)
    all_goals exact ⟨_, rfl, trivial⟩
  · rintro path contents ⟨rfl, rfl⟩
    exact fleet.writes_config rfl

theorem promoteAsks_kept {staking : Host} {key : String}
    (h : fleet.PromoteAsks host staking key r) : fleet.Kept r := by
  refine fleet.kept_of_isOn h ?_ ?_
  · rintro command (rfl | rfl | rfl)
    all_goals exact ⟨_, rfl, trivial⟩
  · rintro path contents ⟨rfl, rfl⟩
    exact fleet.writes_config rfl

theorem sendAsks_kept {amount : Amount} {destinations : List Destination}
    (h : fleet.SendAsks amount destinations r) : fleet.Kept r := by
  refine fleet.kept_of_isOn h ?_ fun _ _ => fleet.not_noFile
  rintro command ⟨d, -, rfl⟩
  exact ⟨_, rfl, trivial⟩

theorem startMasternodeAsks_kept {key : String} (h : fleet.StartMasternodeAsks host key r) :
    fleet.Kept r := by
  refine fleet.kept_of_isOn h ?_ ?_
  · rintro command (rfl | rfl)
    all_goals exact ⟨_, rfl, trivial⟩
  · rintro path contents ⟨rfl, rfl⟩
    exact fleet.writes_config rfl

/-- Binaries are put into their places, and each is staged beside its place. -/
theorem installAsks_kept {binaries : List Binary} (hreads : fleet.Reads binaries)
    (h : fleet.InstallAsks host binaries r) : fleet.Kept r := by
  have hplace {b : Binary} (hb : b ∈ binaries) : fleet.config.Place (fleet.installPath b) := by
    obtain ⟨path, hpath, hname⟩ := hreads b hb
    exact ⟨path, hpath, b.name, hname, rfl⟩
  refine fleet.kept_of_isOn h ?_ ?_
  · rintro command ⟨b, hb, rfl⟩
    exact ⟨_, rfl, hplace hb⟩
  · rintro path contents ⟨b, hb, rfl, rfl⟩
    exact .staged (hplace hb) b.contents

theorem coldAsks_kept {wiped : Bool} (h : fleet.ColdAsks wiped host r) : fleet.Kept r := by
  cases h with
  | stop h => exact fleet.stopAsks_kept h
  | start h => exact fleet.startAsks_kept h
  | startMasternode key hfirst h => exact fleet.startMasternodeAsks_kept h
  | writeList key hash hfirst => exact .masternodeList _ key hash
  | _ => exact fleet.line_kept (by trivial)

/-! ## Every order -/

/-- What an order may ask of a host goes with the directory and the options of the fleet; a rollout
is seen to by itself, since the names of its binaries depend on what was read. -/
theorem asks_kept {order : Order} (horder : ∀ targets, order ≠ .installBinaries targets)
    (h : fleet.Asks order host r) : fleet.Kept r := by
  cases order with
  | sweep targets => exact fleet.inspectAsks_kept h.2
  | stop targets => exact fleet.stopAsks_kept h.2
  | start targets wiped => exact fleet.startAsks_kept h.2
  | restart wiped => exact h.2.elim fleet.stopAsks_kept fleet.startAsks_kept
  | coldRestart wiped amount? => exact fleet.coldAsks_kept h
  | writeStakingConfigs targets => exact fleet.configureAsks_kept h.2
  | promote staking? =>
    obtain ⟨-, h⟩ | ⟨-, key, h⟩ := h
    · exact fleet.makeKeyAsks_kept h
    · exact fleet.promoteAsks_kept h
  | installBinaries targets => exact absurd rfl (horder targets)
  | transfer tokens amount? =>
    obtain ⟨-, rfl⟩ | ⟨-, amount, destinations, h⟩ := h
    · exact fleet.line_kept (by trivial)
    · exact fleet.sendAsks_kept h
  | awaitBalance targets amount? =>
    obtain ⟨-, rfl⟩ := h
    exact fleet.line_kept (by trivial)
  | reboot targets => exact h.2.elim fleet.rebootAsks_kept fleet.againAsks_kept
  | openConsoles targets => exact absurd h id

theorem kept_sessions : HoldsOfSessions (fun _ => fleet.Kept) (Only fleet.Kept) := by
  refine holdsOfSessions_only (fun r haside => ?_) (fun _ => trivial) fun _ => trivial
  cases r with
  | run _ _ => exact absurd haside id
  | write _ _ _ => exact absurd haside id
  | _ => trivial

/-- Every order sends only lines and writes only files that go with the directory and the options of
the fleet. -/
theorem program_keeps (order : Order) : Leaves (Only fleet.Kept) (fleet.program order) := by
  have hP := fleet.kept_sessions
  by_cases horder : ∃ targets, order = .installBinaries targets
  · obtain ⟨targets, rfl⟩ := horder
    refine fleet.onTargets_leaves fun hosts _ => fleet.installBinaries_leaves hP ?_
    exact fun host _ binaries hreads r => fleet.installAsks_kept hreads
  · have hother (targets : List String) : order ≠ .installBinaries targets :=
      fun heq => horder ⟨targets, heq⟩
    exact fleet.program_leaves
      ⟨hP.aside, hP.refused, fun h => hP.session (h.mono fun _ => fleet.asks_kept hother)⟩

end Fleet

/-! ## All orders, one after the other -/

namespace Desk

/-- Whatever is ordered, in any world, every host is sent only lines and files that go with the one
directory of the daemon's files and with the words of the server option, followed on the test
network by its flag. -/
theorem logs_keepNetwork (fleet : Fleet) :
    ∃ dir, fleet.config.IsDirectory dir ∧
      ∀ {σ : Type} (world : World σ) (orders : List Order) (s : σ),
        ∀ l ∈ (new fleet).logs world orders s, ∀ e ∈ l,
          fleet.config.Keeps dir fleet.config.options e.request := by
  refine ⟨_, fleet.config.isDirectory_configDir, fun world orders s l hl e he => ?_⟩
  have hkept : Only fleet.Kept l :=
    logs_leave world (new fleet) fleet.program_keeps orders s l hl
  exact hkept e he

end Desk

end NodeFleet
