import Mathlib.Data.List.Forall2
import NodeFleet.Proofs.DeskSessions
import NodeFleet.Proofs.Refusals
import NodeFleet.Proofs.Rosters
import NodeFleet.Proofs.Selecting

/-!
# NodeFleet.Proofs.Preflight — an order that is refused touches nothing

Whether an order can be carried out is seen before anything is done: the tokens have to select
hosts, the sum has to be positive, there has to be a masternode, consoles need a command, and every
binary has to be readable.  An order that fails one of these is refused, at the stage of the check,
and until then nothing but binaries has been read; and no other order is refused.

* `Fleet.lacksTarget`, `Fleet.lacksSum`, `Fleet.lacksMasternode`, `Fleet.lacksConsole`,
  `Fleet.lacksBinary`: what an order may lack.  `Fleet.firstLack?`: the first of them, with the
  stage and the kind of the failure.
* `World.withFiles`: a world in which the files on the operator's machine are given.
* `Report.Answers`: what a report and a log say of a refusal, or of its absence.
* `onTargets_answers`, `needAmount_answers`, `transfer_answers`, ...: one lemma a check.
* `Desk.refused_touches_nothing`: all of it, for every order, desk and world.
-/

namespace NodeFleet

/-! ## What an order may lack -/

/-- What comes of reading each file of the operator's machine. -/
abbrev LocalFiles : Type := String → Except String ByteArray

/-- The tokens of an order each of which has to select a host. -/
def Order.selectors : Order → List String
  | .sweep targets | .stop targets | .start targets _ | .writeStakingConfigs targets
  | .installBinaries targets | .awaitBalance targets _ | .reboot targets | .openConsoles targets =>
    targets
  | .promote staking? => staking?.toList
  | .restart _ | .coldRestart _ _ | .transfer _ _ => []

namespace Fleet

variable (fleet : Fleet)

/-- A token selects no host, or a transfer has neither a host nor an address to go to. -/
def lacksTarget : Order → Bool
  | .transfer tokens _ =>
    tokens.all fun token => fleet.roster.isFree token && !isRawAddress token
  | order => order.selectors.any fleet.roster.isFree

/-- The sum that an order moves or waits for: the one that is given, in a transfer else the first
finite number among the free tokens, else the configured one. -/
def sum? : Order → Option Amount
  | .coldRestart _ amount? | .awaitBalance _ amount? =>
    some (amount?.getD fleet.config.collateral)
  | .transfer tokens amount? =>
    some ((amount?.or ((tokens.filter fleet.roster.isFree).findSome? finiteNumber?)).getD
      fleet.config.collateral)
  | _ => none

/-- The sum is not a finite positive number. -/
def lacksSum (order : Order) : Bool := (fleet.sum? order).any fun amount => !amount.isPositive

/-- A masternode is needed, and there is none. -/
def lacksMasternode : Order → Bool
  | .promote _ | .coldRestart _ _ => !fleet.roster.entries.any (·.role == .masternode)
  | _ => false

/-- Consoles are to be opened without a project, a zone or a terminal. -/
def lacksConsole : Order → Bool
  | .openConsoles _ =>
    fleet.config.project?.isNone || fleet.config.zone?.isNone || fleet.config.terminal.isEmpty
  | _ => false

/-- A path has no file name, or there is no file that can be read. -/
def isMissing (files : LocalFiles) (path : String) : Bool :=
  (Path.fileName? path).isNone || !(files path).isOk

/-- A binary that is to be installed has no file name, or cannot be read. -/
def lacksBinary (files : LocalFiles) : Order → Bool
  | .installBinaries _ => fleet.config.binaries.any (isMissing files)
  | _ => false

/-- The stage at which the masternode is looked for. -/
def masternodeStage : Order → String
  | .coldRestart _ _ => "select-masternode"
  | _ => "select"

/-- The stage and the kind of failure with which an order is refused, if it is. -/
def firstLack? (files : LocalFiles) (order : Order) : Option (String × ErrorKind) :=
  if fleet.lacksTarget order then some ("select", .hostNotFound)
  else if fleet.lacksSum order then some ("select", .config)
  else if fleet.lacksMasternode order then some (masternodeStage order, .config)
  else if fleet.lacksConsole order then some ("select", .config)
  else if fleet.lacksBinary files order then some ("read-binaries", .config)
  else none

end Fleet

/-! ## Given files -/

/-- A world in which the files on the operator's machine are given. -/
def World.withFiles {σ : Type} (world : World σ) (files : LocalFiles) : World σ
  | .load path, s => (files path, (world (.load path) s).2)
  | r, s => world r s

/-- What is read of a file is what it holds. -/
def Event.ReadsFrom (files : LocalFiles) : Event → Prop
  | ⟨.load path, answer⟩ => answer = files path
  | _ => True

/-- A file of the operator's machine is read. -/
def Request.IsLoad : Request → Prop
  | .load _ => True
  | _ => False

/-- All that is read is what the files hold. -/
def Log.ReadsFrom (files : LocalFiles) (l : Log) : Prop := ∀ e ∈ l, e.ReadsFrom files

theorem World.withFiles_readsFrom {α σ : Type} (world : World σ) (files : LocalFiles)
    (p : Program α) (s : σ) : Log.ReadsFrom files (p.log (world.withFiles files) s) := by
  induction p generalizing s with
  | done a => exact fun _ h => absurd h List.not_mem_nil
  | ask r next ih =>
    refine List.forall_mem_cons.mpr ⟨?_, ih _ _⟩
    cases r with
    | load path => exact rfl
    | _ => trivial

section Reading

variable {files : LocalFiles} {l l₁ l₂ : Log}

theorem readsFrom_append :
    Log.ReadsFrom files (l₁ ++ l₂) ↔ l₁.ReadsFrom files ∧ l₂.ReadsFrom files :=
  List.forall_mem_append

/-- A binary has the file name of a path, and holds what the file holds. -/
def Binary.IsReadFrom (files : LocalFiles) (path : String) (binary : Binary) : Prop :=
  Path.fileName? path = some binary.name ∧ files path = .ok binary.contents

theorem Binary.IsReadFrom.not_missing {path : String} {binary : Binary}
    (h : binary.IsReadFrom files path) : Fleet.isMissing files path = false := by
  simp [Fleet.isMissing, h.1, h.2, Except.isOk, Except.toBool]

/-- A binary that is read is what its path names and its file holds. -/
theorem readBinary_ok {path : String} {binary : Binary}
    (h : (Fleet.readBinary path).run.Yields l (.ok binary)) (hl : l.ReadsFrom files) :
    binary.IsReadFrom files path := by
  unfold Fleet.readBinary at h
  split at h
  · cases (Program.yields_run_throw.mp h).2
  · rename_i name hname
    obtain ⟨l₁, l₂, loaded, rfl, hload, hread⟩ := Program.yields_bind_ok.mp h
    obtain ⟨_, hrequest, heq⟩ := Program.yields_run_lift.mp hload
    cases heq
    obtain rfl := Program.yields_request.mp hrequest
    have hfile : loaded = files path := (readsFrom_append.mp hl).1 _ (List.mem_singleton_self _)
    cases loaded with
    | ok contents =>
      cases (Program.yields_run_pure.mp hread).2
      exact ⟨hname, hfile.symm⟩
    | error reason => cases (Program.yields_run_throw.mp hread).2

/-- A binary that is not read is missing, and that is a fault of the description. -/
theorem readBinary_error {path : String} {e : FleetError}
    (h : (Fleet.readBinary path).run.Yields l (.error e)) (hl : l.ReadsFrom files) :
    Fleet.isMissing files path = true ∧ ∃ reason, e = .invalid reason := by
  unfold Fleet.readBinary at h
  split at h
  · rename_i hname
    cases (Program.yields_run_throw.mp h).2
    exact ⟨by simp [Fleet.isMissing, hname], _, rfl⟩
  · obtain hload | ⟨l₁, l₂, loaded, rfl, hload, hread⟩ := Program.yields_bind_error.mp h
    · obtain ⟨_, -, heq⟩ := Program.yields_run_lift.mp hload
      cases heq
    obtain ⟨_, hrequest, heq⟩ := Program.yields_run_lift.mp hload
    cases heq
    obtain rfl := Program.yields_request.mp hrequest
    have hfile : loaded = files path := (readsFrom_append.mp hl).1 _ (List.mem_singleton_self _)
    cases loaded with
    | ok contents => cases (Program.yields_run_pure.mp hread).2
    | error reason =>
      cases (Program.yields_run_throw.mp hread).2
      exact ⟨by simp [Fleet.isMissing, ← hfile, Except.isOk, Except.toBool], _, rfl⟩

theorem readBinaries_ok {paths : List String} {binaries : List Binary}
    (h : (paths.mapM Fleet.readBinary).run.Yields l (.ok binaries)) (hl : l.ReadsFrom files) :
    List.Forall₂ (Binary.IsReadFrom files) paths binaries := by
  induction paths generalizing l binaries with
  | nil =>
    cases (Program.yields_run_pure.mp h).2
    exact .nil
  | cons path rest ih =>
    rw [List.mapM_cons] at h
    obtain ⟨l₁, l₂, first, rfl, hfirst, h⟩ := Program.yields_bind_ok.mp h
    obtain ⟨l₃, l₄, others, rfl, hothers, h⟩ := Program.yields_bind_ok.mp h
    cases (Program.yields_run_pure.mp h).2
    obtain ⟨hl₁, hl₂⟩ := readsFrom_append.mp hl
    exact .cons (readBinary_ok hfirst hl₁) (ih hothers (readsFrom_append.mp hl₂).1)

/-- Where all binaries are read, none is missing. -/
theorem none_missing {paths : List String} {binaries : List Binary}
    (h : List.Forall₂ (Binary.IsReadFrom files) paths binaries) :
    paths.any (Fleet.isMissing files) = false := by
  induction h with
  | nil => rfl
  | cons hfirst _ ih => rw [List.any_cons, hfirst.not_missing, Bool.false_or, ih]

theorem readBinaries_error {paths : List String} {e : FleetError}
    (h : (paths.mapM Fleet.readBinary).run.Yields l (.error e)) (hl : l.ReadsFrom files) :
    paths.any (Fleet.isMissing files) = true ∧ ∃ reason, e = .invalid reason := by
  induction paths generalizing l with
  | nil => cases (Program.yields_run_pure.mp h).2
  | cons path rest ih =>
    rw [List.mapM_cons] at h
    rw [List.any_cons, Bool.or_eq_true]
    obtain hfirst | ⟨l₁, l₂, first, rfl, -, h⟩ := Program.yields_bind_error.mp h
    · obtain ⟨hmissing, hreason⟩ := readBinary_error hfirst hl
      exact ⟨.inl hmissing, hreason⟩
    obtain hothers | ⟨l₃, l₄, others, -, -, h⟩ := Program.yields_bind_error.mp h
    · obtain ⟨hmissing, hreason⟩ := ih hothers (readsFrom_append.mp hl).2
      exact ⟨.inr hmissing, hreason⟩
    · cases (Program.yields_run_pure.mp h).2

/-- Until the binaries are read, nothing else is done. -/
theorem readBinaries_loads (paths : List String) :
    Leaves (Only Request.IsLoad) (paths.mapM Fleet.readBinary) :=
  leaves_mapM fun _ _ => Fleet.readBinary_leaves fun _ => only_singleton.mpr trivial

end Reading

/-! ## What a report says of a refusal -/

/-- A report on an order that was refused, with a log in which nothing but binaries is read; or one
on an order that was not refused. -/
def Report.Answers (report : Report) (lack? : Option (String × ErrorKind)) (l : Log) : Prop :=
  match lack? with
  | some refusal =>
    report.abortedAt? = some refusal ∧ report.snapshots = [] ∧ Only Request.IsLoad l
  | none => ¬ report.Refused

namespace Fleet

variable {fleet : Fleet} {files : LocalFiles} {l : Log} {report : Report}

/-- An order is aborted before anything is asked. -/
theorem answers_abort {procedure : Procedure} {stage : String} {e : FleetError} (hl : l = [])
    (hreport : report = (Report.new procedure).abort stage e) :
    report.Answers (some (stage, e.kind)) l := by
  subst hl hreport
  exact ⟨rfl, rfl, Composes.nil⟩

/-- An order is refused when its tokens do not select hosts; else the procedure answers for the
rest. -/
theorem onTargets_answers {procedure : Procedure} {tokens : List String} {default : List Host}
    {run : List Host → Program Report} {rest? : Option (String × ErrorKind)}
    (h : (fleet.onTargets procedure tokens default run).Yields l report)
    (hrun : ∀ hosts, (run hosts).Yields l report → report.Answers rest? l) :
    report.Answers
      (if tokens.any fleet.roster.isFree then some ("select", .hostNotFound) else rest?) l := by
  unfold onTargets at h
  obtain ⟨hfree, token, hselect⟩ | ⟨hselected, hosts, hselect⟩ :=
    fleet.roster.select_cases tokens default
  · rw [hselect] at h
    obtain ⟨rfl, rfl⟩ := Program.yields_pure.mp h
    rw [if_pos hfree]
    exact answers_abort rfl rfl
  · rw [hselect] at h
    rw [hselected]
    exact hrun hosts h

/-- A procedure that is aborted before it has asked anything. -/
theorem abort_answers {procedure : Procedure} {stage : String} {e : FleetError}
    (h : (Conduct.conclude procedure (Conduct.abort stage e)).Yields l report) :
    report.Answers (some (stage, e.kind)) l := by
  obtain ⟨_, ⟨rfl, rfl⟩, rfl⟩ := Conduct.conclude_ends h
  exact answers_abort rfl rfl

/-- A procedure that needs a sum is refused when that is not positive. -/
theorem needAmount_answers {procedure : Procedure} {requested? : Option Amount}
    {rest : Amount → Conduct Unit} {rest? : Option (String × ErrorKind)}
    (h : (Conduct.conclude procedure
      (Conduct.need "select" (.ofExcept (fleet.amount requested?)) >>= rest)).Yields l report)
    (hrest : ∀ amount, (Conduct.conclude procedure (rest amount)).Yields l report →
      report.Answers rest? l) :
    report.Answers
      (if !(requested?.getD fleet.config.collateral).isPositive then some ("select", .config)
        else rest?) l := by
  unfold amount at h
  dsimp only at h
  by_cases hpositive : (requested?.getD fleet.config.collateral).isPositive = true
  · rw [if_pos hpositive] at h
    rw [hpositive]
    exact hrest _ h
  · rw [if_neg hpositive] at h
    rw [Bool.eq_false_iff.mpr hpositive]
    exact abort_answers h

theorem byRole_isEmpty (role : Role) :
    (fleet.roster.byRole role).isEmpty = !fleet.roster.entries.any (·.role == role) := by
  rw [Bool.eq_iff_iff, List.isEmpty_iff, Roster.byRole, List.filter_eq_nil_iff,
    Bool.not_eq_true', List.any_eq_false]

theorem promote_answers {staking? : Option Host}
    (h : (fleet.promote staking?).Yields l report) :
    report.Answers (if !fleet.roster.entries.any (·.role == .masternode) then
      some ("select", .config) else none) l := by
  unfold promote masternodes at h
  rw [byRole_isEmpty] at h
  dsimp only at h
  split at h
  · rw [if_pos ‹_›]
    exact abort_answers h
  · rw [if_neg ‹_›]
    refine Conduct.Willing.concludes ?_ h
    refine Conduct.willing_bind ?_ fun key => Conduct.willing_eachHost (by decide)
    exact Conduct.willing_inSession (by decide) (fleet.makeKey_willing _)

theorem coldRestart_answers {wiped : Bool} {requested? : Option Amount}
    (h : (fleet.coldRestart wiped requested?).Yields l report) :
    report.Answers
      (if !(requested?.getD fleet.config.collateral).isPositive then some ("select", .config)
        else if !fleet.roster.entries.any (·.role == .masternode) then
          some ("select-masternode", .config)
        else none) l := by
  refine needAmount_answers h fun amount h => ?_
  unfold Roster.firstMasternode? at h
  rw [← byRole_isEmpty]
  cases hmasternodes : fleet.roster.byRole .masternode with
  | nil =>
    rw [hmasternodes] at h
    exact abort_answers h
  | cons masternode _ =>
    rw [hmasternodes] at h
    exact (fleet.coldStages_willing wiped amount masternode).concludes h

theorem awaitBalance_answers {hosts : List Host} {requested? : Option Amount}
    (h : (fleet.awaitBalance hosts requested?).Yields l report) :
    report.Answers
      (if !(requested?.getD fleet.config.collateral).isPositive then some ("select", .config)
        else none) l := by
  refine needAmount_answers h fun amount h => Conduct.Willing.concludes ?_ h
  refine Conduct.willing_bind (Conduct.willing_need (by decide) (willing_poll _ _ _)) ?_
  exact fun _ => Conduct.willing_forM fun _ => Conduct.willing_settled _ _ _

theorem transfer_answers {hosts : List Host} {addresses : List String}
    {requested? : Option Amount}
    (h : (fleet.transfer hosts addresses requested?).Yields l report) :
    report.Answers
      (if hosts.isEmpty && addresses.isEmpty then some ("select", .hostNotFound)
        else if !(requested?.getD fleet.config.collateral).isPositive then
          some ("select", .config)
        else none) l := by
  unfold transfer at h
  split at h
  · rw [if_pos ‹_›]
    exact abort_answers h
  · rw [if_neg ‹_›]
    refine needAmount_answers h fun amount h => Conduct.Willing.concludes ?_ h
    refine Conduct.willing_bind (fleet.deriveAddresses_willing hosts) fun derived => ?_
    dsimp only
    split
    · exact Conduct.willing_pure ()
    · exact Conduct.willing_inSession (by decide) (fleet.sendAll_willing amount _)

theorem installBinaries_answers {hosts : List Host} (hl : l.ReadsFrom files)
    (h : (fleet.installBinaries hosts).Yields l report) :
    report.Answers (if fleet.config.binaries.any (isMissing files) then
      some ("read-binaries", .config) else none) l := by
  obtain ⟨r, hends, rfl⟩ := Conduct.conclude_ends h
  obtain ⟨last, rfl, hread⟩ | ⟨l₁, l₂, binaries, mid, rfl, hread, hinstall⟩ :=
    Conduct.ends_bind_cases hends
  · obtain ⟨e, hfailed, rfl⟩ := Conduct.ends_need_error.mp hread
    obtain ⟨hmissing, reason, rfl⟩ := readBinaries_error hfailed hl
    rw [if_pos hmissing]
    exact ⟨rfl, rfl, readBinaries_loads _ l _ hfailed⟩
  · obtain ⟨hall, rfl⟩ := Conduct.ends_need_ok.mp hread
    rw [none_missing (readBinaries_ok hall (readsFrom_append.mp hl).1)]
    refine not_refused_finalReport ?_
    exact Conduct.willing_eachHost (by decide) _ l₂ r hinstall (Report.not_refused_new _)

theorem openConsoles_answers {hosts : List Host}
    (h : (fleet.openConsoles hosts).Yields l report) :
    report.Answers
      (if fleet.config.project?.isNone || fleet.config.zone?.isNone ||
          fleet.config.terminal.isEmpty then some ("select", .config) else none) l := by
  unfold openConsoles at h
  split at h
  · rename_i project zone hproject hzone
    split at h
    · rename_i hterminal
      rw [hproject, hzone, hterminal]
      exact abort_answers h
    · rename_i terminal wrapper hterminal
      rw [hproject, hzone, hterminal]
      exact (Conduct.willing_eachHost (by decide)).concludes h
  · rename_i hnone
    -- the project or the zone is missing
    have hlacks : (fleet.config.project?.isNone || fleet.config.zone?.isNone) = true := by
      cases hproject : fleet.config.project? with
      | none => rfl
      | some project =>
        cases hzone : fleet.config.zone? with
        | none => rfl
        | some zone => exact absurd hzone (hnone project zone hproject)
    rw [hlacks]
    exact abort_answers h

/-- Every order is answered as its checks say. -/
theorem program_answers {order : Order} (hl : l.ReadsFrom files)
    (h : (fleet.program order).Yields l report) :
    report.Answers (fleet.firstLack? files order) l := by
  -- order by order: the checks come first, and what follows them refuses nothing
  cases order with
  | sweep targets =>
    exact onTargets_answers h fun hosts h => (fleet.sweepAll_willing hosts).concludes h
  | stop targets =>
    exact onTargets_answers h fun hosts h =>
      (Conduct.willing_eachHost (by decide)).concludes h
  | start targets wiped =>
    exact onTargets_answers h fun hosts h =>
      (Conduct.willing_eachHost (by decide)).concludes h
  | restart wiped =>
    exact (Conduct.willing_bind (Conduct.willing_eachHost (by decide)) fun _ =>
      Conduct.willing_eachHost (by decide)).concludes h
  | coldRestart wiped amount? => exact coldRestart_answers h
  | writeStakingConfigs targets =>
    exact onTargets_answers h fun hosts h =>
      (Conduct.willing_eachHost (by decide)).concludes h
  | promote staking? =>
    cases staking? with
    | none => exact promote_answers h
    | some token => exact onTargets_answers h fun hosts h => promote_answers h
  | installBinaries targets =>
    exact onTargets_answers h fun hosts h => installBinaries_answers hl h
  | transfer tokens amount? =>
    have htransfer := transfer_answers h
    rw [Payment.ofTokens_amount?, Payment.ofTokens_addresses, Roster.resolve_free,
      fleet.roster.destinations_isEmpty] at htransfer
    exact htransfer
  | awaitBalance targets amount? =>
    exact onTargets_answers h fun hosts h => awaitBalance_answers h
  | reboot targets =>
    refine onTargets_answers h fun hosts h => Conduct.Willing.concludes ?_ h
    refine Conduct.willing_bind (fleet.rebootAll_willing hosts) fun told => ?_
    split
    · exact Conduct.willing_pure ()
    · exact Conduct.willing_bind (Conduct.willing_need (by decide) (willing_settle _)) fun _ =>
        Conduct.willing_eachHost (by decide)
  | openConsoles targets =>
    exact onTargets_answers h fun hosts h => openConsoles_answers h

end Fleet

namespace Desk

/-- An order that lacks something is refused where that is seen, and for that reason; until then no
host has been connected to, nothing has been launched, and at most binaries have been read, and the
desk knows what it knew before.  An order that lacks nothing is not refused: however it ends, it is
not at a stage at which that is checked, nor because a host was not found or the description is at
fault. -/
theorem refused_touches_nothing {σ : Type} (desk : Desk) (files : LocalFiles) (world : World σ)
    (order : Order) (s : σ) :
    let ended := (desk.carryOut order).run (world.withFiles files) s
    (∀ refusal, desk.fleet.firstLack? files order = some refusal →
      ended.1.1.abortedAt? = some refusal ∧ ended.1.2 = desk ∧
        Only Request.IsLoad ((desk.carryOut order).log (world.withFiles files) s)) ∧
    (desk.fleet.firstLack? files order = none → ¬ ended.1.1.Refused) := by
  intro ended
  have hyields := Program.yields_log (world.withFiles files) (desk.carryOut order) s
  obtain ⟨hprogram, hkept⟩ := carryOut_cases hyields
  have hanswers := Fleet.program_answers (world.withFiles_readsFrom files _ s) hprogram
  constructor
  · intro refusal hrefusal
    rw [hrefusal] at hanswers
    obtain ⟨haborted, hnone, hloads⟩ := hanswers
    refine ⟨haborted, ?_, hloads⟩
    obtain ⟨-, hlater⟩ | ⟨-, hlater⟩ := hkept
    · rw [hlater, keep, hnone]
      rfl
    · exact hlater
  · intro hrefusal
    rw [hrefusal] at hanswers
    exact hanswers

/-- A token that is no part of any name, among two that are. -/
example : Fleet.pair.firstLack? (fun _ => .error "no such file")
    (.stop ["stake", "mm", "10.0.0.2"]) = some ("select", .hostNotFound) := by decide +kernel

end Desk

end NodeFleet
