import NodeFleet.Config.Source
import NodeFleet.Proofs.DescribedParts

/-!
# NodeFleet.Proofs.Descriptions — a description follows from what its text gives

A text gives some of the fields of a description, in some order and under some of their names.  The
fields that it gives are those of the description that is read; the fields that it does not give are
those of a fleet of one host, of the standard waits or of the standard pace, whatever else it gives;
order and names make no difference; and nothing can be given under two names.

* `Config.toValue_inj`, `Config.eq_of_field?`: no two descriptions are written alike.
* `Config.IsReadFrom`: a description, field by field, as it is read.
* `Config.AgreesWith`: the fields that a value gives have the values that it gives them.
* `Config.FilledIn`: the fields that a table does not give have their usual values.
* `Config.Rewritten`: a table written differently, at any depth.
* `Config.GivesTwice`: a field given under two names, by the description or by one of its hosts.
* `Config.Follows`, `Config.ofText_follows`: what a text gives, and what is read from it.
-/

namespace NodeFleet

/-! ## What is written tells what is meant -/

theorem Config.toValue_inj {a b : Config} : a.toValue = b.toValue ↔ a = b := by
  refine ⟨fun h => ?_, congrArg _⟩
  cases a; cases b
  simp only [toValue, Value.table.injEq, List.cons.injEq, Prod.mk.injEq, true_and, and_true,
    Value.text.injEq, Value.orNull_text_inj, Value.orNull_count_inj, HostEntry.toValue_inj,
    Value.list.injEq, List.map_inj_right fun _ _ => HostEntry.toValue_inj.mp, Network.toText_inj,
    Value.real.injEq, Value.texts_inj, Timing.toValue_inj] at h
  simp only [h]

/-- Descriptions that agree in every field are the same. -/
theorem Config.eq_of_field? {a b : Config}
    (h : ∀ f ∈ fieldNames, a.toValue.field? f.name = b.toValue.field? f.name) : a = b := by
  apply toValue_inj.mp
  simp only [fieldNames, FieldName.plain, List.forall_mem_cons, Value.field?, toValue,
    List.lookup_cons, String.reduceBEq, Option.some.injEq] at h
  simp only [toValue, h]

/-! ## Descriptions -/

namespace Config

variable {d : Dialect} {v w : Value} {fields inner : List (String × Value)} {f : FieldName}
  {config : Config}

theorem fieldNames_distinct : Record.Distinct fieldNames := by decide

/-- The lists of hosts. -/
def hostLists : List FieldName :=
  [.plain "masternodes", ⟨"staking_nodes", ["stakingnodes"]⟩, .plain "wallets"]

theorem hostLists_subset : hostLists ⊆ fieldNames := by simp [hostLists, fieldNames]

/-- A description written differently, also one in which a host or the waits are. -/
def Rewritten : Value → Value → Prop :=
  Record.Rewritten fieldNames fun name v w =>
    name = "main" ∧ HostEntry.Rewritten v w ∨
      name ∈ hostLists.map FieldName.name ∧ HostEntry.ListRewritten v w ∨
      name = "timing" ∧ Timing.Rewritten v w

theorem read?_rewritten (d : Dialect) (h : Rewritten v w) : read? d v = read? d w := by
  refine Record.bind_fields?_eq fieldNames_distinct h fun fs gs halike => ?_
  -- three kinds of fields may be written anew within, and all others are the same values
  have hmain : fs.required "main" (HostEntry.read? d) = gs.required "main" (HostEntry.read? d) := by
    refine halike.required_eq fun v w h => ?_
    rcases h with ⟨-, h⟩ | ⟨hname, -⟩ | ⟨hname, -⟩
    · exact HostEntry.read?_rewritten d h
    · exact absurd hname (by decide)
    · exact absurd hname (by decide)
  have hhosts : ∀ name ∈ hostLists.map FieldName.name, ∀ default,
      fs.orElse name (Value.asList (HostEntry.read? d)) default =
        gs.orElse name (Value.asList (HostEntry.read? d)) default := by
    refine fun name hname default => halike.orElse_eq (fun v w h => ?_) default
    rcases h with ⟨rfl, -⟩ | ⟨-, h⟩ | ⟨rfl, -⟩
    · exact absurd hname (by decide)
    · exact HostEntry.asList_rewritten d h
    · exact absurd hname (by decide)
  have htiming : fs.orElse "timing" (Timing.read? d) .standard =
      gs.orElse "timing" (Timing.read? d) .standard := by
    refine halike.orElse_eq (fun v w h => ?_) _
    rcases h with ⟨hname, -⟩ | ⟨hname, -⟩ | ⟨-, h⟩
    · exact absurd hname (by decide)
    · exact absurd hname (by decide)
    · exact Timing.read?_rewritten d h
  have hother : ∀ name, name ∉ "main" :: "timing" :: hostLists.map FieldName.name →
      ∀ {α : Type} (read : Reader α) (default : α),
        fs.orElse name read default = gs.orElse name read default := by
    refine fun name hname α read default => halike.orElse_eq (fun v w h => ?_) default
    rcases h with ⟨rfl, -⟩ | ⟨hmem, -⟩ | ⟨rfl, -⟩ <;> simp_all
  simp (disch := decide) only [Fields.optional, hmain, hhosts, htiming, hother]

theorem read?_eqvGen (d : Dialect) (h : Relation.EqvGen Rewritten v w) :
    read? d v = read? d w := by
  induction h with
  | rel _ _ h => exact read?_rewritten d h
  | refl => rfl
  | symm _ _ _ ih => exact ih.symm
  | trans _ _ _ _ _ ih ih' => exact ih.trans ih'

/-- The description has what the fields give, and a usual value where they give nothing. -/
structure IsReadFrom (d : Dialect) (fs : Fields) (config : Config) : Prop where
  main : fs.required "main" (HostEntry.read? d) = some config.main
  username : fs.orElse "username" Value.asText "root" = some config.username
  password : fs.optional "password" Value.asText = some config.password?
  keyFile : fs.optional "public_key_file" Value.asText = some config.keyFile?
  keyVariable : fs.optional "key_env" Value.asText = some config.keyVariable?
  port : fs.optional "port" asPort = some config.port?
  masternodes : fs.orElse "masternodes" (Value.asList (HostEntry.read? d)) [] =
    some config.masternodes
  stakingNodes : fs.orElse "staking_nodes" (Value.asList (HostEntry.read? d)) [] =
    some config.stakingNodes
  wallets : fs.orElse "wallets" (Value.asList (HostEntry.read? d)) [] = some config.wallets
  network : fs.orElse "network" (Value.asChoice d Network.choices) .mainnet = some config.network
  collateral : fs.orElse "collateral_amount" Value.asAmount (.ofNat 1000000) =
    some config.collateral
  masternodeAlias : fs.orElse "masternode_alias" Value.asText "mn1" = some config.masternodeAlias
  controlWallet : fs.optional "control_wallet" Value.asText = some config.controlWallet?
  cliBinary : fs.orElse "cli_binary" Value.asText "dapscoin-cli" = some config.cliBinary
  daemonBinary : fs.orElse "daemon_binary" Value.asText "dapscoind" = some config.daemonBinary
  serverOption : fs.orElse "server_option" Value.asText "" = some config.serverOption
  dataDir : fs.orElse "data_dir" Value.asText "~/.dapscoin" = some config.dataDir
  confFile : fs.orElse "conf_file" Value.asText "dapscoin.conf" = some config.confFile
  baseLines : fs.orElse "base_config" (Value.asList Value.asText)
    ["daemon=1", "server=1", "listen=1"] = some config.baseLines
  mainServices : fs.orElse "main_services" (Value.asList Value.asText) ["mongo", "node"] =
    some config.mainServices
  rebootCommand : fs.orElse "reboot_command" Value.asText "sudo reboot" = some config.rebootCommand
  binaries : fs.orElse "binaries" (Value.asList Value.asText) ["dapscoind", "dapscoin-cli"] =
    some config.binaries
  installDir : fs.orElse "install_dir" Value.asText "/usr/local/bin" = some config.installDir
  project : fs.optional "project" Value.asText = some config.project?
  zone : fs.optional "zone" Value.asText = some config.zone?
  terminal : fs.orElse "terminal" (Value.asList Value.asText) ["xterm", "-e"] =
    some config.terminal
  timing : fs.orElse "timing" (Timing.read? d) .standard = some config.timing
  logLevel : fs.orElse "log_level" Value.asText "info" = some config.logLevel

theorem exists_isReadFrom (h : read? d v = some config) :
    ∃ fs, Record.fields? d fieldNames v = some fs ∧ config.IsReadFrom d fs := by
  -- `read?` takes one field after the other
  obtain ⟨fs, hfs, h⟩ := Option.bind_eq_some_iff.mp h
  obtain ⟨main, hmain, h⟩ := Option.bind_eq_some_iff.mp h
  obtain ⟨username, husername, h⟩ := Option.bind_eq_some_iff.mp h
  obtain ⟨password, hpassword, h⟩ := Option.bind_eq_some_iff.mp h
  obtain ⟨keyFile, hkeyFile, h⟩ := Option.bind_eq_some_iff.mp h
  obtain ⟨keyVariable, hkeyVariable, h⟩ := Option.bind_eq_some_iff.mp h
  obtain ⟨port, hport, h⟩ := Option.bind_eq_some_iff.mp h
  obtain ⟨masternodes, hmasternodes, h⟩ := Option.bind_eq_some_iff.mp h
  obtain ⟨stakingNodes, hstakingNodes, h⟩ := Option.bind_eq_some_iff.mp h
  obtain ⟨wallets, hwallets, h⟩ := Option.bind_eq_some_iff.mp h
  obtain ⟨network, hnetwork, h⟩ := Option.bind_eq_some_iff.mp h
  obtain ⟨collateral, hcollateral, h⟩ := Option.bind_eq_some_iff.mp h
  obtain ⟨masternodeAlias, hmasternodeAlias, h⟩ := Option.bind_eq_some_iff.mp h
  obtain ⟨controlWallet, hcontrolWallet, h⟩ := Option.bind_eq_some_iff.mp h
  obtain ⟨cliBinary, hcliBinary, h⟩ := Option.bind_eq_some_iff.mp h
  obtain ⟨daemonBinary, hdaemonBinary, h⟩ := Option.bind_eq_some_iff.mp h
  obtain ⟨serverOption, hserverOption, h⟩ := Option.bind_eq_some_iff.mp h
  obtain ⟨dataDir, hdataDir, h⟩ := Option.bind_eq_some_iff.mp h
  obtain ⟨confFile, hconfFile, h⟩ := Option.bind_eq_some_iff.mp h
  obtain ⟨baseLines, hbaseLines, h⟩ := Option.bind_eq_some_iff.mp h
  obtain ⟨mainServices, hmainServices, h⟩ := Option.bind_eq_some_iff.mp h
  obtain ⟨rebootCommand, hrebootCommand, h⟩ := Option.bind_eq_some_iff.mp h
  obtain ⟨binaries, hbinaries, h⟩ := Option.bind_eq_some_iff.mp h
  obtain ⟨installDir, hinstallDir, h⟩ := Option.bind_eq_some_iff.mp h
  obtain ⟨project, hproject, h⟩ := Option.bind_eq_some_iff.mp h
  obtain ⟨zone, hzone, h⟩ := Option.bind_eq_some_iff.mp h
  obtain ⟨terminal, hterminal, h⟩ := Option.bind_eq_some_iff.mp h
  obtain ⟨timing, htiming, h⟩ := Option.bind_eq_some_iff.mp h
  obtain ⟨logLevel, hlogLevel, h⟩ := Option.bind_eq_some_iff.mp h
  cases h
  exact ⟨fs, hfs, hmain, husername, hpassword, hkeyFile, hkeyVariable, hport, hmasternodes,
    hstakingNodes, hwallets, hnetwork, hcollateral, hmasternodeAlias, hcontrolWallet, hcliBinary,
    hdaemonBinary, hserverOption, hdataDir, hconfFile, hbaseLines, hmainServices, hrebootCommand,
    hbinaries, hinstallDir, hproject, hzone, hterminal, htiming, hlogLevel⟩

theorem read?_default (h : read? d (.table fields) = some config) (hf : f ∈ fieldNames)
    (hmissing : f.IsMissing fields) (host : HostEntry) :
    config.toValue.field? f.name = (ofMain host).toValue.field? f.name := by
  obtain ⟨fs, hfs, hread⟩ := exists_isReadFrom h
  have hnone := Record.lookup_eq_none fieldNames_distinct hfs hf hmissing
  simp only [fieldNames, List.mem_cons, List.not_mem_nil, or_false] at hf
  -- field by field: where the name is missing, what `read?` puts in is what `ofMain` has
  rcases hf with rfl | rfl | rfl | rfl | rfl | rfl | rfl | rfl | rfl | rfl | rfl | rfl | rfl | rfl |
    rfl | rfl | rfl | rfl | rfl | rfl | rfl | rfl | rfl | rfl | rfl | rfl | rfl | rfl
  all_goals simp only [FieldName.plain, Value.field?, toValue, List.lookup_cons, String.reduceBEq]
  · rw [Fields.eq_default hnone hread.username]; rfl
  · rw [Fields.eq_default hnone hread.password]; rfl
  · rw [Fields.eq_default hnone hread.keyFile]; rfl
  · rw [Fields.eq_default hnone hread.keyVariable]; rfl
  · rw [Fields.eq_default hnone hread.port]; rfl
  · have hmain := hread.main
    rw [Fields.required, show fs.lookup "main" = none from hnone] at hmain
    cases hmain
  · rw [Fields.eq_default hnone hread.masternodes]; rfl
  · rw [Fields.eq_default hnone hread.stakingNodes]; rfl
  · rw [Fields.eq_default hnone hread.wallets]; rfl
  · rw [Fields.eq_default hnone hread.network]; rfl
  · rw [Fields.eq_default hnone hread.collateral, ofMain]
  · rw [Fields.eq_default hnone hread.masternodeAlias]; rfl
  · rw [Fields.eq_default hnone hread.controlWallet]; rfl
  · rw [Fields.eq_default hnone hread.cliBinary]; rfl
  · rw [Fields.eq_default hnone hread.daemonBinary]; rfl
  · rw [Fields.eq_default hnone hread.serverOption]; rfl
  · rw [Fields.eq_default hnone hread.dataDir]; rfl
  · rw [Fields.eq_default hnone hread.confFile]; rfl
  · rw [Fields.eq_default hnone hread.baseLines]; rfl
  · rw [Fields.eq_default hnone hread.mainServices]; rfl
  · rw [Fields.eq_default hnone hread.rebootCommand]; rfl
  · rw [Fields.eq_default hnone hread.binaries]; rfl
  · rw [Fields.eq_default hnone hread.installDir]; rfl
  · rw [Fields.eq_default hnone hread.project]; rfl
  · rw [Fields.eq_default hnone hread.zone]; rfl
  · rw [Fields.eq_default hnone hread.terminal]; rfl
  · rw [Fields.eq_default hnone hread.timing]; rfl
  · rw [Fields.eq_default hnone hread.logLevel]; rfl

/-! ### What a value gives -/

/-- The fields of a description that are not a text, a count or a list of texts. -/
def innerFields : List String :=
  ["main", "masternodes", "staking_nodes", "wallets", "network", "collateral_amount", "timing"]

/-- The description has what the value gives.  A network may be given as a table of one field, and a
sum as a whole number. -/
structure AgreesWith (d : Dialect) (config : Config) (v : Value) : Prop where
  own : ∀ f ∈ fieldNames, f.name ∉ innerFields → ∀ w, f.IsGiven fieldNames w v →
    config.toValue.field? f.name = some w
  main : ∀ w, (FieldName.plain "main").IsGiven fieldNames w v → config.main.AgreesWith w
  masternodes : ∀ w, (FieldName.plain "masternodes").IsGiven fieldNames w v →
    HostEntry.AllAgreeWith config.masternodes w
  stakingNodes : ∀ w, (FieldName.mk "staking_nodes" ["stakingnodes"]).IsGiven fieldNames w v →
    HostEntry.AllAgreeWith config.stakingNodes w
  wallets : ∀ w, (FieldName.plain "wallets").IsGiven fieldNames w v →
    HostEntry.AllAgreeWith config.wallets w
  network : ∀ w, (FieldName.plain "network").IsGiven fieldNames w v →
    w = .text config.network.toText ∨
      ∃ unit, d.isUnit unit = true ∧ w = .table [(config.network.toText, unit)]
  collateral : ∀ w, (FieldName.mk "collateral_amount" ["coinamount"]).IsGiven fieldNames w v →
    w = .real config.collateral ∨ ∃ n : Int, w = .whole n ∧ config.collateral = .ofInt n
  timing : ∀ w, (FieldName.plain "timing").IsGiven fieldNames w v → config.timing.AgreesWith w

theorem lookup_choices {name : String} {network : Network}
    (h : Network.choices.lookup name = some network) : name = network.toText := by
  simp only [Network.choices, List.lookup_cons, List.lookup_nil] at h
  split at h
  · cases h
    exact beq_iff_eq.mp ‹_›
  · split at h
    · cases h
      exact beq_iff_eq.mp ‹_›
    · cases h

theorem asChoice_agrees {network : Network}
    (h : Value.asChoice d Network.choices v = some network) :
    v = .text network.toText ∨
      ∃ unit, d.isUnit unit = true ∧ v = .table [(network.toText, unit)] := by
  unfold Value.asChoice at h
  split at h
  · exact .inl (congrArg Value.text (lookup_choices h))
  · split at h
    · rename_i unit hunit
      exact .inr ⟨unit, hunit, by rw [lookup_choices h]⟩
    · cases h
  · cases h

theorem asAmount_agrees {a : Amount} (h : Value.asAmount v = some a) :
    v = .real a ∨ ∃ n : Int, v = .whole n ∧ a = .ofInt n := by
  cases v with
  | whole n =>
    rw [Value.asAmount] at h
    split at h
    · exact .inr ⟨n, rfl, (Option.some.inj h).symm⟩
    · cases h
  | real b => exact .inl (congrArg Value.real (Option.some.inj h))
  | _ => cases h

theorem read?_agrees (h : read? d v = some config) : config.AgreesWith d v := by
  obtain ⟨fs, hfs, hread⟩ := exists_isReadFrom h
  have hlookup : ∀ f ∈ fieldNames, ∀ w, f.IsGiven fieldNames w v → fs.lookup f.name = some w :=
    fun f hf w hgiven => hgiven.lookup_eq fieldNames_distinct hfs hf
  constructor
  case own =>
    intro f hf hown w hgiven
    have hlookup := hlookup f hf w hgiven
    have htext := Value.asText_inverts
    have htexts := htext.asList
    simp only [fieldNames, List.mem_cons, List.not_mem_nil, or_false] at hf
    -- along the names; the inner fields have their cases below
    rcases hf with rfl | rfl | rfl | rfl | rfl | rfl | rfl | rfl | rfl | rfl | rfl | rfl | rfl |
      rfl | rfl | rfl | rfl | rfl | rfl | rfl | rfl | rfl | rfl | rfl | rfl | rfl | rfl | rfl
    · exact Fields.written_orElse htext hlookup hread.username
    · exact Fields.written_orElse htext.nullable hlookup hread.password
    · exact Fields.written_orElse htext.nullable hlookup hread.keyFile
    · exact Fields.written_orElse htext.nullable hlookup hread.keyVariable
    · exact Fields.written_orElse (Value.asBelow_inverts _).nullable hlookup hread.port
    · exact absurd (by decide) hown
    · exact absurd (by decide) hown
    · exact absurd (by decide) hown
    · exact absurd (by decide) hown
    · exact absurd (by decide) hown
    · exact absurd (by decide) hown
    · exact Fields.written_orElse htext hlookup hread.masternodeAlias
    · exact Fields.written_orElse htext.nullable hlookup hread.controlWallet
    · exact Fields.written_orElse htext hlookup hread.cliBinary
    · exact Fields.written_orElse htext hlookup hread.daemonBinary
    · exact Fields.written_orElse htext hlookup hread.serverOption
    · exact Fields.written_orElse htext hlookup hread.dataDir
    · exact Fields.written_orElse htext hlookup hread.confFile
    · exact Fields.written_orElse htexts hlookup hread.baseLines
    · exact Fields.written_orElse htexts hlookup hread.mainServices
    · exact Fields.written_orElse htext hlookup hread.rebootCommand
    · exact Fields.written_orElse htexts hlookup hread.binaries
    · exact Fields.written_orElse htext hlookup hread.installDir
    · exact Fields.written_orElse htext.nullable hlookup hread.project
    · exact Fields.written_orElse htext.nullable hlookup hread.zone
    · exact Fields.written_orElse htexts hlookup hread.terminal
    · exact absurd (by decide) hown
    · exact Fields.written_orElse htext hlookup hread.logLevel
  case main =>
    intro w hgiven
    have hlookup := hlookup _ (by simp [fieldNames]) w hgiven
    exact HostEntry.read?_agrees (Fields.read_eq_of_required hlookup hread.main)
  case masternodes =>
    intro w hgiven
    have hlookup := hlookup _ (by simp [fieldNames]) w hgiven
    exact HostEntry.asList_agrees (Fields.read_eq_of_orElse hlookup hread.masternodes)
  case stakingNodes =>
    intro w hgiven
    have hlookup := hlookup _ (by simp [fieldNames]) w hgiven
    exact HostEntry.asList_agrees (Fields.read_eq_of_orElse hlookup hread.stakingNodes)
  case wallets =>
    intro w hgiven
    have hlookup := hlookup _ (by simp [fieldNames]) w hgiven
    exact HostEntry.asList_agrees (Fields.read_eq_of_orElse hlookup hread.wallets)
  case network =>
    intro w hgiven
    have hlookup := hlookup _ (by simp [fieldNames]) w hgiven
    exact asChoice_agrees (Fields.read_eq_of_orElse hlookup hread.network)
  case collateral =>
    intro w hgiven
    have hlookup := hlookup _ (by simp [fieldNames]) w hgiven
    exact asAmount_agrees (Fields.read_eq_of_orElse hlookup hread.collateral)
  case timing =>
    intro w hgiven
    have hlookup := hlookup _ (by simp [fieldNames]) w hgiven
    exact Timing.read?_agrees (Fields.read_eq_of_orElse hlookup hread.timing)

theorem IsReadFrom.hosts {fs : Fields} (h : config.IsReadFrom d fs) (hf : f ∈ hostLists) :
    ∃ hosts, fs.orElse f.name (Value.asList (HostEntry.read? d)) [] = some hosts := by
  simp only [hostLists, List.mem_cons, List.not_mem_nil, or_false] at hf
  rcases hf with rfl | rfl | rfl
  · exact ⟨_, h.masternodes⟩
  · exact ⟨_, h.stakingNodes⟩
  · exact ⟨_, h.wallets⟩

theorem read?_timing (h : read? d (.table fields) = some config)
    (hholds : (FieldName.plain "timing").Holds fields inner) :
    Timing.read? d (.table inner) = some config.timing := by
  obtain ⟨fs, hfs, hread⟩ := exists_isReadFrom h
  exact hholds.read_eq fieldNames_distinct hfs (by simp [fieldNames]) rfl hread.timing

/-- What a table does not give is as in a fleet of any one host, in the standard waits and in the
standard pace.  Fields are compared as they are written; a table that gives the main host alone
gives the fleet of that host. -/
structure FilledIn (fields : List (String × Value)) (config : Config) : Prop where
  own : ∀ f ∈ fieldNames, f.IsMissing fields →
    ∀ host, config.toValue.field? f.name = (ofMain host).toValue.field? f.name
  bare : (∀ f ∈ fieldNames, f.name ≠ "main" → f.IsMissing fields) → config = ofMain config.main
  waits : ∀ waits, (FieldName.plain "timing").Holds fields waits →
    ∀ f ∈ Timing.fieldNames, f.IsMissing waits →
      config.timing.toValue.field? f.name = Timing.standard.toValue.field? f.name
  pace : ∀ waits, (FieldName.plain "timing").Holds fields waits →
    ∀ pace, (FieldName.plain "poll").Holds waits pace →
      ∀ f ∈ PollSettings.fieldNames, f.IsMissing pace →
        config.timing.poll.toValue.field? f.name = PollSettings.standard.toValue.field? f.name

theorem read?_filledIn (h : read? d (.table fields) = some config) : config.FilledIn fields where
  own _ hf hmissing host := read?_default h hf hmissing host
  bare hmissing := by
    refine eq_of_field? fun f hf => ?_
    by_cases hmain : f.name = "main"
    · rw [hmain]
      rfl
    · exact read?_default h hf (hmissing f hf hmain) config.main
  waits _ hwaits _ hf hmissing := Timing.read?_default (read?_timing h hwaits) hf hmissing
  pace _ hwaits _ hpace _ hf hmissing :=
    PollSettings.read?_default (Timing.read?_poll (read?_timing h hwaits) hpace) hf hmissing

/-- A field is given under two names: one of the description, of its main host, or of a host in one
of its lists. -/
inductive GivesTwice (fields : List (String × Value)) : Prop
  | own (h : Record.HasTwoSpellings fieldNames fields)
  | main {host : List (String × Value)} (hhost : ("main", .table host) ∈ fields)
      (h : Record.HasTwoSpellings HostEntry.fieldNames host)
  | listed {f : FieldName} (hf : f ∈ hostLists) {key : String} (hkey : key ∈ f.spellings)
      {items : List Value} (hitems : (key, .list items) ∈ fields)
      {host : List (String × Value)} (hhost : .table host ∈ items)
      (h : Record.HasTwoSpellings HostEntry.fieldNames host)

theorem read?_eq_none (d : Dialect) (h : GivesTwice fields) : read? d (.table fields) = none := by
  rw [Option.eq_none_iff_forall_ne_some]
  intro config hconfig
  obtain ⟨fs, hfs, hread⟩ := exists_isReadFrom hconfig
  -- given twice among the fields themselves, within `main`, or within a host of a list
  cases h with
  | own h =>
    rw [Record.fields?_eq_none d fieldNames_distinct h] at hfs
    cases hfs
  | main hhost h =>
    have hname : FieldName.plain "main" ∈ fieldNames := by simp [fieldNames]
    have hlookup := Record.lookup_eq_some fieldNames_distinct hfs hname List.mem_cons_self hhost
    have hmain := hread.main
    rw [Fields.required, show fs.lookup "main" = _ from hlookup, Option.bind_some,
      HostEntry.read?_eq_none d h] at hmain
    cases hmain
  | listed hf hkey hitems hhost h =>
    obtain ⟨hosts, hhosts⟩ := hread.hosts hf
    have hlookup := Record.lookup_eq_some fieldNames_distinct hfs (hostLists_subset hf) hkey hitems
    rw [Fields.orElse, hlookup] at hhosts
    obtain ⟨host, hread⟩ := Value.exists_read_of_mem hhosts hhost
    rw [HostEntry.read?_eq_none d h] at hread
    cases hread

/-! ## Descriptions in a text -/

theorem ofText_json (text : String) :
    ofText .json text =
      match (Json.parse? text).bind (read? Json.dialect) with
      | none => .error .malformed
      | some config =>
        match config.validate with
        | .ok _ => .ok config
        | .error e => .error (.faulty e) := rfl

theorem ofText_eq_ok {text : String} (h : ofText .json text = .ok config) :
    (Json.parse? text).bind (read? Json.dialect) = some config ∧ config.validate = .ok () := by
  rw [ofText_json] at h
  split at h
  · cases h
  · rename_i hread
    split at h
    · rename_i hvalid
      cases h
      exact ⟨hread, hvalid⟩
    · cases h

/-- What the text gives, and what is read from it: a description without a fault, in which all that
is given is as it is given and all that is not given is as usual; the same, or the same error, from
every text that gives the same in another order or under other names; and none when a field is given
under two names. -/
structure Follows (text : String) : Prop where
  valid : ∀ config, ofText .json text = .ok config → config.validate = .ok ()
  given : ∀ v config, Json.parse? text = some v → ofText .json text = .ok config →
    config.AgreesWith Json.dialect v
  filledIn : ∀ fields config, Json.parse? text = some (.table fields) →
    ofText .json text = .ok config → config.FilledIn fields
  rewritten : ∀ other v w, Json.parse? text = some v → Json.parse? other = some w →
    Relation.EqvGen Rewritten v w → ofText .json other = ofText .json text
  twice : ∀ fields, Json.parse? text = some (.table fields) → GivesTwice fields →
    ofText .json text = .error .malformed

theorem ofText_follows (text : String) : Follows text where
  valid _ h := (ofText_eq_ok h).2
  given v config hparse h := by
    have hread := (ofText_eq_ok h).1
    rw [hparse, Option.bind_some] at hread
    exact read?_agrees hread
  filledIn fields config hparse h := by
    have hread := (ofText_eq_ok h).1
    rw [hparse, Option.bind_some] at hread
    exact read?_filledIn hread
  rewritten other v w hv hw h := by
    rw [ofText_json, ofText_json, hv, hw, Option.bind_some, Option.bind_some,
      read?_eqvGen Json.dialect h]
  twice fields hparse h := by
    rw [ofText_json, hparse, Option.bind_some, read?_eq_none Json.dialect h]

/-- An alias under its older name, and a pace that is given in part. -/
example : (ofText .json
      "\x7b\"alias\": \"b\", \"timing\": \x7b\"poll\": \x7b\"max_attempts\": 9\x7d\x7d,
        \"main\": \x7b\"name\": \"m\", \"address\": \"a\"\x7d\x7d").toOption =
    some { ofMain (.plain "m" "a") with
      masternodeAlias := "b"
      timing := { Timing.standard with poll := ⟨30, some 9, some 21600⟩ } } := by
  decide +kernel

end Config

end NodeFleet
