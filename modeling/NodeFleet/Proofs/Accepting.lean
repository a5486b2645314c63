import Mathlib.Data.List.Forall2
import NodeFleet.Proofs.Namesakes

/-!
# NodeFleet.Proofs.Accepting — which descriptions make a roster, and what they make

A roster is made of a description that is sound, and in which every listed host has a credential, of
its own or shared.  Every listed host becomes one entry, in the order of the list and under its
role, and how it authenticates is decided by what it has itself before anything that is shared.

* `Config.IsSound`: the conditions on a description, spelled out.  `Config.fault?_eq_none`: they are
  what is checked.
* `HostEntry.Authenticates`: the credential of a listed host, one constructor a source.
  `credential?_eq_some`: it is the one that is looked up.
* `Config.roledEntries`, `ofConfig_entries`: the roster as one map over all that is listed.
* `Roster.Registers`: what a roster has of its description.
* `Roster.ofConfig_accepts`: all of it, for every description.
-/

namespace NodeFleet

/-! ## Maps that may fail -/

section Results

variable {α β ε : Type} {f : α → Except ε β} {xs : List α}

/-- A map fails as it does at the first element at which it fails. -/
theorem mapM_eq_error_iff {e : ε} :
    xs.mapM f = .error e ↔ ∃ before x after, xs = before ++ x :: after ∧
      (∀ b ∈ before, ∃ y, f b = .ok y) ∧ f x = .error e := by
  -- the first failure is at the head of the list, or the head succeeds and it lies in the rest
  induction xs with
  | nil =>
    refine iff_of_false nofun ?_
    rintro ⟨before, x, after, h, -⟩
    exact List.append_ne_nil_of_right_ne_nil _ (List.cons_ne_nil _ _) h.symm
  | cons x xs ih =>
    rw [List.mapM_cons]
    cases hx : f x with
    | error e' =>
      constructor
      · intro h
        cases h
        exact ⟨[], x, xs, rfl, List.forall_mem_nil _, hx⟩
      · rintro ⟨_ | ⟨b, before⟩, y, after, hsplit, hbefore, hy⟩
        · cases hsplit
          cases hx.symm.trans hy
          rfl
        · cases hsplit
          obtain ⟨y, hy⟩ := hbefore x List.mem_cons_self
          cases hx.symm.trans hy
    | ok y =>
      have hrest : (do
          let rest ← xs.mapM f
          pure (y :: rest) : Except ε (List β)) = .error e ↔ xs.mapM f = .error e := by
        cases xs.mapM f with
        | ok rest => exact iff_of_false nofun nofun
        | error e' => exact Iff.rfl
      refine hrest.trans (ih.trans ⟨?_, ?_⟩)
      · rintro ⟨before, z, after, rfl, hbefore, hz⟩
        exact ⟨x :: before, z, after, rfl, List.forall_mem_cons.mpr ⟨⟨y, hx⟩, hbefore⟩, hz⟩
      · rintro ⟨_ | ⟨b, before⟩, z, after, hsplit, hbefore, hz⟩
        · cases hsplit
          cases hx.symm.trans hz
        · cases hsplit
          exact ⟨before, z, after, rfl, (List.forall_mem_cons.mp hbefore).2, hz⟩

end Results

/-! ## Credentials -/

/-- The setting has this value, which is more than blanks. -/
def IsGiven (setting? : Option String) (value : String) : Prop :=
  setting? = some value ∧ Text.isBlankText value = false

theorem notBlank?_eq_some {setting? : Option String} {value : String} :
    notBlank? setting? = some value ↔ IsGiven setting? value := by
  unfold notBlank? IsGiven
  rw [Option.filter_eq_some_iff, Bool.not_eq_true']

theorem notBlank?_eq_none {setting? : Option String} :
    notBlank? setting? = none ↔ ∀ value, ¬ IsGiven setting? value := by
  rw [Option.eq_none_iff_forall_ne_some]
  exact forall_congr' fun value => not_congr notBlank?_eq_some

namespace HostEntry

variable (config : Config) (entry : HostEntry)

/-- The host has a key file or a password of its own. -/
def HasOwnCredential : Prop :=
  (∃ path, IsGiven entry.keyFile? path) ∨ ∃ word, entry.password? = some word

/-- There is a credential for the host, its own or a shared one. -/
def HasCredential : Prop :=
  entry.HasOwnCredential ∨ (∃ path, IsGiven config.keyFile? path) ∨
    (∃ name, IsGiven config.keyVariable? name) ∨ ∃ word, config.password? = some word

/-- How the host authenticates: by its own key file before its own password, and without either by
the shared key file before the shared variable before the shared password. -/
inductive Authenticates : Credential → Prop
  | ownKey {path : String} (h : IsGiven entry.keyFile? path) : Authenticates (.keyFile path)
  | ownPassword {word : String} (hkey : ∀ path, ¬ IsGiven entry.keyFile? path)
    (h : entry.password? = some word) : Authenticates (.password word)
  | sharedKey {path : String} (hown : ¬ entry.HasOwnCredential)
    (h : IsGiven config.keyFile? path) : Authenticates (.keyFile path)
  | keyVariable {name : String} (hown : ¬ entry.HasOwnCredential)
    (hkey : ∀ path, ¬ IsGiven config.keyFile? path)
    (h : IsGiven config.keyVariable? name) : Authenticates (.keyVariable name)
  | sharedPassword {word : String} (hown : ¬ entry.HasOwnCredential)
    (hkey : ∀ path, ¬ IsGiven config.keyFile? path)
    (hvariable : ∀ name, ¬ IsGiven config.keyVariable? name)
    (h : config.password? = some word) : Authenticates (.password word)

variable {config entry} {c : Credential}

theorem lacks_own (h : ¬ entry.HasOwnCredential) :
    notBlank? entry.keyFile? = none ∧ entry.password? = none := by
  obtain ⟨hkey, hpassword⟩ := not_or.mp h
  exact ⟨notBlank?_eq_none.mpr (not_exists.mp hkey),
    Option.eq_none_iff_forall_ne_some.mpr (not_exists.mp hpassword)⟩

theorem Authenticates.looked_up (h : entry.Authenticates config c) :
    entry.credential? config = some c := by
  unfold credential?
  cases h with
  | ownKey h => rw [notBlank?_eq_some.mpr h]; rfl
  | ownPassword hkey h => rw [notBlank?_eq_none.mpr hkey, h]; rfl
  | sharedKey hown h =>
    rw [(lacks_own hown).1, (lacks_own hown).2, notBlank?_eq_some.mpr h]
    rfl
  | keyVariable hown hkey h =>
    rw [(lacks_own hown).1, (lacks_own hown).2, notBlank?_eq_none.mpr hkey,
      notBlank?_eq_some.mpr h]
    rfl
  | sharedPassword hown hkey hvariable h =>
    rw [(lacks_own hown).1, (lacks_own hown).2, notBlank?_eq_none.mpr hkey,
      notBlank?_eq_none.mpr hvariable, h]
    rfl

theorem HasCredential.authenticates (h : entry.HasCredential config) :
    ∃ c, entry.Authenticates config c := by
  by_cases hown : entry.HasOwnCredential
  · by_cases hkey : ∃ path, IsGiven entry.keyFile? path
    · exact ⟨_, .ownKey hkey.choose_spec⟩
    · obtain ⟨word, hword⟩ := hown.resolve_left hkey
      exact ⟨_, .ownPassword (not_exists.mp hkey) hword⟩
  · have hshared := h.resolve_left hown
    by_cases hkey : ∃ path, IsGiven config.keyFile? path
    · exact ⟨_, .sharedKey hown hkey.choose_spec⟩
    · have hother := hshared.resolve_left hkey
      by_cases hvariable : ∃ name, IsGiven config.keyVariable? name
      · exact ⟨_, .keyVariable hown (not_exists.mp hkey) hvariable.choose_spec⟩
      · obtain ⟨word, hword⟩ := hother.resolve_left hvariable
        exact ⟨_, .sharedPassword hown (not_exists.mp hkey) (not_exists.mp hvariable) hword⟩

theorem Authenticates.hasCredential (h : entry.Authenticates config c) :
    entry.HasCredential config := by
  cases h with
  | ownKey h => exact .inl (.inl ⟨_, h⟩)
  | ownPassword _ h => exact .inl (.inr ⟨_, h⟩)
  | sharedKey _ h => exact .inr (.inl ⟨_, h⟩)
  | keyVariable _ _ h => exact .inr (.inr (.inl ⟨_, h⟩))
  | sharedPassword _ _ _ h => exact .inr (.inr (.inr ⟨_, h⟩))

theorem credential?_eq_none : entry.credential? config = none ↔ ¬ entry.HasCredential config := by
  constructor
  · intro hnone hhas
    obtain ⟨c, hc⟩ := hhas.authenticates
    cases hnone.symm.trans hc.looked_up
  · intro hlacks
    obtain ⟨hown, hshared⟩ := not_or.mp hlacks
    obtain ⟨hkey, hother⟩ := not_or.mp hshared
    obtain ⟨hvariable, hpassword⟩ := not_or.mp hother
    unfold credential?
    rw [(lacks_own hown).1, (lacks_own hown).2, notBlank?_eq_none.mpr (not_exists.mp hkey),
      notBlank?_eq_none.mpr (not_exists.mp hvariable),
      Option.eq_none_iff_forall_ne_some.mpr (not_exists.mp hpassword)]
    rfl

/-- The credential that is looked up is the one by which the host authenticates. -/
theorem credential?_eq_some :
    entry.credential? config = some c ↔ entry.Authenticates config c := by
  refine ⟨fun h => ?_, Authenticates.looked_up⟩
  by_cases hhas : entry.HasCredential config
  · obtain ⟨c', hc'⟩ := hhas.authenticates
    cases h.symm.trans hc'.looked_up
    exact hc'
  · cases h.symm.trans (credential?_eq_none.mpr hhas)

/-- What is shared does not matter to a host with a credential of its own. -/
theorem Authenticates.of_own (hown : entry.HasOwnCredential) (other : Config)
    (h : entry.Authenticates config c) : entry.Authenticates other c := by
  cases h with
  | ownKey h => exact .ownKey h
  | ownPassword hkey h => exact .ownPassword hkey h
  | sharedKey hnone | keyVariable hnone | sharedPassword hnone => exact absurd hown hnone

end HostEntry

/-! ## Descriptions without a fault -/

/-- No name is repeated among different names that are none of those before. -/
theorem firstRepeated?_eq_none {seen names : List String} (hnodup : names.Nodup)
    (hnew : ∀ name ∈ names, name ∉ seen) : firstRepeated? seen names = none := by
  induction names generalizing seen with
  | nil => rfl
  | cons name names ih =>
    obtain ⟨hfirst, hrest⟩ := List.nodup_cons.mp hnodup
    obtain ⟨hname, hothers⟩ := List.forall_mem_cons.mp hnew
    unfold firstRepeated?
    rw [if_neg hname]
    refine ih hrest fun other hm hseen => ?_
    obtain rfl | hseen := List.mem_cons.mp hseen
    · exact hfirst hm
    · exact hothers other hm hseen

theorem listFault?_eq_none {role : String} {hosts : List HostEntry} :
    listFault? role hosts = none ↔ (hosts.map HostEntry.name).Nodup := by
  unfold listFault?
  rw [Option.map_eq_none_iff]
  exact ⟨fun h => (Roster.nodup_of_firstRepeated? h).1,
    fun h => firstRepeated?_eq_none h fun _ _ => List.not_mem_nil⟩

theorem HostEntry.fault?_eq_none {entry : HostEntry} : entry.fault? = none ↔
    Text.isBlankText entry.name = false ∧ Text.isBlankText entry.address = false := by
  unfold fault?
  split
  · simp [*]
  · split
    · simp [*]
    · simp [*]

namespace Config

variable {config : Config}

/-- What a description has to be, apart from credentials. -/
structure IsSound (config : Config) : Prop where
  named : ∀ entry ∈ config.hostEntries,
    Text.isBlankText entry.name = false ∧ Text.isBlankText entry.address = false
  masternodes : (config.masternodes.map HostEntry.name).Nodup
  stakingNodes : (config.stakingNodes.map HostEntry.name).Nodup
  wallets : (config.wallets.map HostEntry.name).Nodup
  control : ∀ name, config.controlWallet? = some name →
    ∃ entry ∈ config.hostEntries, entry.name = name
  collateral : ∃ units, config.collateral = .finite false units ∧ 0 < units
  masternodeAlias : config.masternodeAlias ≠ "" ∧
    ∀ c ∈ config.masternodeAlias.toList, Text.isBlank c = false

theorem controlFault?_eq_none : config.controlFault? = none ↔
    ∀ name, config.controlWallet? = some name →
      ∃ entry ∈ config.hostEntries, entry.name = name := by
  unfold controlFault?
  cases config.controlWallet? with
  | none => simp
  | some control => simp

theorem collateralFault?_eq_none : config.collateralFault? = none ↔
    ∃ units, config.collateral = .finite false units ∧ 0 < units := by
  rw [← Amount.isPositive_iff]
  unfold collateralFault?
  split
  · simp [*]
  · simp [*]

theorem aliasFault?_eq_none : config.aliasFault? = none ↔
    config.masternodeAlias ≠ "" ∧
      ∀ c ∈ config.masternodeAlias.toList, Text.isBlank c = false := by
  unfold aliasFault?
  simp

/-- What is checked of a description is that it is sound. -/
theorem fault?_eq_none : config.fault? = none ↔ config.IsSound := by
  simp only [fault?, Option.orElse_eq_orElse, Option.orElse_eq_or, Option.or_eq_none_iff,
    List.findSome?_eq_none_iff, HostEntry.fault?_eq_none, listFault?_eq_none,
    controlFault?_eq_none, collateralFault?_eq_none, aliasFault?_eq_none]
  constructor
  · rintro ⟨hnamed, hmasternodes, hstaking, hwallets, hcontrol, hcollateral, halias⟩
    exact ⟨hnamed, hmasternodes, hstaking, hwallets, hcontrol, hcollateral, halias⟩
  · rintro ⟨hnamed, hmasternodes, hstaking, hwallets, hcontrol, hcollateral, halias⟩
    exact ⟨hnamed, hmasternodes, hstaking, hwallets, hcontrol, hcollateral, halias⟩

end Config

/-! ## What is listed, and what stands on the roster -/

namespace Config

/-- All that is listed, each host with the role under which it stands. -/
def roledEntries (config : Config) : List (Role × HostEntry) :=
  (.main, config.main) :: (config.masternodes.map (Prod.mk .masternode) ++
    config.stakingNodes.map (Prod.mk .staking) ++ config.wallets.map (Prod.mk .wallet))

theorem roledEntries_hosts (config : Config) :
    config.roledEntries.map Prod.snd = config.hostEntries := by
  simp [roledEntries, hostEntries, Function.comp_def]

/-- One listed host as an entry of the roster. -/
def register (config : Config) (listed : Role × HostEntry) : Except ConfigError Host :=
  match listed.2.toHost? config listed.1 with
  | some host => .ok host
  | none => .error (.noCredentials listed.2.name)

/-- The entry that a listed host becomes. -/
structure Lists (config : Config) (listed : Role × HostEntry) (host : Host) : Prop where
  name : host.name = listed.2.name
  address : host.address = listed.2.address
  role : host.role = listed.1
  username : host.username = listed.2.username?.getD config.username
  port : host.port = (listed.2.port? <|> config.port?).getD standardPort
  authenticates : listed.2.Authenticates config host.credential

variable {config : Config} {listed : Role × HostEntry} {host : Host}

theorem register_eq_ok (h : config.register listed = .ok host) : config.Lists listed host := by
  unfold register at h
  split at h
  · cases h
    obtain ⟨credential, hcredential, rfl⟩ := Option.map_eq_some_iff.mp ‹_›
    exact ⟨rfl, rfl, rfl, rfl, rfl, HostEntry.credential?_eq_some.mp hcredential⟩
  · cases h

theorem register_eq_error {e : ConfigError} : config.register listed = .error e ↔
    ¬ listed.2.HasCredential config ∧ e = .noCredentials listed.2.name := by
  rw [← HostEntry.credential?_eq_none]
  unfold register HostEntry.toHost?
  cases listed.2.credential? config with
  | none => simp [eq_comm]
  | some credential => simp

theorem exists_register : (∃ host, config.register listed = .ok host) ↔
    listed.2.HasCredential config := by
  cases h : config.register listed with
  | ok host => exact iff_of_true ⟨host, rfl⟩ (register_eq_ok h).authenticates.hasCredential
  | error e => exact iff_of_false nofun (register_eq_error.mp h).1

end Config

namespace Roster

variable {config : Config} {r : Roster}

theorem group_eq (role : Role) (entries : List HostEntry) :
    group config role entries = (entries.map (Prod.mk role)).mapM config.register := by
  rw [List.mapM_map]
  rfl

/-- The roster of a description without a fault is one map over all that is listed. -/
theorem ofConfig_entries (h : config.fault? = none) :
    entries <$> ofConfig config = config.roledEntries.mapM config.register := by
  unfold ofConfig Config.validate Config.roledEntries
  rw [h]
  simp only [group_eq, List.mapM_cons, List.mapM_append]
  generalize (config.masternodes.map (Prod.mk Role.masternode)).mapM config.register = masternodes
  generalize (config.stakingNodes.map (Prod.mk Role.staking)).mapM config.register = staking
  generalize (config.wallets.map (Prod.mk Role.wallet)).mapM config.register = wallets
  unfold Config.register
  dsimp only
  cases config.main.toHost? config .main with
  | none => rfl
  | some main =>
    -- the first of the groups that fails is what both come to
    cases masternodes with
    | error e => rfl
    | ok masternodes =>
      cases staking with
      | error e => rfl
      | ok staking =>
        cases wallets with
        | error e => rfl
        | ok wallets => rfl

/-- What a roster has of its description: an entry for each listed host, in order, and the control
wallet that is named. -/
structure Registers (r : Roster) (config : Config) : Prop where
  entries : List.Forall₂ config.Lists config.roledEntries r.entries
  control : ∀ name, config.controlWallet? = some name → (r.control config).name = name

theorem ofConfig_eq_ok (h : ofConfig config = .ok r) :
    config.IsSound ∧ config.roledEntries.mapM config.register = .ok r.entries := by
  have hfault := (ofConfig_groups h).1
  refine ⟨Config.fault?_eq_none.mp hfault, ?_⟩
  rw [← ofConfig_entries hfault, h]
  rfl

theorem ofConfig_registers (h : ofConfig config = .ok r) : r.Registers config := by
  obtain ⟨hsound, hentries⟩ := ofConfig_eq_ok h
  have hlists := (mapM_eq_ok_iff.mp hentries).imp fun _ _ => Config.register_eq_ok
  refine ⟨hlists, fun name hname => ?_⟩
  have hnames : config.hostEntries.map HostEntry.name = r.entries.map Host.name := by
    rw [← config.roledEntries_hosts, List.map_map, ← List.forall₂_eq_eq_eq,
      List.forall₂_map_left_iff, List.forall₂_map_right_iff]
    exact hlists.imp fun _ _ hlisted => hlisted.name.symm
  have hlisted : name ∈ r.entries.map Host.name := by
    obtain ⟨entry, hm, rfl⟩ := hsound.control name hname
    exact hnames ▸ List.mem_map_of_mem hm
  unfold control
  rw [hname, Option.bind_some]
  -- a control wallet that is named is found, as the names of the hosts are those of the entries
  cases hfound : r.entries.find? (·.name == name) with
  | some host =>
    have hnamed : (host.name == name) = true :=
      List.find?_some (p := fun other : Host => other.name == name) hfound
    exact eq_of_beq hnamed
  | none =>
    obtain ⟨host, hm, heq⟩ := List.mem_map.mp hlisted
    exact absurd (beq_iff_eq.mpr heq) (List.find?_eq_none.mp hfound host hm)

/-- A description that is not sound is refused for its first fault. -/
theorem ofConfig_invalid (h : ¬ config.IsSound) : ∃ reason,
    config.fault? = some reason ∧ ofConfig config = .error (.invalid reason) := by
  cases hfault : config.fault? with
  | none => exact absurd (Config.fault?_eq_none.mp hfault) h
  | some reason =>
    refine ⟨reason, rfl, ?_⟩
    unfold ofConfig Config.validate
    rw [hfault]
    rfl

/-- A sound description makes a roster unless a host has no credential, and the first of those is
named. -/
theorem ofConfig_eq_error (h : config.IsSound) {e : ConfigError} :
    ofConfig config = .error e ↔ ∃ before entry after,
      config.hostEntries = before ++ entry :: after ∧
      (∀ other ∈ before, other.HasCredential config) ∧ ¬ entry.HasCredential config ∧
      e = .noCredentials entry.name := by
  -- a sound description can only fail where hosts get their credentials
  have hmapped : ofConfig config = .error e ↔
      config.roledEntries.mapM config.register = .error e := by
    rw [← ofConfig_entries (Config.fault?_eq_none.mpr h)]
    cases ofConfig config with
    | ok r => exact iff_of_false nofun nofun
    | error e' => exact ⟨fun h => by cases h; rfl, fun h => by cases h; rfl⟩
  rw [hmapped, mapM_eq_error_iff, ← config.roledEntries_hosts]
  constructor
  · rintro ⟨before, listed, after, hsplit, hbefore, hlisted⟩
    obtain ⟨hlacks, rfl⟩ := Config.register_eq_error.mp hlisted
    refine ⟨before.map Prod.snd, listed.2, after.map Prod.snd, ?_, ?_, hlacks, rfl⟩
    · rw [hsplit, List.map_append, List.map_cons]
    · exact List.forall_mem_map.mpr fun other hm => Config.exists_register.mp (hbefore other hm)
  · rintro ⟨before, entry, after, hsplit, hbefore, hlacks, rfl⟩
    obtain ⟨first, rest, hroled, rfl, hrest⟩ := List.map_eq_append_iff.mp hsplit
    obtain ⟨listed, last, rfl, rfl, -⟩ := List.map_eq_cons_iff.mp hrest
    refine ⟨first, listed, last, hroled, fun other hm => ?_, ?_⟩
    · exact Config.exists_register.mpr (List.forall_mem_map.mp hbefore other hm)
    · exact Config.register_eq_error.mpr ⟨hlacks, rfl⟩

/-- Every sound description with credentials for all makes a roster. -/
theorem exists_ofConfig (h : config.IsSound)
    (hall : ∀ entry ∈ config.hostEntries, entry.HasCredential config) :
    ∃ r, ofConfig config = .ok r := by
  cases hmade : ofConfig config with
  | ok r => exact ⟨r, rfl⟩
  | error e =>
    obtain ⟨before, entry, after, hsplit, -, hlacks, -⟩ := (ofConfig_eq_error h).mp hmade
    exact absurd (hall entry (hsplit ▸ List.mem_append_right _ List.mem_cons_self)) hlacks

theorem ofConfig_credentials (h : ofConfig config = .ok r) :
    ∀ entry ∈ config.hostEntries, entry.HasCredential config := by
  have hlists := (ofConfig_registers h).entries.imp fun listed host hlisted =>
    And.intro hlisted.authenticates.hasCredential hlisted
  rw [← config.roledEntries_hosts]
  exact List.forall_mem_map.mpr ((List.forall₂_and_left _ _).mp hlists).1

/-- A roster is made of exactly the sound descriptions in which every host has a credential.  It has
an entry for each listed host, in the order of the list, and the control wallet that is named.  What
a host has itself decides how it authenticates, whatever is shared.  A description that is not sound
is refused for its first fault, and a sound one for the first host without a credential. -/
theorem ofConfig_accepts (config : Config) :
    ((∃ r, ofConfig config = .ok r) ↔
      config.IsSound ∧ ∀ entry ∈ config.hostEntries, entry.HasCredential config) ∧
    config.roledEntries.map Prod.snd = config.hostEntries ∧
    (∀ r, ofConfig config = .ok r → r.Registers config) ∧
    (∀ (entry : HostEntry) (c : Credential) (other : Config), entry.HasOwnCredential →
      (entry.Authenticates config c ↔ entry.Authenticates other c)) ∧
    (∀ (entry : HostEntry) (c c' : Credential),
      entry.Authenticates config c → entry.Authenticates config c' → c = c') ∧
    (¬ config.IsSound → ∃ reason,
      config.fault? = some reason ∧ ofConfig config = .error (.invalid reason)) ∧
    (config.IsSound → ∀ e, ofConfig config = .error e ↔ ∃ before entry after,
      config.hostEntries = before ++ entry :: after ∧
      (∀ other ∈ before, other.HasCredential config) ∧ ¬ entry.HasCredential config ∧
      e = .noCredentials entry.name) := by
  refine ⟨⟨?_, fun h => exists_ofConfig h.1 h.2⟩, config.roledEntries_hosts,
    fun r => ofConfig_registers, ?_, ?_, ofConfig_invalid, fun h e => ofConfig_eq_error h⟩
  · rintro ⟨r, hr⟩
    exact ⟨(ofConfig_eq_ok hr).1, ofConfig_credentials hr⟩
  · exact fun entry c other hown => ⟨.of_own hown other, .of_own hown config⟩
  · intro entry c c' h h'
    exact Option.some.inj (h.looked_up.symm.trans h'.looked_up)

/-- A host with a password of its own beside a shared key file. -/
example : HostEntry.credential? { Config.pair with keyFile? := some "/keys/shared" }
    { HostEntry.plain "mn" "10.0.0.2" with password? := some "own" } = some (.password "own") := rfl

end Roster

end NodeFleet
