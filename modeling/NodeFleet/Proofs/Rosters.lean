import Mathlib.Data.List.Forall2
import NodeFleet.Procedure.Promotion

/-!
# NodeFleet.Proofs.Rosters — which entry stands for a host that is listed twice

A roster lists the main host, then the masternodes, the staking nodes and the wallets, and a host
may stand there under two roles.  Whatever selects hosts keeps the first entry of each.

* `mem_foldl_addNew`, `nodup_foldl_addNew`: collecting values, each once.
* `Host.IsFirstIn`: the entry is the first one of its host.
* `Roster.all_first`, `Roster.select_first`: all hosts, and the hosts that tokens select, are first
  entries.
* `Fleet.main_of_masternode`: the first entry of a masternode is under that role, or it is the main
  host.
* `Roster.ofConfig_ok`: the roster of a description without a fault.  `Fleet.pair`: a main host and
  a masternode.
-/

namespace NodeFleet

/-! ## Values, each once -/

section Values

variable {α : Type} [BEq α] [LawfulBEq α] {xs ys : List α} {x y : α}

theorem mem_addNew : y ∈ addNew xs x ↔ y ∈ xs ∨ y = x := by
  unfold addNew
  by_cases hx : xs.contains x = true
  · rw [if_pos hx]
    constructor
    · exact .inl
    · rintro (hy | rfl)
      · exact hy
      · exact List.contains_iff_mem.mp hx
  · rw [if_neg hx]
    simp

theorem nodup_addNew (h : xs.Nodup) : (addNew xs x).Nodup := by
  unfold addNew
  by_cases hx : xs.contains x = true
  · rw [if_pos hx]
    exact h
  · rw [if_neg hx]
    have hnew : x ∉ xs := fun hm => hx (List.contains_iff_mem.mpr hm)
    rw [List.nodup_append]
    refine ⟨h, by simp, fun a ha b hb => ?_⟩
    rw [List.mem_singleton.mp hb]
    rintro rfl
    exact hnew ha

theorem mem_foldl_addNew : y ∈ ys.foldl addNew xs ↔ y ∈ xs ∨ y ∈ ys := by
  induction ys generalizing xs with
  | nil => simp
  | cons z ys ih => rw [List.foldl_cons, ih, mem_addNew, List.mem_cons, or_assoc]

theorem nodup_foldl_addNew (h : xs.Nodup) : (ys.foldl addNew xs).Nodup := by
  induction ys generalizing xs with
  | nil => exact h
  | cons z ys ih => exact ih (nodup_addNew h)

end Values

/-! ## Results of readings -/

section Results

variable {α β ε : Type}

theorem bind_eq_ok {x : Except ε α} {f : α → Except ε β} {b : β} (h : x >>= f = .ok b) :
    ∃ a, x = .ok a ∧ f a = .ok b := by
  cases x with
  | ok a => exact ⟨a, rfl, h⟩
  | error e => cases h

theorem mapM_eq_ok_iff {f : α → Except ε β} {xs : List α} {ys : List β} :
    xs.mapM f = .ok ys ↔ List.Forall₂ (fun x y => f x = .ok y) xs ys := by
  induction xs generalizing ys with
  | nil =>
    rw [List.forall₂_nil_left_iff]
    exact ⟨fun h => by cases h; rfl, fun h => by rw [h]; rfl⟩
  | cons x xs ih =>
    rw [List.mapM_cons, List.forall₂_cons_left_iff]
    constructor
    · intro h
      obtain ⟨y, hy, h⟩ := bind_eq_ok h
      obtain ⟨rest, hrest, h⟩ := bind_eq_ok h
      cases h
      exact ⟨y, rest, hy, ih.mp hrest, rfl⟩
    · rintro ⟨y, rest, hy, hrest, rfl⟩
      rw [hy, ih.mpr hrest]
      rfl

end Results

/-! ## Entries of one host -/

namespace Host

variable {a b c : Host}

theorem sameEntry_iff : a.sameEntry b = true ↔ a.name = b.name ∧ a.address = b.address := by
  simp [sameEntry]

theorem sameEntry_comm : a.sameEntry b = true ↔ b.sameEntry a = true := by
  rw [sameEntry_iff, sameEntry_iff]
  exact and_congr eq_comm eq_comm

theorem sameEntry_trans (h₁ : a.sameEntry b = true) (h₂ : b.sameEntry c = true) :
    a.sameEntry c = true := by
  rw [sameEntry_iff] at *
  exact ⟨h₁.1.trans h₂.1, h₁.2.trans h₂.2⟩

/-- The host is the first of the entries that stand for it. -/
def IsFirstIn (entries : List Host) (host : Host) : Prop :=
  entries.find? (·.sameEntry host) = some host

/-- A first entry, by what stands before it. -/
theorem isFirstIn_of_split {before after : List Host} {host : Host}
    (h : ∀ other ∈ before, ¬ other.sameEntry host = true) :
    host.IsFirstIn (before ++ host :: after) := by
  unfold IsFirstIn
  rw [List.find?_eq_some_iff_append]
  refine ⟨sameEntry_iff.mpr ⟨rfl, rfl⟩, before, after, rfl, fun other hm => ?_⟩
  simpa using h other hm

end Host

/-- Collecting hosts from entries keeps first entries, as long as the choice does not tell apart two
entries of one host.  The entries before the rest have been considered: each that was chosen is
collected, as itself or as another entry of its host. -/
theorem first_of_foldl_addHost {chosen : Host → Bool}
    (hchosen : ∀ a b : Host, a.sameEntry b = true → chosen a = chosen b)
    {before rest hosts : List Host}
    (hfirst : ∀ host ∈ hosts, host.IsFirstIn (before ++ rest))
    (hseen : ∀ other ∈ before, chosen other = true → ∃ host ∈ hosts, host.sameEntry other = true) :
    ∀ host ∈ (rest.filter chosen).foldl addHost hosts, host.IsFirstIn (before ++ rest) := by
  induction rest generalizing before hosts with
  | nil => exact hfirst
  | cons next rest ih =>
    have hsplit : before ++ next :: rest = (before ++ [next]) ++ rest := by simp
    rw [hsplit] at hfirst ⊢
    by_cases hnext : chosen next = true
    · rw [List.filter_cons_of_pos hnext, List.foldl_cons]
      by_cases hknown : hosts.any (·.sameEntry next) = true
      · -- the host of this entry is collected already
        have hsame : addHost hosts next = hosts := if_pos hknown
        rw [hsame]
        refine ih hfirst fun other hm hother => ?_
        rcases List.mem_append.mp hm with hm | hm
        · exact hseen other hm hother
        · rw [List.mem_singleton.mp hm]
          exact List.any_eq_true.mp hknown
      · have hadded : addHost hosts next = hosts ++ [next] := if_neg hknown
        rw [hadded]
        refine ih (fun host hm => ?_) fun other hm hother => ?_
        · rcases List.mem_append.mp hm with hm | hm
          · exact hfirst host hm
          · rw [List.mem_singleton.mp hm, ← hsplit]
            refine Host.isFirstIn_of_split fun other hother hsame => hknown ?_
            -- an earlier entry of the same host would have been chosen, and be collected
            have hchosen' := (hchosen other next hsame).trans hnext
            obtain ⟨host, hm, hentry⟩ := hseen other hother hchosen'
            exact List.any_eq_true.mpr ⟨host, hm, Host.sameEntry_trans hentry hsame⟩
        · rcases List.mem_append.mp hm with hm | hm
          · obtain ⟨host, hm, hentry⟩ := hseen other hm hother
            exact ⟨host, List.mem_append_left _ hm, hentry⟩
          · rw [List.mem_singleton.mp hm]
            exact ⟨next, by simp, Host.sameEntry_iff.mpr ⟨rfl, rfl⟩⟩
    · rw [List.filter_cons_of_neg hnext]
      refine ih hfirst fun other hm hother => ?_
      rcases List.mem_append.mp hm with hm | hm
      · exact hseen other hm hother
      · rw [List.mem_singleton.mp hm] at hother
        exact absurd hother hnext

/-- Collecting chosen entries beside hosts that are first entries keeps first entries. -/
theorem first_of_chosen {chosen : Host → Bool}
    (hchosen : ∀ a b : Host, a.sameEntry b = true → chosen a = chosen b)
    {entries hosts : List Host} (hfirst : ∀ host ∈ hosts, host.IsFirstIn entries) :
    ∀ host ∈ (entries.filter chosen).foldl addHost hosts, host.IsFirstIn entries :=
  @first_of_foldl_addHost chosen hchosen [] entries hosts hfirst
    fun _ hm => absurd hm List.not_mem_nil

namespace Roster

variable {r : Roster} {host : Host} {tokens : List String}

theorem all_first (h : host ∈ r.all) : host.IsFirstIn r.entries := by
  have hall : r.entries.filter (fun _ => true) = r.entries := by simp
  unfold all at h
  rw [← hall] at h
  exact first_of_chosen (fun _ _ _ => rfl) (fun _ hm => absurd hm List.not_mem_nil) host h

/-- A token that is a name or an address selects the first entry of a host. -/
theorem find?_answersTo_first {token : String}
    (h : r.entries.find? (·.answersTo token) = some host) : host.IsFirstIn r.entries := by
  obtain ⟨hanswers, before, after, hsplit, hbefore⟩ := List.find?_eq_some_iff_append.mp h
  rw [hsplit]
  refine Host.isFirstIn_of_split fun other hm hsame => ?_
  -- another entry of the host before it would answer to the token as well
  have hother : other.answersTo token = true := by
    obtain ⟨hname, haddress⟩ := Host.sameEntry_iff.mp hsame
    unfold Host.answersTo at hanswers ⊢
    rw [hname, haddress]
    exact hanswers
  have hnone := hbefore other hm
  rw [hother] at hnone
  cases hnone

/-- One more token keeps first entries. -/
theorem resolveStep_first {res : Resolution} {token : String}
    (h : ∀ host ∈ res.hosts, host.IsFirstIn r.entries) :
    ∀ host ∈ (r.resolveStep res token).hosts, host.IsFirstIn r.entries := by
  -- one host by its name or address, or all with the token in their names
  have hcollected : ∀ host ∈ (r.matching token).foldl addHost res.hosts,
      host.IsFirstIn r.entries := by
    unfold matching
    split
    · intro host hm
      rename_i found hfound
      rw [List.foldl_cons, List.foldl_nil] at hm
      unfold addHost at hm
      split at hm
      · exact h host hm
      · rcases List.mem_append.mp hm with hm | hm
        · exact h host hm
        · rw [List.mem_singleton.mp hm]
          exact find?_answersTo_first hfound
    · refine first_of_chosen (fun a b hsame => ?_) h
      rw [(Host.sameEntry_iff.mp hsame).1]
  unfold resolveStep
  split
  · exact h
  · exact hcollected

theorem resolve_first : ∀ host ∈ (r.resolve tokens).hosts, host.IsFirstIn r.entries := by
  have hfold (res : Resolution) (h : ∀ host ∈ res.hosts, host.IsFirstIn r.entries) :
      ∀ host ∈ (tokens.foldl r.resolveStep res).hosts, host.IsFirstIn r.entries := by
    induction tokens generalizing res with
    | nil => exact h
    | cons token rest ih => exact ih _ (resolveStep_first h)
  exact hfold _ fun _ hm => absurd hm List.not_mem_nil

/-- Hosts that are selected, by tokens or as all hosts, are first entries. -/
theorem select_first {hosts : List Host} (h : r.select tokens r.all = .ok hosts)
    (hm : host ∈ hosts) : host.IsFirstIn r.entries := by
  unfold select at h
  split at h
  · cases h
    exact all_first hm
  · dsimp only at h
    split at h
    · cases h
    · cases h
      exact resolve_first host hm

/-! ## Roles -/

theorem toHost?_role {config : Config} {role : Role} {entry : HostEntry}
    (h : entry.toHost? config role = some host) : host.role = role := by
  obtain ⟨credential, -, rfl⟩ := Option.map_eq_some_iff.mp h
  rfl

/-- A host has the name and the address of its entry. -/
theorem toHost?_fields {config : Config} {role : Role} {entry : HostEntry}
    (h : entry.toHost? config role = some host) :
    host.name = entry.name ∧ host.address = entry.address := by
  obtain ⟨credential, -, rfl⟩ := Option.map_eq_some_iff.mp h
  exact ⟨rfl, rfl⟩

/-- The hosts of a group are those of its entries, one after the other. -/
theorem group_hosts {config : Config} {role : Role} {entries : List HostEntry} {hosts : List Host}
    (h : group config role entries = .ok hosts) :
    List.Forall₂ (fun entry host => entry.toHost? config role = some host) entries hosts := by
  refine (mapM_eq_ok_iff.mp h).imp fun entry host hentry => ?_
  split at hentry
  · cases hentry
    assumption
  · cases hentry

theorem group_role {config : Config} {role : Role} {entries : List HostEntry} {hosts : List Host}
    (h : group config role entries = .ok hosts) : ∀ host ∈ hosts, host.role = role := by
  have hroles : List.Forall₂ (fun host entry => host.role = role ∧
      HostEntry.toHost? config role entry = some host) hosts entries :=
    (group_hosts h).flip.imp fun _ _ hhost => ⟨toHost?_role hhost, hhost⟩
  exact ((List.forall₂_and_left hosts entries).mp hroles).1

/-- What hosts have from their entries, they have in the order of those. -/
theorem group_map {α : Type} {f : Host → α} {g : HostEntry → α} {config : Config} {role : Role}
    (hfield : ∀ {entry host}, HostEntry.toHost? config role entry = some host → f host = g entry)
    {entries : List HostEntry} {hosts : List Host} (h : group config role entries = .ok hosts) :
    hosts.map f = entries.map g := by
  rw [← List.forall₂_eq_eq_eq, List.forall₂_map_left_iff, List.forall₂_map_right_iff]
  exact (group_hosts h).flip.imp fun _ _ => hfield

/-- A roster is made of a description without a fault: the main host, then the groups in the order
of their roles. -/
theorem ofConfig_groups {config : Config} (h : ofConfig config = .ok r) :
    config.fault? = none ∧ config.main.toHost? config .main = some r.main ∧
      ∃ masternodes staking wallets,
        r.others = masternodes ++ staking ++ wallets ∧
        group config .masternode config.masternodes = .ok masternodes ∧
        group config .staking config.stakingNodes = .ok staking ∧
        group config .wallet config.wallets = .ok wallets := by
  -- `ofConfig` checks the description, and then takes the main host and each list in turn
  unfold ofConfig at h
  obtain ⟨_, hvalid, h⟩ := bind_eq_ok h
  have hfault : config.fault? = none := by
    unfold Config.validate at hvalid
    split at hvalid
    · cases hvalid
    · assumption
  dsimp only at h
  split at h
  rotate_left
  · cases h
  rename_i host hmain
  obtain ⟨main, heq, h⟩ := bind_eq_ok h
  cases heq
  obtain ⟨masternodes, hmasternodes, h⟩ := bind_eq_ok h
  obtain ⟨staking, hstaking, h⟩ := bind_eq_ok h
  obtain ⟨wallets, hwallets, h⟩ := bind_eq_ok h
  cases h
  exact ⟨hfault, hmain, masternodes, staking, wallets, rfl, hmasternodes, hstaking, hwallets⟩

/-- The main host of a description has its role, and the others stand in the order of theirs. -/
theorem ofConfig_roles {config : Config} (h : ofConfig config = .ok r) :
    r.main.role = .main ∧ ∃ masternodes staking wallets,
      r.others = masternodes ++ staking ++ wallets ∧
      (∀ host ∈ masternodes, host.role = .masternode) ∧
      (∀ host ∈ staking, host.role = .staking) ∧ ∀ host ∈ wallets, host.role = .wallet := by
  obtain ⟨-, hmain, masternodes, staking, wallets, hothers, hmasternodes, hstaking, hwallets⟩ :=
    ofConfig_groups h
  exact ⟨toHost?_role hmain, masternodes, staking, wallets, hothers, group_role hmasternodes,
    group_role hstaking, group_role hwallets⟩

end Roster

namespace Fleet

variable (fleet : Fleet)

/-- The first entry of a host under the masternode role has that role, unless it is the main
host's. -/
theorem main_of_masternode {host masternode : Host} (hm : masternode ∈ fleet.masternodes)
    (hsame : host.sameEntry masternode = true) (hfirst : host.IsFirstIn fleet.roster.entries)
    (hrole : host.role ≠ .masternode) : host = fleet.roster.main := by
  obtain ⟨hmain, masternodes, staking, wallets, hothers, hmasternodes, hstaking, hwallets⟩ :=
    Roster.ofConfig_roles fleet.ofConfig_config
  obtain ⟨hentry, hmrole⟩ := List.mem_filter.mp hm
  have hlisted : masternode ∈ masternodes := by
    have hmrole' : masternode.role = .masternode := by simpa using hmrole
    have hentries : masternode ∈ fleet.roster.main :: (masternodes ++ staking ++ wallets) :=
      hothers ▸ hentry
    simp only [List.mem_cons, List.mem_append] at hentries
    rcases hentries with rfl | (hin | hin) | hin
    · rw [hmain] at hmrole'
      cases hmrole'
    · exact hin
    · rw [hstaking _ hin] at hmrole'
      cases hmrole'
    · rw [hwallets _ hin] at hmrole'
      cases hmrole'
  unfold Host.IsFirstIn Roster.entries at hfirst
  rw [List.find?_cons] at hfirst
  split at hfirst
  · cases hfirst
    rfl
  · -- the search ends among the masternodes, where the host is found
    rw [hothers, List.append_assoc, List.find?_append] at hfirst
    cases hfound : masternodes.find? (·.sameEntry host) with
    | none =>
      have hnone := List.find?_eq_none.mp hfound masternode hlisted
      exact absurd (Host.sameEntry_comm.mp hsame) hnone
    | some found =>
      rw [hfound] at hfirst
      cases hfirst
      exact absurd (hmasternodes _ (List.mem_of_find?_eq_some hfound)) hrole

end Fleet

/-- A description without a fault, whose hosts all have a credential. -/
theorem Roster.ofConfig_ok {config : Config} {roster : Roster}
    {masternodes staking wallets : List Host} (hfault : config.fault? = none)
    (hmain : config.main.toHost? config .main = some roster.main)
    (hmasternodes : Roster.group config .masternode config.masternodes = .ok masternodes)
    (hstaking : Roster.group config .staking config.stakingNodes = .ok staking)
    (hwallets : Roster.group config .wallet config.wallets = .ok wallets)
    (hothers : roster.others = masternodes ++ staking ++ wallets) :
    Roster.ofConfig config = .ok roster := by
  obtain ⟨main, others⟩ := roster
  unfold Roster.ofConfig Config.validate
  rw [hfault, hmain, hmasternodes, hstaking, hwallets]
  subst hothers
  rfl

/-! ## A fleet of two hosts -/

/-- The description of a main host and a masternode, with no waits. -/
def Config.pair : Config :=
  { Config.ofMain (.plain "stake" "10.0.0.1") with
    password? := some "word"
    masternodes := [.plain "mn" "10.0.0.2"]
    timing := .immediate }

/-- The masternode of the pair. -/
def Host.mn : Host := ⟨"mn", "10.0.0.2", .masternode, "root", .password "word", 22⟩

/-- The hosts of the pair. -/
def Roster.pair : Roster where
  main := ⟨"stake", "10.0.0.1", .main, "root", .password "word", 22⟩
  others := [.mn]

theorem Roster.ofConfig_pair : Roster.ofConfig .pair = .ok .pair :=
  Roster.ofConfig_ok (by decide +kernel) rfl rfl rfl rfl rfl

/-- A main host and a masternode. -/
def Fleet.pair : Fleet := ⟨.pair, .pair, false, Roster.ofConfig_pair⟩

end NodeFleet
