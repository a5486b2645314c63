import Mathlib.Data.List.Dedup
import NodeFleet.Proofs.Replying
import NodeFleet.Proofs.Rosters
import NodeFleet.Proofs.Sweeping

/-!
# NodeFleet.Proofs.Namesakes — what a name stands for

A valid description has each name once under a role, but two hosts under different roles may have
one name and different addresses.  All hosts are told apart by name and address; tokens, the
default targets of the staking configuration and the table of observations go by the name.

* `Roster.NamesApart`, `nodup_names_iff`: whether a name stands for one host.
* `find?_all`, `resolve_name`: a name selects the first host that answers to it.
* `stakers_eq`: the main host, and the staking nodes that do not have its name.
* `Fleet.names_identify`: all of it, for every fleet, with what the table has after a sweep.
-/

namespace NodeFleet

/-! ## All hosts -/

section Collected

variable {hosts rest : List Host} {p : Host → Bool}

/-- A host that is collected already makes no difference to a search that does not tell entries of
one host apart. -/
theorem find?_addHost (hp : ∀ a b : Host, a.sameEntry b = true → p a = p b) {host : Host} :
    (addHost hosts host).find? p = (hosts ++ [host]).find? p := by
  unfold addHost
  split
  · rename_i hknown
    obtain ⟨known, hm, hsame⟩ := List.any_eq_true.mp hknown
    rw [List.find?_append]
    cases hfound : hosts.find? p with
    | some _ => rfl
    | none =>
      have hnot : p host = false := by
        have hknown := List.find?_eq_none.mp hfound known hm
        rw [hp known host hsame] at hknown
        exact Bool.eq_false_iff.mpr hknown
      rw [Option.none_or, List.find?_cons_of_neg (by simp [hnot]), List.find?_nil]
  · rfl

theorem find?_foldl_addHost (hp : ∀ a b : Host, a.sameEntry b = true → p a = p b) :
    (rest.foldl addHost hosts).find? p = (hosts ++ rest).find? p := by
  induction rest generalizing hosts with
  | nil => rw [List.append_nil, List.foldl_nil]
  | cons host rest ih =>
    rw [List.foldl_cons, ih, List.find?_append, find?_addHost hp, ← List.find?_append,
      List.append_assoc, List.singleton_append]

theorem pairwise_foldl_addHost (h : hosts.Pairwise fun a b => ¬ a.sameEntry b = true) :
    (rest.foldl addHost hosts).Pairwise fun a b => ¬ a.sameEntry b = true := by
  induction rest generalizing hosts with
  | nil => exact h
  | cons host rest ih =>
    refine ih ?_
    unfold addHost
    split
    · exact h
    · rename_i hnew
      refine List.pairwise_append.mpr ⟨h, List.pairwise_singleton _ _, fun a ha b hb => ?_⟩
      rw [List.mem_singleton.mp hb]
      exact fun hsame => hnew (List.any_eq_true.mpr ⟨a, ha, hsame⟩)

end Collected

namespace Roster

variable {r : Roster} {host : Host}

/-- A search that does not tell entries of one host apart finds the same among all hosts. -/
theorem find?_all {p : Host → Bool} (hp : ∀ a b : Host, a.sameEntry b = true → p a = p b) :
    r.all.find? p = r.entries.find? p := by
  unfold all
  rw [find?_foldl_addHost hp, List.nil_append]

/-- All hosts are told apart by name and address. -/
theorem all_pairwise : r.all.Pairwise fun a b => ¬ a.sameEntry b = true :=
  pairwise_foldl_addHost .nil

theorem mem_entries_of_mem_all (h : host ∈ r.all) : host ∈ r.entries :=
  List.mem_of_find?_eq_some (all_first h)

/-- Every entry stands for one of all hosts. -/
theorem exists_mem_all (h : host ∈ r.entries) : ∃ other ∈ r.all, other.sameEntry host = true := by
  have hfound : (r.entries.find? (·.sameEntry host)).isSome := by
    rw [List.find?_isSome]
    exact ⟨host, h, Host.sameEntry_iff.mpr ⟨rfl, rfl⟩⟩
  rw [← find?_all fun a b hsame => ?_] at hfound
  · obtain ⟨other, hother⟩ := Option.isSome_iff_exists.mp hfound
    exact ⟨other, List.mem_of_find?_eq_some hother,
      List.find?_some (p := fun h : Host => h.sameEntry host) hother⟩
  · rw [Bool.eq_iff_iff]
    refine ⟨Host.sameEntry_trans (Host.sameEntry_comm.mp hsame), Host.sameEntry_trans hsame⟩

/-- Entries of one name are entries of one host. -/
def NamesApart (r : Roster) : Prop :=
  ∀ a ∈ r.entries, ∀ b ∈ r.entries, a.name = b.name → a.address = b.address

/-- All hosts have different names exactly when entries of one name are of one host. -/
theorem nodup_names_iff : (r.all.map Host.name).Nodup ↔ r.NamesApart := by
  constructor
  · intro h a ha b hb hname
    obtain ⟨a', ha', hsame⟩ := exists_mem_all ha
    obtain ⟨b', hb', hsame'⟩ := exists_mem_all hb
    obtain ⟨haname, haaddress⟩ := Host.sameEntry_iff.mp hsame
    obtain ⟨hbname, hbaddress⟩ := Host.sameEntry_iff.mp hsame'
    have heq := List.inj_on_of_nodup_map h ha' hb' (haname.trans (hname.trans hbname.symm))
    rw [← haaddress, ← hbaddress, heq]
  · intro h
    refine List.nodup_iff_pairwise_ne.mpr (List.pairwise_map.mpr ?_)
    refine all_pairwise.imp_of_mem fun ha hb hdifferent hname => hdifferent ?_
    have haddress := h _ (mem_entries_of_mem_all ha) _ (mem_entries_of_mem_all hb) hname
    exact Host.sameEntry_iff.mpr ⟨hname, haddress⟩

/-! ## Names as tokens -/

/-- A token that some host answers to selects that host only. -/
theorem resolve_singleton {token : String} (h : r.entries.find? (·.answersTo token) = some host) :
    r.resolve [token] = ⟨[host], []⟩ := by
  have hmatching : r.matching token = [host] := by
    unfold matching
    rw [h]
  show r.resolveStep ⟨[], []⟩ token = _
  unfold resolveStep
  rw [hmatching]
  rfl

/-- A host's name selects that host unless one before it answers to the name. -/
theorem resolve_name {before after : List Host} (h : r.all = before ++ host :: after) :
    r.resolve [host.name] = ⟨[host], []⟩ ↔
      ∀ other ∈ before, ¬ other.answersTo host.name = true := by
  have hanswers : host.answersTo host.name = true := by simp [Host.answersTo]
  have hall : r.all.find? (·.answersTo host.name) = r.entries.find? (·.answersTo host.name) := by
    refine find?_all fun a b hsame => ?_
    obtain ⟨hname, haddress⟩ := Host.sameEntry_iff.mp hsame
    unfold Host.answersTo
    rw [hname, haddress]
  rw [h, List.find?_append] at hall
  cases hearlier : before.find? (·.answersTo host.name) with
  | none =>
    rw [hearlier, Option.none_or, List.find?_cons, hanswers] at hall
    exact iff_of_true (resolve_singleton hall.symm) (List.find?_eq_none.mp hearlier)
  | some other =>
    rw [hearlier, Option.some_or] at hall
    have hother := List.mem_of_find?_eq_some hearlier
    have hfound := List.find?_some (p := fun h : Host => h.answersTo host.name) hearlier
    refine iff_of_false (fun heq => ?_) fun hnone => hnone other hother hfound
    -- the earlier host would be the same as this one, and all hosts are different
    rw [resolve_singleton hall.symm] at heq
    cases heq
    have hdifferent := h ▸ r.all_pairwise
    refine (List.pairwise_append.mp hdifferent).2.2 host hother host List.mem_cons_self ?_
    exact Host.sameEntry_iff.mpr ⟨rfl, rfl⟩

/-! ## The hosts that stake -/

/-- Collecting hosts of different names passes over those whose name is there already. -/
theorem foldl_named (hosts : List Host) {more : List Host} (h : (more.map Host.name).Nodup) :
    more.foldl (fun hosts host =>
        if hosts.any fun h => h.name == host.name then hosts else hosts ++ [host]) hosts =
      hosts ++ more.filter fun host => !hosts.any fun h => h.name == host.name := by
  induction more generalizing hosts with
  | nil => simp
  | cons host more ih =>
    obtain ⟨hnew, hmore⟩ := List.nodup_cons.mp h
    rw [List.foldl_cons]
    by_cases hknown : (hosts.any fun h => h.name == host.name) = true
    · rw [if_pos hknown, ih _ hmore, List.filter_cons_of_neg (by simp [hknown])]
    · rw [if_neg hknown, ih _ hmore, List.filter_cons_of_pos (by simpa using hknown),
        List.append_assoc, List.singleton_append]
      congr 2
      refine List.filter_congr fun other hm => ?_
      have hne : host.name ≠ other.name := fun heq => hnew (heq ▸ List.mem_map_of_mem hm)
      simp [hne]

/-- The main host and the staking nodes that do not have its name. -/
theorem stakers_eq (h : ((r.byRole .staking).map Host.name).Nodup) :
    r.stakers = r.main :: (r.byRole .staking).filter (·.name != r.main.name) := by
  unfold stakers
  rw [foldl_named _ h, List.singleton_append]
  congr 2
  funext host
  simp [bne, BEq.comm]

/-- A staking node is among the hosts that stake unless it is a namesake of the main host. -/
theorem mem_stakers_iff (h : ((r.byRole .staking).map Host.name).Nodup)
    (hm : host ∈ r.byRole .staking) :
    (∃ target ∈ r.stakers, target.sameEntry host = true) ↔
      (host.name = r.main.name → host.address = r.main.address) := by
  rw [stakers_eq h]
  constructor
  · rintro ⟨target, htarget, hsame⟩ hname
    obtain ⟨htname, haddress⟩ := Host.sameEntry_iff.mp hsame
    rcases List.mem_cons.mp htarget with rfl | htarget
    · exact haddress.symm
    · have hother : target.name ≠ r.main.name := by simpa using (List.mem_filter.mp htarget).2
      exact absurd (htname.trans hname) hother
  · intro hmain
    by_cases hname : host.name = r.main.name
    · exact ⟨r.main, List.mem_cons_self,
        Host.sameEntry_iff.mpr ⟨hname.symm, (hmain hname).symm⟩⟩
    · exact ⟨host, List.mem_cons_of_mem _ (List.mem_filter.mpr ⟨hm, by simpa using hname⟩),
        Host.sameEntry_iff.mpr ⟨rfl, rfl⟩⟩

/-! ## Names under one role -/

/-- No name is repeated in a list without repetitions that begins with other names. -/
theorem nodup_of_firstRepeated? {seen names : List String}
    (h : firstRepeated? seen names = none) : names.Nodup ∧ ∀ name ∈ names, name ∉ seen := by
  induction names generalizing seen with
  | nil => simp
  | cons name names ih =>
    unfold firstRepeated? at h
    split at h
    · cases h
    · rename_i hnew
      obtain ⟨hnodup, hnone⟩ := ih h
      simp only [List.mem_cons, not_or] at hnone
      refine ⟨List.nodup_cons.mpr ⟨fun hm => (hnone name hm).1 rfl, hnodup⟩, ?_⟩
      rintro other hm
      rcases List.mem_cons.mp hm with rfl | hm
      · exact hnew
      · exact (hnone other hm).2

/-- The staking nodes of a valid description have different names. -/
theorem nodup_staking_names {config : Config} (h : ofConfig config = .ok r) :
    ((r.byRole .staking).map Host.name).Nodup := by
  obtain ⟨hfault, hmain, masternodes, staking, wallets, hothers, hmasternodes, hstaking,
    hwallets⟩ := ofConfig_groups h
  -- the staking hosts of the roster are those that were made of the list
  have hgroup : r.byRole .staking = staking := by
    have hnone {hosts : List Host} {role : Role} (hrole : ∀ host ∈ hosts, host.role = role)
        (hne : role ≠ .staking) : hosts.filter (·.role == .staking) = [] := by
      refine List.filter_eq_nil_iff.mpr fun host hm => ?_
      simpa [hrole host hm] using hne
    unfold byRole entries
    rw [hothers, List.filter_cons_of_neg (by simp [toHost?_role hmain]), List.filter_append,
      List.filter_append, hnone (group_role hmasternodes) (by simp),
      hnone (group_role hwallets) (by simp), List.nil_append, List.append_nil]
    refine List.filter_eq_self.mpr fun host hm => ?_
    simpa using group_role hstaking host hm
  have hlist : listFault? "staking_nodes" config.stakingNodes = none := by
    simp only [Config.fault?, Option.orElse_eq_orElse, Option.orElse_eq_or,
      Option.or_eq_none_iff] at hfault
    exact hfault.2.2.1
  rw [hgroup, group_map (fun hhost => (toHost?_fields hhost).1) hstaking]
  exact (nodup_of_firstRepeated? (Option.map_eq_none_iff.mp hlist)).1

end Roster

/-! ## What names stand for -/

namespace Fleet

variable (fleet : Fleet)

/-- After a sweep of all hosts that has completed, the table has the names of all hosts, each once;
so it has an entry for each host exactly when all hosts have different names. -/
theorem swept_names {desk later : Desk} (hdesk : desk.Knows fleet) {l : Log} {report : Report}
    (h : (desk.carryOut (.sweep [])).Yields l (report, later))
    (hcompleted : report.outcome = .completed) :
    later.observed.names.Nodup ∧
      (∀ name, name ∈ later.observed.names ↔ ∃ host ∈ fleet.roster.all, host.name = name) ∧
      (later.observed.length = fleet.roster.all.length ↔ fleet.roster.NamesApart) := by
  have hlater := hdesk.carryOut h
  obtain ⟨hprogram, hkept⟩ := Desk.carryOut_cases h
  rw [hdesk.fleet_eq] at hprogram
  have hseen := (fleet.sweep_sees hprogram).2 hcompleted
  -- the table knows no names but those of hosts, and a completed sweep has seen every host
  have hnames (name : String) :
      name ∈ later.observed.names ↔ name ∈ fleet.roster.all.map Host.name := by
    constructor
    · intro hm
      obtain ⟨host, hhost, rfl⟩ := hlater.names_mem name hm
      obtain ⟨other, hother, hsame⟩ := Roster.exists_mem_all hhost
      exact List.mem_map.mpr ⟨other, hother, (Host.sameEntry_iff.mp hsame).1⟩
    · intro hm
      obtain ⟨-, rfl⟩ | ⟨hother, -⟩ := hkept
      · exact Observed.mem_names_foldl_record.mpr (.inr (hseen ▸ hm))
      · exact absurd rfl (hother [])
  have hnodup := hlater.ordered.nodup
  refine ⟨hnodup, fun name => (hnames name).trans List.mem_map, ?_⟩
  -- so the entries are as many as there are different names
  have hperm : later.observed.names.Perm (fleet.roster.all.map Host.name).dedup :=
    (List.perm_ext_iff_of_nodup hnodup (List.nodup_dedup _)).mpr fun name => by
      rw [hnames, List.mem_dedup]
  have hlength : later.observed.length = (fleet.roster.all.map Host.name).dedup.length := by
    rw [← hperm.length_eq, Observed.names, List.length_map]
  rw [hlength, ← Roster.nodup_names_iff, ← List.dedup_eq_self]
  constructor
  · intro heq
    exact (List.dedup_sublist _).eq_of_length (heq.trans (List.length_map _).symm)
  · intro heq
    rw [heq, List.length_map]

/-- All hosts have different names exactly when entries of one name are of one host.  A host's name
selects that host exactly when no host before it answers to the name.  The staking configuration
goes by default to the main host, and to the staking nodes that are not its namesakes.  After a
sweep of all hosts that has completed, whatever was ordered before and however the fleet behaves,
the table of observations has each name of a host once. -/
theorem names_identify :
    ((fleet.roster.all.map Host.name).Nodup ↔ fleet.roster.NamesApart) ∧
    (∀ before host after, fleet.roster.all = before ++ host :: after →
      (fleet.roster.resolve [host.name] = ⟨[host], []⟩ ↔
        ∀ other ∈ before, ¬ other.answersTo host.name = true)) ∧
    (∃ targets, fleet.program (.writeStakingConfigs []) = fleet.writeStakingConfigs targets ∧
      fleet.roster.main ∈ targets ∧
      ∀ host ∈ fleet.roster.byRole .staking,
        (∃ target ∈ targets, target.sameEntry host = true) ↔
          (host.name = fleet.roster.main.name → host.address = fleet.roster.main.address)) ∧
    ∀ {σ : Type} (world : World σ) (orders : List Order) (s : σ),
      let reached := (Desk.new fleet).after world orders s
      let swept := ((reached.1.carryOut (.sweep [])).run world reached.2).1
      swept.1.outcome = .completed →
        swept.2.observed.names.Nodup ∧
        (∀ name, name ∈ swept.2.observed.names ↔
          ∃ host ∈ fleet.roster.all, host.name = name) ∧
        (swept.2.observed.length = fleet.roster.all.length ↔ fleet.roster.NamesApart) := by
  refine ⟨Roster.nodup_names_iff, fun _ _ _ => Roster.resolve_name, ?_, ?_⟩
  · have hnames := Roster.nodup_staking_names fleet.ofConfig_config
    refine ⟨fleet.roster.stakers, rfl, ?_, fun host => Roster.mem_stakers_iff hnames⟩
    rw [Roster.stakers_eq hnames]
    exact List.mem_cons_self
  · intro σ world orders s reached swept hcompleted
    have hreached := Desk.after_knows world (Desk.new_knows fleet) orders s
    exact fleet.swept_names hreached (Program.yields_log world _ reached.2) hcompleted

end Fleet

/-- The description of a main host and of a staking node of the same name, with no waits. -/
def Config.namesakes : Config :=
  { Config.ofMain (.plain "stake" "10.0.0.1") with
    password? := some "word"
    stakingNodes := [.plain "stake" "10.0.0.2"]
    timing := .immediate }

/-- The two hosts of one name. -/
def Roster.namesakes : Roster where
  main := Roster.pair.main
  others := [⟨"stake", "10.0.0.2", .staking, "root", .password "word", 22⟩]

theorem Roster.ofConfig_namesakes : Roster.ofConfig .namesakes = .ok .namesakes :=
  Roster.ofConfig_ok (by decide +kernel) rfl rfl rfl rfl rfl

/-- A main host and a staking node, two hosts of one name. -/
def Fleet.namesakes : Fleet := ⟨.namesakes, .namesakes, false, Roster.ofConfig_namesakes⟩

namespace Fleet

/-- A name does not always stand for one host: here two hosts have one name; it selects only the
first of them, only the first is configured by default, and a sweep that has completed leaves one
entry for both. -/
theorem names_identify_namesakes :
    ¬ (namesakes.roster.all.map Host.name).Nodup ∧
    (¬ ∀ host ∈ namesakes.roster.all, namesakes.roster.resolve [host.name] = ⟨[host], []⟩) ∧
    (¬ ∀ host ∈ namesakes.roster.byRole .staking,
      ∃ target ∈ namesakes.roster.stakers, target.sameEntry host = true) ∧
    ∃ report desk,
      ((Desk.new namesakes).carryOut (.sweep [])).run (.replying fun _ => Task.agreed) () =
        ((report, desk), ()) ∧
      report.outcome = .completed ∧ desk.observed.length ≠ namesakes.roster.all.length := by
  refine ⟨by decide +kernel, by decide +kernel, by decide +kernel, _, _, rfl, ?_⟩
  decide +kernel

end Fleet

end NodeFleet
