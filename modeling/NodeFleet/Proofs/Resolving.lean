import Mathlib.Data.List.Induction
import Mathlib.Data.List.Nodup
import NodeFleet.Proofs.Namesakes
import NodeFleet.Proofs.Repetitions
import NodeFleet.Proofs.Selecting

/-!
# NodeFleet.Proofs.Resolving — tokens select by one rule, and order what they select

A token selects the first entry that has it as name or address; where no entry has, it selects every
entry whose name it is a part of.  What many tokens select stands in the order of the tokens, and in
the order of the roster where they come from the same token; every host stands there once, as the
entry that it has among all hosts.

* `mem_all_iff`, `all_eq`: all hosts are the first entries of each.
* `Roster.selects`, `matching_eraseDups`: the rule for one token.
* `selected_concat`: what one more token adds.
* `Roster.Precedes`, `Roster.IsSelection`, `selected_isSelection`: what tokens select, in its order.
* `resolve_append`, `select_eq_error`, `select_eq_ok`: tokens after other tokens, and when a choice
  of hosts fails.
* `Fleet.tokens_resolve`: all of it, for the roster of a fleet.
-/

namespace NodeFleet

namespace Roster

variable {r : Roster} {token : String} {tokens : List String} {host a b : Host}

/-! ## All hosts -/

theorem all_eq : r.all = r.entries.eraseDupsBy Host.sameEntry := foldl_addHost_nil r.entries

/-- Two first entries of one host are the same. -/
theorem eq_of_isFirstIn (ha : a.IsFirstIn r.entries) (hb : b.IsFirstIn r.entries)
    (hsame : a.sameEntry b = true) : a = b := by
  have hsearch : (fun h : Host => h.sameEntry a) = fun h => h.sameEntry b := by
    obtain ⟨hname, haddress⟩ := Host.sameEntry_iff.mp hsame
    funext h
    unfold Host.sameEntry
    rw [hname, haddress]
  unfold Host.IsFirstIn at ha hb
  rw [hsearch, hb] at ha
  exact (Option.some.inj ha).symm

/-- All hosts are the first entries of each. -/
theorem mem_all_iff : host ∈ r.all ↔ host.IsFirstIn r.entries := by
  refine ⟨all_first, fun hfirst => ?_⟩
  obtain ⟨other, hother, hsame⟩ := exists_mem_all (List.mem_of_find?_eq_some hfirst)
  rwa [← eq_of_isFirstIn (all_first hother) hfirst hsame]

theorem all_nodup : r.all.Nodup := all_pairwise.imp fun {a b} hdifferent (heq : a = b) =>
  hdifferent (Host.sameEntry_iff.mpr ⟨congrArg Host.name heq, congrArg Host.address heq⟩)

/-! ## One token -/

/-- The token selects the entry: it is the first one with the token as name or address, or there is
none and the token is a part of its name. -/
def selects (r : Roster) (token : String) (host : Host) : Bool :=
  match r.entries.find? (·.answersTo token) with
  | some first => host == first
  | none => !token.isEmpty && Text.occursIn token host.name

/-- What a token selects, each host once, are those of all hosts that it selects. -/
theorem matching_eraseDups :
    (r.matching token).eraseDupsBy Host.sameEntry = r.all.filter (r.selects token) := by
  unfold matching
  -- an exact match is a single host; repetitions are dropped among the hosts whose names match
  cases hfound : r.entries.find? (·.answersTo token) with
  | some first =>
    have hselects : r.selects token = (· == first) := by
      funext h
      unfold selects
      rw [hfound]
    have hmem : first ∈ r.all := mem_all_iff.mpr (find?_answersTo_first hfound)
    rw [hselects, List.filter_beq, List.count_eq_one_of_mem all_nodup hmem]
    rfl
  | none =>
    have hselects : r.selects token =
        fun h => !token.isEmpty && Text.occursIn token h.name := by
      funext h
      unfold selects
      rw [hfound]
    rw [hselects, all_eq]
    exact eraseDupsBy_filter (fun a b hsame => by rw [(Host.sameEntry_iff.mp hsame).1]) r.entries

/-! ## Many tokens -/

theorem selected_nil : r.selected [] = [] := rfl

theorem selected_subset (h : host ∈ r.selected tokens) : host ∈ r.all :=
  mem_all_iff.mpr (resolve_first host (resolve_hosts ▸ h))

/-- Among all hosts, having name and address in common with one that tokens select is being
selected. -/
theorem any_sameEntry_eq (h : host ∈ r.all) :
    (r.selected tokens).any host.sameEntry = (r.selected tokens).contains host := by
  rw [Bool.eq_iff_iff, List.any_eq_true, List.contains_iff_mem]
  constructor
  · rintro ⟨other, hother, hsame⟩
    rwa [eq_of_isFirstIn (mem_all_iff.mp h) (mem_all_iff.mp (selected_subset hother)) hsame]
  · exact fun hm => ⟨host, hm, Host.sameEntry_iff.mpr ⟨rfl, rfl⟩⟩

/-- Tokens after other tokens add the hosts that are not there yet. -/
theorem selected_append (tokens more : List String) : r.selected (tokens ++ more) =
    r.selected tokens ++ (r.selected more).filter fun h => !(r.selected tokens).contains h := by
  have hmore : (more.flatMap r.matching).eraseDupsBy Host.sameEntry = r.selected more :=
    (foldl_addHost_nil _).symm
  have hknown (a b : Host) (hsame : a.sameEntry b = true) :
      (!(r.selected tokens).any a.sameEntry) = !(r.selected tokens).any b.sameEntry := by
    obtain ⟨hname, haddress⟩ := Host.sameEntry_iff.mp hsame
    unfold Host.sameEntry
    rw [hname, haddress]
  have hsplit : r.selected (tokens ++ more) =
      (more.flatMap r.matching).foldl addHost (r.selected tokens) := by
    unfold selected
    rw [List.flatMap_append, List.foldl_append]
  rw [hsplit, foldl_addHost, eraseDupsBy_filter hknown, hmore]
  congr 1
  exact List.filter_congr fun h hm => by rw [any_sameEntry_eq (selected_subset hm)]

/-- One more token adds, of all hosts, those that it selects and that are not there yet. -/
theorem selected_concat (tokens : List String) (token : String) : r.selected (tokens ++ [token]) =
    r.selected tokens ++
      r.all.filter fun h => r.selects token h && !(r.selected tokens).contains h := by
  have hone : r.selected [token] = r.all.filter (r.selects token) := by
    rw [← matching_eraseDups]
    unfold selected
    rw [List.flatMap_singleton, foldl_addHost_nil]
  rw [selected_append, hone, List.filter_filter]
  congr 1
  exact List.filter_congr fun h _ => Bool.and_comm _ _

/-- The place of the first token that selects the host; their number, if none does. -/
def firstFor (r : Roster) (tokens : List String) (host : Host) : Nat :=
  tokens.findIdx (r.selects · host)

/-- A host stands before another one: an earlier token is the first that selects it, or the same
token is the first for both, and it stands before the other among all hosts. -/
def Precedes (r : Roster) (tokens : List String) (a b : Host) : Prop :=
  r.firstFor tokens a < r.firstFor tokens b ∨
    r.firstFor tokens a = r.firstFor tokens b ∧ r.all.idxOf a < r.all.idxOf b

/-- What tokens select: of all hosts those that some token selects, in the order of the first token
that selects them and of the roster, each name with its address once. -/
structure IsSelection (r : Roster) (tokens : List String) (hosts : List Host) : Prop where
  mem_iff (host : Host) :
    host ∈ hosts ↔ host ∈ r.all ∧ ∃ token ∈ tokens, r.selects token host = true
  ordered : hosts.Pairwise (r.Precedes tokens)
  once : hosts.Pairwise fun a b => ¬ a.sameEntry b = true

theorem mem_selected_iff : host ∈ r.selected tokens ↔
    host ∈ r.all ∧ ∃ token ∈ tokens, r.selects token host = true := by
  -- on the last token, which adds what it selects and is not there yet
  induction tokens using List.reverseRecOn with
  | nil => simp [selected_nil]
  | append_singleton tokens token ih =>
    rw [selected_concat, List.mem_append, List.mem_filter, Bool.and_eq_true, Bool.not_eq_true',
      ← Bool.not_eq_true, List.contains_iff_mem]
    constructor
    · rintro (hm | ⟨hm, hselects, -⟩)
      · obtain ⟨hall, other, hother, hselects⟩ := ih.mp hm
        exact ⟨hall, other, List.mem_append_left _ hother, hselects⟩
      · exact ⟨hm, token, List.mem_append_right _ (List.mem_singleton_self _), hselects⟩
    · rintro ⟨hall, other, hother, hselects⟩
      by_cases hknown : host ∈ r.selected tokens
      · exact .inl hknown
      · refine .inr ⟨hall, ?_, hknown⟩
        obtain hother | hother := List.mem_append.mp hother
        · exact absurd (ih.mpr ⟨hall, other, hother, hselects⟩) hknown
        · rwa [List.mem_singleton.mp hother] at hselects

/-- The first token that selects a host stays the first when one is added. -/
theorem firstFor_concat (h : host ∈ r.selected tokens) (token : String) :
    r.firstFor (tokens ++ [token]) host = r.firstFor tokens host ∧
      r.firstFor tokens host < tokens.length := by
  obtain ⟨-, other, hother, hselects⟩ := mem_selected_iff.mp h
  have hfound : r.firstFor tokens host < tokens.length :=
    List.findIdx_lt_length.mpr ⟨other, hother, hselects⟩
  refine ⟨?_, hfound⟩
  unfold firstFor at hfound ⊢
  rw [List.findIdx_append, if_pos hfound]

/-- For a host that tokens add, the last of them is the first that selects it. -/
theorem firstFor_added (h : host ∈ r.all.filter fun h =>
    r.selects token h && !(r.selected tokens).contains h) :
    r.firstFor (tokens ++ [token]) host = tokens.length := by
  obtain ⟨hall, hadded⟩ := List.mem_filter.mp h
  rw [Bool.and_eq_true, Bool.not_eq_true', List.contains_eq_mem, decide_eq_false_iff_not] at hadded
  have hnone : ¬ tokens.findIdx (r.selects · host) < tokens.length := by
    rw [List.findIdx_lt_length]
    rintro ⟨other, hother, hselected⟩
    exact hadded.2 (mem_selected_iff.mpr ⟨hall, other, hother, hselected⟩)
  unfold firstFor
  rw [List.findIdx_append, if_neg hnone]
  simp [List.findIdx_cons, hadded.1]

theorem selected_ordered (tokens : List String) :
    (r.selected tokens).Pairwise (r.Precedes tokens) := by
  induction tokens using List.reverseRecOn with
  | nil => exact .nil
  | append_singleton tokens token ih =>
    rw [selected_concat, List.pairwise_append]
    refine ⟨ih.imp_of_mem fun ha hb h => ?_, ?_, fun a ha b hb => .inl ?_⟩
    · unfold Precedes
      rwa [(firstFor_concat ha token).1, (firstFor_concat hb token).1]
    · -- what the token adds stands in the order of all hosts
      have hplaces := (pairwise_idxOf r.all_nodup).sublist (List.filter_sublist
        (p := fun h => r.selects token h && !(r.selected tokens).contains h))
      exact hplaces.imp_of_mem fun ha hb h =>
        .inr ⟨(firstFor_added ha).trans (firstFor_added hb).symm, h⟩
    · rw [firstFor_added hb, (firstFor_concat ha token).1]
      exact (firstFor_concat ha token).2

/-- What tokens select is the selection by the rule. -/
theorem selected_isSelection (tokens : List String) : r.IsSelection tokens (r.selected tokens) where
  mem_iff _ := mem_selected_iff
  ordered := selected_ordered tokens
  once := pairwise_foldl_addHost .nil

/-! ## Choices of hosts -/

variable {default hosts : List Host}

/-- A choice of hosts fails when there are tokens and one of them is free, and names the first of
those. -/
theorem select_eq_error {e : FleetError} : r.select tokens default = .error e ↔ tokens ≠ [] ∧
    ∃ token, (r.resolve tokens).free.head? = some token ∧ e = .hostNotFound token := by
  unfold select
  cases tokens with
  | nil => simp
  | cons first rest =>
    rw [if_neg (by simp), and_iff_right (List.cons_ne_nil first rest)]
    dsimp only
    cases (r.resolve (first :: rest)).free.head? with
    | none => simp
    | some token => simp [eq_comm]

/-- A choice of hosts is the default one without tokens, and otherwise what they select, if none of
them is free. -/
theorem select_eq_ok : r.select tokens default = .ok hosts ↔
    (tokens = [] ∧ hosts = default) ∨
      tokens ≠ [] ∧ (r.resolve tokens).free = [] ∧ hosts = (r.resolve tokens).hosts := by
  unfold select
  cases tokens with
  | nil =>
    rw [or_iff_left fun h => h.1 rfl, and_iff_right rfl, if_pos List.isEmpty_nil]
    exact ⟨fun h => (Except.ok.inj h).symm, congrArg Except.ok ∘ Eq.symm⟩
  | cons first rest =>
    rw [if_neg (by simp), or_iff_right (by simp), and_iff_right (List.cons_ne_nil first rest)]
    dsimp only
    rw [← List.head?_eq_none_iff]
    cases (r.resolve (first :: rest)).free.head? with
    | none => simp [eq_comm]
    | some token => simp

/-- The resolution of tokens after other tokens. -/
theorem resolve_append (tokens more : List String) : r.resolve (tokens ++ more) =
    { free := (r.resolve tokens).free ++ (r.resolve more).free
      hosts := (r.resolve tokens).hosts ++
        (r.resolve more).hosts.filter fun h => !(r.resolve tokens).hosts.contains h } := by
  have hparts (tokens : List String) :
      r.resolve tokens = ⟨r.selected tokens, tokens.filter r.isFree⟩ := by
    rw [← resolve_hosts, ← resolve_free]
  rw [hparts, hparts, hparts, selected_append, List.filter_append]

end Roster

/-- The place of a role in a roster. -/
def Role.rank : Role → Nat
  | main => 0
  | masternode => 1
  | staking => 2
  | wallet => 3

/-- The entries of the roster of a description stand in the order of their roles. -/
theorem Roster.ofConfig_ranked {config : Config} {r : Roster} (h : ofConfig config = .ok r) :
    r.entries.Pairwise fun a b => a.role.rank ≤ b.role.rank := by
  obtain ⟨hmain, masternodes, staking, wallets, hothers, hmasternodes, hstaking, hwallets⟩ :=
    ofConfig_roles h
  have hgroup {hosts : List Host} {role : Role} (hrole : ∀ host ∈ hosts, host.role = role) :
      hosts.Pairwise fun a b => a.role.rank ≤ b.role.rank :=
    List.pairwise_of_forall_mem_list fun a ha b hb =>
      Nat.le_of_eq (by rw [hrole a ha, hrole b hb])
  unfold entries
  rw [hothers, List.append_assoc, List.pairwise_cons, List.pairwise_append, List.pairwise_append]
  refine ⟨fun b _ => hmain ▸ Nat.zero_le _, hgroup hmasternodes,
    ⟨hgroup hstaking, hgroup hwallets, fun a ha b hb => ?_⟩, fun a ha b hb => ?_⟩
  · rw [hstaking a ha, hwallets b hb]
    decide
  · rw [hmasternodes a ha]
    obtain hb | hb := List.mem_append.mp hb
    · rw [hstaking b hb]
      decide
    · rw [hwallets b hb]
      decide

/-- On the roster of any fleet, tokens are resolved by the rule.  A token that is no host's name or
address, and no part of a name, stays free.  The others select hosts: the first entry with the name
or the address, or else all with the token in their name.  These stand in the order of the first
token that selects them and then of the roster, each once, as the very entry that stands for it
among all hosts, which is its first one.  More tokens add to what is there, and a choice of hosts
fails exactly when there are tokens and one is free. -/
theorem Fleet.tokens_resolve (fleet : Fleet) (tokens : List String) :
    let r := fleet.roster
    (r.resolve tokens).free = tokens.filter r.isFree ∧
    r.IsSelection tokens (r.resolve tokens).hosts ∧
    (∀ host ∈ (r.resolve tokens).hosts, host.IsFirstIn r.entries) ∧
    r.all = r.entries.eraseDupsBy Host.sameEntry ∧
    r.entries.Pairwise (fun a b => a.role.rank ≤ b.role.rank) ∧
    (∀ more, r.resolve (tokens ++ more) =
      { free := (r.resolve tokens).free ++ (r.resolve more).free
        hosts := (r.resolve tokens).hosts ++
          (r.resolve more).hosts.filter fun h => !(r.resolve tokens).hosts.contains h }) ∧
    ∀ default,
      (∀ e, r.select tokens default = .error e ↔ tokens ≠ [] ∧
        ∃ token, (r.resolve tokens).free.head? = some token ∧ e = .hostNotFound token) ∧
      ∀ hosts, r.select tokens default = .ok hosts ↔ (tokens = [] ∧ hosts = default) ∨
        tokens ≠ [] ∧ (r.resolve tokens).free = [] ∧ hosts = (r.resolve tokens).hosts := by
  intro r
  refine ⟨Roster.resolve_free, ?_, fun host hm => Roster.resolve_first host hm, Roster.all_eq,
    Roster.ofConfig_ranked fleet.ofConfig_config, Roster.resolve_append tokens, fun default => ?_⟩
  · rw [Roster.resolve_hosts]
    exact Roster.selected_isSelection tokens
  · exact ⟨fun _ => Roster.select_eq_error, fun _ => Roster.select_eq_ok⟩

end NodeFleet
