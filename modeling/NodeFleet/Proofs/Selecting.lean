import NodeFleet.Desk

/-!
# NodeFleet.Proofs.Selecting — what tokens select, and what they leave free

A token selects the hosts that have it as name or address, or as a part of their name; a token that
selects none is free.  Most orders have no use for a free token; a transfer takes those that are
numbers for its sum, and the others for addresses.

* `Host.isSelectedBy`, `Roster.isFree`: whether a token selects a host, or none.
* `Roster.selected`, `resolve_hosts`: the hosts that tokens select.
* `mem_matching_iff`: the hosts that a token selects when it is no host's name or address.
* `resolve_free`, `selected_filter`, `resolve_hosts_eq_nil`, `select_cases`: what becomes of tokens
  that are free.
* `Payment.ofTokens_amount?`, `Payment.ofTokens_addresses`: what they stand for in a transfer.
-/

namespace NodeFleet

/-- A token that is the name or the address of a host selects it, and so does a part of its name. -/
def Host.isSelectedBy (host : Host) (token : String) : Bool :=
  host.answersTo token || (!token.isEmpty && Text.occursIn token host.name)

theorem addHost_ne_nil {hosts : List Host} {host : Host} : addHost hosts host ≠ [] := by
  unfold addHost
  split
  · rintro rfl
    simp at *
  · simp

theorem foldl_addHost_eq_nil {hosts more : List Host} :
    more.foldl addHost hosts = [] ↔ more = [] ∧ hosts = [] := by
  induction more generalizing hosts with
  | nil => simp
  | cons host more ih => simp [ih, addHost_ne_nil]

namespace Roster

variable {r : Roster} {token : String} {tokens : List String} {host : Host}

/-- The token selects no host. -/
def isFree (r : Roster) (token : String) : Bool := !r.entries.any (·.isSelectedBy token)

theorem matching_eq_nil : r.matching token = [] ↔ r.isFree token = true := by
  unfold matching isFree
  split
  · rename_i host hfound
    have hmem := List.mem_of_find?_eq_some hfound
    have hanswers := List.find?_some (p := fun h : Host => h.answersTo token) hfound
    have hany : r.entries.any (·.isSelectedBy token) = true :=
      List.any_eq_true.mpr ⟨host, hmem, by simp [Host.isSelectedBy, hanswers]⟩
    simp [hany]
  · rename_i hnone
    have hnone := List.find?_eq_none.mp hnone
    rw [List.filter_eq_nil_iff, Bool.not_eq_true', List.any_eq_false]
    refine forall₂_congr fun host hm => ?_
    have hanswers : host.answersTo token = false := Bool.eq_false_iff.mpr (hnone host hm)
    simp [Host.isSelectedBy, hanswers]

/-- What one more token selects or leaves free. -/
theorem resolveStep_eq (res : Resolution) :
    r.resolveStep res token =
      if r.isFree token then { res with free := res.free ++ [token] }
      else { res with hosts := (r.matching token).foldl addHost res.hosts } := by
  unfold resolveStep
  split
  · rw [if_pos (matching_eq_nil.mp ‹_›)]
  · rename_i hsome
    rw [if_neg fun hfree => hsome (matching_eq_nil.mpr hfree)]

/-- The free tokens stay in their order. -/
theorem resolve_free : (r.resolve tokens).free = tokens.filter r.isFree := by
  have hfold (res : Resolution) :
      (tokens.foldl r.resolveStep res).free = res.free ++ tokens.filter r.isFree := by
    induction tokens generalizing res with
    | nil => simp
    | cons token rest ih =>
      rw [List.foldl_cons, ih, resolveStep_eq]
      by_cases hfree : r.isFree token = true
      · simp [hfree]
      · simp [hfree]
  exact hfold ⟨[], []⟩

/-- The hosts that tokens select, in the order of the tokens, each once. -/
def selected (r : Roster) (tokens : List String) : List Host :=
  (tokens.flatMap r.matching).foldl addHost []

theorem resolve_hosts : (r.resolve tokens).hosts = r.selected tokens := by
  have hfold (res : Resolution) : (tokens.foldl r.resolveStep res).hosts =
      (tokens.flatMap r.matching).foldl addHost res.hosts := by
    induction tokens generalizing res with
    | nil => rfl
    | cons token rest ih =>
      rw [List.foldl_cons, ih, List.flatMap_cons, List.foldl_append, resolveStep_eq]
      by_cases hfree : r.isFree token = true
      · rw [if_pos hfree, matching_eq_nil.mpr hfree]
        rfl
      · rw [if_neg hfree]
  exact hfold ⟨[], []⟩

/-- Tokens that are free add nothing to what the others select. -/
theorem selected_filter : r.selected (tokens.filter fun token => !r.isFree token) =
    r.selected tokens := by
  unfold selected
  congr 1
  induction tokens with
  | nil => rfl
  | cons token rest ih =>
    rw [List.flatMap_cons]
    by_cases hfree : r.isFree token = true
    · rw [List.filter_cons_of_neg (by simp [hfree]), ih, matching_eq_nil.mpr hfree,
        List.nil_append]
    · rw [List.filter_cons_of_pos (by simp [hfree]), List.flatMap_cons, ih]

/-- A token that is no host's name or address selects the hosts whose names it is a part of. -/
theorem mem_matching_iff (hnamed : r.entries.all (fun h => !h.answersTo token) = true) :
    host ∈ r.matching token ↔
      host ∈ r.entries ∧ token ≠ "" ∧ Text.occursIn token host.name = true := by
  have hnone : r.entries.find? (·.answersTo token) = none :=
    List.find?_eq_none.mpr fun h hm => by simpa using List.all_eq_true.mp hnamed h hm
  unfold matching
  rw [hnone]
  simp [List.mem_filter]

/-- Tokens select no host exactly when all of them are free. -/
theorem resolve_hosts_eq_nil : (r.resolve tokens).hosts = [] ↔ tokens.all r.isFree = true := by
  rw [resolve_hosts, selected, foldl_addHost_eq_nil, and_iff_left rfl, List.flatMap_eq_nil_iff,
    List.all_eq_true]
  exact forall₂_congr fun token _ => matching_eq_nil

/-- Tokens have hosts for an order unless one of them is free. -/
theorem select_cases (r : Roster) (tokens : List String) (default : List Host) :
    (tokens.any r.isFree = true ∧
      ∃ token, r.select tokens default = .error (.hostNotFound token)) ∨
    (tokens.any r.isFree = false ∧ ∃ hosts, r.select tokens default = .ok hosts) := by
  cases tokens with
  | nil => exact .inr ⟨rfl, default, rfl⟩
  | cons first rest =>
    unfold select
    simp only [List.isEmpty_cons, Bool.false_eq_true, if_false, resolve_free]
    split
    · rename_i token hhead
      have hmem := List.mem_filter.mp (List.mem_of_head? hhead)
      exact .inl ⟨List.any_eq_true.mpr ⟨token, hmem⟩, token, rfl⟩
    · rename_i hhead
      refine .inr ⟨?_, _, rfl⟩
      rw [List.head?_eq_none_iff, List.filter_eq_nil_iff] at hhead
      exact List.any_eq_false.mpr hhead

end Roster

/-! ## Sums and addresses -/

/-- The finite number that a token stands for, if it does. -/
def finiteNumber? (token : String) : Option Amount := (Amount.read? token).filter Amount.isFinite

/-- A token that is no number stands for an address. -/
def isRawAddress (token : String) : Bool := (Amount.read? token).isNone

namespace Payment

variable {p : Payment} {amount? : Option Amount} {tokens : List String}

theorem addToken_eq (token : String) :
    p.addToken token = ⟨p.amount?.or (finiteNumber? token),
      p.addresses ++ [token].filter isRawAddress⟩ := by
  unfold addToken finiteNumber? isRawAddress
  cases hread : Amount.read? token with
  | none => simp [hread]
  | some amount =>
    by_cases hfinite : amount.isFinite = true
    · simp [hread, hfinite, Option.filter]
    · simp [hread, hfinite, Option.filter]

theorem foldl_addToken :
    tokens.foldl addToken p = ⟨p.amount?.or (tokens.findSome? finiteNumber?),
      p.addresses ++ tokens.filter isRawAddress⟩ := by
  induction tokens generalizing p with
  | nil => simp
  | cons token rest ih =>
    have haddresses : (token :: rest).filter isRawAddress =
        [token].filter isRawAddress ++ rest.filter isRawAddress :=
      List.filter_append [token] rest
    rw [List.foldl_cons, ih, addToken_eq, haddresses, ← List.append_assoc, Option.or_assoc,
      List.findSome?_cons]
    cases finiteNumber? token <;> rfl

/-- The sum of a transfer is the one that was given, else the first finite number. -/
theorem ofTokens_amount? :
    (ofTokens amount? tokens).amount? = amount?.or (tokens.findSome? finiteNumber?) := by
  unfold ofTokens
  rw [foldl_addToken]

/-- What is no number is an address. -/
theorem ofTokens_addresses : (ofTokens amount? tokens).addresses = tokens.filter isRawAddress := by
  unfold ofTokens
  rw [foldl_addToken, List.nil_append]

end Payment

/-- A transfer has nowhere to go when its tokens are free, and all of them numbers. -/
theorem Roster.destinations_isEmpty (r : Roster) (tokens : List String) :
    ((r.resolve tokens).hosts.isEmpty && ((tokens.filter r.isFree).filter isRawAddress).isEmpty) =
      tokens.all fun token => r.isFree token && !isRawAddress token := by
  rw [Bool.eq_iff_iff, Bool.and_eq_true, List.isEmpty_iff, List.isEmpty_iff, resolve_hosts_eq_nil,
    List.filter_eq_nil_iff, List.all_eq_true, List.all_eq_true]
  constructor
  · rintro ⟨hfree, hnumbers⟩ token hm
    have hnumber := hnumbers token (List.mem_filter.mpr ⟨hm, hfree token hm⟩)
    simp [hfree token hm, hnumber]
  · intro hall
    refine ⟨fun token hm => (Bool.and_eq_true_iff.mp (hall token hm)).1, fun token hm => ?_⟩
    have hboth := Bool.and_eq_true_iff.mp (hall token (List.mem_filter.mp hm).1)
    simpa using hboth.2

end NodeFleet
