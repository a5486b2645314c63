import NodeFleet.Proofs.Rosters

/-!
# NodeFleet.Proofs.Repetitions — what is left when repetitions are dropped

Hosts and addresses are collected one after the other, each unless it is there already.  What comes
of it is what `eraseDupsBy` leaves of a list: of values that count as the same the first one, where
it stands.

* `foldl_eq_append_eraseDupsBy`: collecting values is dropping repetitions.  `foldl_addNew`,
  `foldl_addHost`: any values, and hosts.
* `eraseDupsBy_eq_self`: where nothing is repeated, all is left.
* `eraseDupsBy_filter`: a choice that does not tell repetitions apart can be made before or after.
* `pairwise_idxOf`: values without repetitions stand in the order of their places.
-/

namespace NodeFleet

/-! ## Lists without their repetitions -/

section Repetitions

variable {α : Type} {r : α → α → Bool}

/-- The head is left, and what does not repeat it of the rest. -/
theorem eraseDupsBy_cons_filter (a : α) (xs : List α) :
    (a :: xs).eraseDupsBy r = a :: (xs.filter fun b => !r b a).eraseDupsBy r := by
  rw [List.eraseDupsBy_cons]
  congr 2
  exact List.filter_congr fun b _ => by cases r b a <;> rfl

/-- Where nothing repeats anything before it, nothing is dropped. -/
theorem eraseDupsBy_eq_self {xs : List α} (h : xs.Pairwise fun a b => r b a = false) :
    xs.eraseDupsBy r = xs := by
  induction xs with
  | nil => rfl
  | cons a xs ih =>
    obtain ⟨hfirst, hrest⟩ := List.pairwise_cons.mp h
    have hkept : (xs.filter fun b => !r b a) = xs :=
      List.filter_eq_self.mpr fun b hb => by simp [hfirst b hb]
    rw [eraseDupsBy_cons_filter, hkept, ih hrest]

/-- A choice that does not tell repetitions apart can be made before they are dropped. -/
theorem eraseDupsBy_filter {p : α → Bool} (hp : ∀ a b, r a b = true → p a = p b) :
    ∀ xs : List α, (xs.filter p).eraseDupsBy r = (xs.eraseDupsBy r).filter p
  | [] => rfl
  | a :: xs => by
    have hrest := eraseDupsBy_filter hp (xs.filter fun b => !r b a)
    rw [eraseDupsBy_cons_filter]
    by_cases ha : p a = true
    · rw [List.filter_cons_of_pos ha, List.filter_cons_of_pos ha, eraseDupsBy_cons_filter, ← hrest,
        List.filter_filter, List.filter_filter]
      simp only [Bool.and_comm]
    · -- what repeats a value that is not chosen is not chosen either
      have hnone : ((xs.filter fun b => !r b a).filter p) = xs.filter p := by
        rw [List.filter_filter]
        refine List.filter_congr fun b _ => ?_
        by_cases hb : r b a = true
        · simp [hb, hp b a hb, Bool.eq_false_iff.mpr ha]
        · simp [hb]
      rw [List.filter_cons_of_neg ha, List.filter_cons_of_neg ha, ← hrest, hnone]
termination_by xs => xs.length
decreasing_by exact Nat.lt_succ_of_le (List.length_filter_le _ _)

/-- Collecting values, each unless one is there that counts as the same, is dropping repetitions. -/
theorem foldl_eq_append_eraseDupsBy {add : List α → α → List α}
    (hadd : ∀ xs a, add xs a = if xs.any (r a ·) then xs else xs ++ [a]) (ys xs : List α) :
    ys.foldl add xs = xs ++ (ys.filter fun a => !xs.any (r a ·)).eraseDupsBy r := by
  induction ys generalizing xs with
  | nil => exact (List.append_nil xs).symm
  | cons a ys ih =>
    rw [List.foldl_cons, ih, hadd]
    by_cases hknown : xs.any (r a ·) = true
    · rw [if_pos hknown, List.filter_cons_of_neg (by simp [hknown])]
    · have hnew : (ys.filter fun b => !(xs ++ [a]).any (r b ·)) =
          (ys.filter fun b => !xs.any (r b ·)).filter fun b => !r b a := by
        rw [List.filter_filter]
        exact List.filter_congr fun b _ => by simp [Bool.and_comm]
      rw [if_neg hknown, List.filter_cons_of_pos (by simpa using hknown), eraseDupsBy_cons_filter,
        hnew, List.append_assoc]
      rfl

/-- Collecting values from none is dropping the repetitions among them. -/
theorem foldl_eq_eraseDupsBy {add : List α → α → List α}
    (hadd : ∀ xs a, add xs a = if xs.any (r a ·) then xs else xs ++ [a]) (ys : List α) :
    ys.foldl add [] = ys.eraseDupsBy r := by
  rw [foldl_eq_append_eraseDupsBy hadd, List.nil_append]
  congr 1
  exact List.filter_eq_self.mpr fun _ _ => rfl

/-- The values of a list without repetitions stand in the order of their places. -/
theorem pairwise_idxOf [BEq α] [LawfulBEq α] {xs : List α} (h : xs.Nodup) :
    xs.Pairwise fun a b => xs.idxOf a < xs.idxOf b := by
  rw [List.pairwise_iff_getElem]
  intro i j hi hj hij
  rwa [h.idxOf_getElem, h.idxOf_getElem]

end Repetitions

/-! ## Addresses and hosts -/

section Collecting

variable {α : Type} [BEq α]

/-- Collecting values, each once. -/
theorem foldl_addNew (xs : List α) : xs.foldl addNew [] = xs.eraseDups :=
  foldl_eq_eraseDupsBy (fun known a => by rw [addNew, List.contains_eq_any_beq]) xs

theorem eraseDups_filter [LawfulBEq α] (p : α → Bool) (xs : List α) :
    (xs.filter p).eraseDups = xs.eraseDups.filter p :=
  eraseDupsBy_filter (fun _ _ hsame => congrArg p (beq_iff_eq.mp hsame)) xs

theorem eraseDups_eq_self [LawfulBEq α] {xs : List α} (h : xs.Nodup) : xs.eraseDups = xs :=
  eraseDupsBy_eq_self (List.Pairwise.imp (fun hne => beq_eq_false_iff_ne.mpr (Ne.symm hne)) h)

end Collecting

/-- A host is added unless it counts as one that is there. -/
theorem addHost_eq (hosts : List Host) (host : Host) :
    addHost hosts host = if hosts.any (host.sameEntry ·) then hosts else hosts ++ [host] := by
  have hsame : hosts.any (·.sameEntry host) = hosts.any (host.sameEntry ·) :=
    List.any_congr rfl fun other => Bool.eq_iff_iff.mpr Host.sameEntry_comm
  rw [addHost, hsame]

/-- Collecting hosts, each once, beside those that are there. -/
theorem foldl_addHost (more hosts : List Host) : more.foldl addHost hosts =
    hosts ++ (more.filter fun host => !hosts.any host.sameEntry).eraseDupsBy Host.sameEntry :=
  foldl_eq_append_eraseDupsBy addHost_eq more hosts

/-- Collecting hosts, each once. -/
theorem foldl_addHost_nil (hosts : List Host) :
    hosts.foldl addHost [] = hosts.eraseDupsBy Host.sameEntry :=
  foldl_eq_eraseDupsBy addHost_eq hosts

end NodeFleet
