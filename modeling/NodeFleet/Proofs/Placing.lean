import Mathlib.Algebra.Order.BigOperators.Group.List
import Mathlib.Algebra.Order.Group.Nat
import NodeFleet.Proofs.FileCommands
import NodeFleet.Proofs.Installing
import NodeFleet.Proofs.Leading

/-!
# NodeFleet.Proofs.Placing — where installed binaries end up

On a host that takes every file and carries out every line, installing binaries comes to staging all
of them and then putting each into its place.  Two binaries of the list can be in each other's way:
where they have the same name the second has nothing left to put in place, and the first is gone;
and where an earlier one is named like the staged copy of a later one, its place is taken from it.
In all other cases every binary ends up in its place.

* `World.filing`: a host that keeps files.
* `Fleet.stage`, `Fleet.swapAll`, `install_leads`: what installing binaries does to the files.
* `Binary.ClearOf`: an earlier binary is not in the way of a later one.
* `swapAll_places`, `clear_of_placed`: when all binaries end up in their places.
* `Fleet.installs_in_place_iff`: so it is for an order.
-/

namespace NodeFleet

/-! ## A host that keeps files -/

/-- A host that takes every file and carries out every line, beside the files on the operator's
machine. -/
def World.filing (files : LocalFiles) : World HostFiles
  | .connect _, disk => (.ok (), disk)
  | .run _ command, disk =>
    let executed := Shell.execute command.line disk
    (.ok ⟨command.line, [], some (if executed.1 then 0 else 1)⟩, executed.2)
  | .write _ path contents, disk => (.ok (), Function.update disk path (some contents))
  | .close _, disk => ((), disk)
  | .cancelled, disk => (false, disk)
  | .sleep _, disk => (true, disk)
  | .clock, disk => (.zero, disk)
  | .ping _, disk => (true, disk)
  | .launch _ _, disk => (.ok (), disk)
  | .load path, disk => (files path, disk)

namespace Fleet

variable (fleet : Fleet) {files : LocalFiles} {disk : HostFiles} {host : Host}

/-- The files after a binary has been written beside its place. -/
def stage (disk : HostFiles) (binary : Binary) : HostFiles :=
  Function.update disk (stagedPath (fleet.installPath binary)) (some binary.contents)

/-- The files after all binaries have been put into their places, or as many as possible. -/
def swapAll (disk : HostFiles) : List Binary → Bool × HostFiles
  | [] => (true, disk)
  | binary :: rest =>
    match disk.swapIn (fleet.installPath binary) with
    | (true, changed) => swapAll changed rest
    | (false, changed) => (false, changed)

/-- The files after binaries have been installed. -/
def installAll (disk : HostFiles) (binaries : List Binary) : Bool × HostFiles :=
  fleet.swapAll (binaries.foldl fleet.stage disk) binaries

/-- The result for the host: all binaries could be put into their places, or one could not. -/
def installResult (host : Host) : Bool → Except FleetError Unit
  | true => .ok ()
  | false => .error (.transferFailure host.name (exitStatusText (some 1)))

theorem stageAll_leads (binaries : List Binary) :
    (binaries.forM (fleet.stageBinary host)).run.Leads (.filing files) disk (.ok ())
      (binaries.foldl fleet.stage disk) := by
  induction binaries generalizing disk with
  | nil => exact Program.leads_pure _
  | cons binary rest ih =>
    have hwrite : (Program.write host (stagedPath (fleet.installPath binary)) binary.contents).Leads
        (.filing files) disk (.ok ()) (fleet.stage disk binary) := Program.leads_request _
    exact Program.leads_bind_ok (leads_ofRequest hwrite) ih

/-- An answer without a text is read by its exit status. -/
theorem fileChange_silent (line : String) :
    (ReplyKind.fileChange.read ⟨line, [], some 0⟩).refusal? = none ∧
      (ReplyKind.fileChange.read ⟨line, [], some 1⟩).refusal? = some (exitStatusText (some 1)) :=
  ⟨rfl, rfl⟩

theorem send_leads (command : Command) :
    (Program.send host command).Leads (.filing files) disk
      (.ok ⟨command.line, [], some (if (Shell.execute command.line disk).1 then 0 else 1)⟩)
      (Shell.execute command.line disk).2 := rfl

theorem swapBinary_leads {binary : Binary} (h : Shell.IsPath (fleet.installPath binary)) :
    (fleet.swapBinary host binary).run.Leads (.filing files) disk
      (installResult host (disk.swapIn (fleet.installPath binary)).1)
      (disk.swapIn (fleet.installPath binary)).2 := by
  unfold swapBinary
  generalize hcommand : fleet.command (.swapIn (fleet.installPath binary)) = command
  have hexecuted : Shell.execute command.line disk = disk.swapIn (fleet.installPath binary) :=
    hcommand ▸ HostFiles.execute_swapIn fleet.daemon h disk
  have hsent : (Program.send host command).Leads (.filing files) disk _ _ := send_leads command
  rw [hexecuted] at hsent
  obtain ⟨hdone, hfailed⟩ := fileChange_silent command.line
  -- the shell says nothing, so that its exit status alone tells whether the swap was made
  cases hswap : (disk.swapIn (fleet.installPath binary)).1 with
  | true =>
    rw [hswap, if_pos rfl] at hsent
    have hexpected := leads_expect_ok hsent hdone
    refine Program.leads_bind_ok (Program.leads_lift hexpected) ?_
    exact Program.leads_pure _
  | false =>
    rw [hswap, if_neg Bool.false_ne_true] at hsent
    have hexpected := leads_expect_error hsent hfailed
    refine Program.leads_bind_ok (Program.leads_lift hexpected) ?_
    exact Program.leads_pure _

theorem swapAll_leads {binaries : List Binary}
    (h : ∀ binary ∈ binaries, Shell.IsPath (fleet.installPath binary)) :
    (binaries.forM (fleet.swapBinary host)).run.Leads (.filing files) disk
      (installResult host (fleet.swapAll disk binaries).1) (fleet.swapAll disk binaries).2 := by
  induction binaries generalizing disk with
  | nil => exact Program.leads_pure _
  | cons binary rest ih =>
    obtain ⟨hfirst, hrest⟩ := List.forall_mem_cons.mp h
    have hswapped : (fleet.swapBinary host binary).run.Leads (.filing files) disk _ _ :=
      fleet.swapBinary_leads hfirst
    unfold swapAll
    cases hswap : disk.swapIn (fleet.installPath binary) with
    | mk done changed =>
      rw [hswap] at hswapped
      cases done with
      | true => exact Program.leads_bind_ok hswapped (ih hrest)
      | false => exact Program.leads_bind_error hswapped

theorem install_leads {binaries : List Binary}
    (h : ∀ binary ∈ binaries, Shell.IsPath (fleet.installPath binary)) :
    (fleet.install binaries host).run.Leads (.filing files) disk
      (installResult host (fleet.installAll disk binaries).1)
      (fleet.installAll disk binaries).2 :=
  leads_inSession rfl
    (Program.leads_bind_ok (fleet.stageAll_leads binaries) (fleet.swapAll_leads h)) rfl

/-! ### The whole order -/

theorem readBinary_leads {path : String} (h : isMissing files path = false) :
    ∃ binary, binary.IsReadFrom files path ∧
      (readBinary path).run.Leads (.filing files) disk (.ok binary) disk := by
  unfold isMissing at h
  obtain ⟨hname, hfile⟩ := Bool.or_eq_false_iff.mp h
  obtain ⟨name, hname⟩ := Option.isSome_iff_exists.mp (Option.isNone_eq_false_iff.mp hname)
  cases hload : files path with
  | error reason => simp [hload, Except.isOk, Except.toBool] at hfile
  | ok contents =>
    refine ⟨⟨name, contents⟩, ⟨hname, hload⟩, ?_⟩
    have hloaded : (Program.load path).Leads (.filing files) disk (.ok contents) disk := by
      rw [← hload]
      exact Program.leads_request _
    unfold readBinary
    rw [hname]
    exact Program.leads_bind_ok (Program.leads_lift hloaded) (Program.leads_pure _)

theorem readBinaries_leads {paths : List String}
    (h : ∀ path ∈ paths, isMissing files path = false) :
    ∃ binaries, List.Forall₂ (Binary.IsReadFrom files) paths binaries ∧
      (paths.mapM readBinary).run.Leads (.filing files) disk (.ok binaries) disk := by
  induction paths with
  | nil => exact ⟨[], .nil, Program.leads_pure _⟩
  | cons path paths ih =>
    obtain ⟨hfirst, hrest⟩ := List.forall_mem_cons.mp h
    obtain ⟨binary, hbinary, hread⟩ : ∃ binary, binary.IsReadFrom files path ∧
      (readBinary path).run.Leads (.filing files) disk (.ok binary) disk := readBinary_leads hfirst
    obtain ⟨binaries, hbinaries, hothers⟩ := ih hrest
    refine ⟨binary :: binaries, .cons hbinary hbinaries, ?_⟩
    rw [List.mapM_cons]
    refine Program.leads_bind_ok hread (Program.leads_bind_ok hothers ?_)
    exact Program.leads_pure _

theorem exists_isReadFrom {paths : List String} {binaries : List Binary}
    (h : List.Forall₂ (Binary.IsReadFrom files) paths binaries) {binary : Binary}
    (hm : binary ∈ binaries) : ∃ path ∈ paths, binary.IsReadFrom files path := by
  induction h with
  | nil => exact absurd hm List.not_mem_nil
  | @cons path _ _ _ hfirst _ ih =>
    obtain rfl | hm := List.mem_cons.mp hm
    · exact ⟨path, List.mem_cons_self, hfirst⟩
    · obtain ⟨other, hother, hfrom⟩ := ih hm
      exact ⟨other, List.mem_cons_of_mem _ hother, hfrom⟩

theorem installBinaries_leads (h : ∀ path ∈ fleet.config.binaries, isMissing files path = false)
    (hpaths : ∀ path ∈ fleet.config.binaries, ∀ binary, binary.IsReadFrom files path →
      Shell.IsPath (fleet.installPath binary)) :
    ∃ binaries report, List.Forall₂ (Binary.IsReadFrom files) fleet.config.binaries binaries ∧
      (fleet.installBinaries [host]).Leads (.filing files) disk report
        (fleet.installAll disk binaries).2 ∧
      report.hosts = [Report.outcomeOf host.name host.address
        (installResult host (fleet.installAll disk binaries).1)] := by
  obtain ⟨binaries, hbinaries, hread⟩ :
      ∃ binaries, List.Forall₂ (Binary.IsReadFrom files) fleet.config.binaries binaries ∧
        (fleet.config.binaries.mapM readBinary).run.Leads (.filing files) disk (.ok binaries)
          disk :=
    readBinaries_leads h
  have hpath : ∀ binary ∈ binaries, Shell.IsPath (fleet.installPath binary) := by
    intro binary hm
    obtain ⟨path, hpath, hfrom⟩ := exists_isReadFrom hbinaries hm
    exact hpaths path hpath binary hfrom
  have hresult : wasCancelled (installResult host (fleet.installAll disk binaries).1) = false := by
    cases (fleet.installAll disk binaries).1 <;> rfl
  refine ⟨binaries, _, hbinaries, leads_conclude (leads_need hread
    (leads_eachHost (fleet.install_leads hpath) hresult)), ?_⟩
  cases (fleet.installAll disk binaries).1 <;> rfl

end Fleet

/-! ## When binaries end up in their places -/

/-- An earlier binary of a list is not in the way of a later one: it has another name, and it is not
named like the staged copy of the later one. -/
def Binary.ClearOf (earlier later : Binary) : Prop :=
  earlier.name ≠ later.name ∧ earlier.name ≠ stagedPath later.name

instance (earlier later : Binary) : Decidable (earlier.ClearOf later) :=
  inferInstanceAs (Decidable (_ ∧ _))

namespace Fleet

variable {fleet : Fleet} {disk disk' : HostFiles} {binaries : List Binary} {a b : Binary}
  {path : String}

variable (fleet) in
/-- The path of the staged copy of a binary. -/
def stagingPath (b : Binary) : String := stagedPath (fleet.installPath b)

variable (fleet) in
/-- A binary is in its place, and its staged copy is gone, unless another binary of the list has its
place there. -/
def InPlace (binaries : List Binary) (disk : HostFiles) (b : Binary) : Prop :=
  disk (fleet.installPath b) = some b.contents ∧
    (disk (fleet.stagingPath b) = none ∨
      ∃ other ∈ binaries, fleet.installPath other = fleet.stagingPath b)

theorem installPath_inj : fleet.installPath a = fleet.installPath b ↔ a.name = b.name := by
  simp [installPath, ← String.toList_inj]

theorem installPath_eq_staging :
    fleet.installPath a = fleet.stagingPath b ↔ a.name = stagedPath b.name := by
  simp [stagingPath, installPath, stagedPath, ← String.toList_inj]

theorem stagingPath_inj : fleet.stagingPath a = fleet.stagingPath b ↔ a.name = b.name := by
  simp [stagingPath, installPath, stagedPath, ← String.toList_inj]

/-! ### Staging -/

theorem stageAll_other (h : ∀ b ∈ binaries, path ≠ fleet.stagingPath b) :
    binaries.foldl fleet.stage disk path = disk path := by
  induction binaries generalizing disk with
  | nil => rfl
  | cons b rest ih =>
    obtain ⟨hfirst, hrest⟩ := List.forall_mem_cons.mp h
    exact (ih hrest).trans (Function.update_of_ne hfirst _ _)

/-- Binaries of different names are all staged. -/
theorem stageAll_holds (h : binaries.Pairwise fun a b => a.name ≠ b.name) :
    ∀ b ∈ binaries, binaries.foldl fleet.stage disk (fleet.stagingPath b) = some b.contents := by
  induction binaries generalizing disk with
  | nil => exact fun _ hm => absurd hm List.not_mem_nil
  | cons b rest ih =>
    obtain ⟨hfirst, hrest⟩ := List.pairwise_cons.mp h
    refine List.forall_mem_cons.mpr ⟨?_, ih hrest⟩
    have hkept : rest.foldl fleet.stage (fleet.stage disk b) (fleet.stagingPath b) =
        fleet.stage disk b (fleet.stagingPath b) :=
      stageAll_other fun other hm hsame => hfirst other hm (stagingPath_inj.mp hsame)
    exact hkept.trans (Function.update_self _ _ _)

/-! ### Swapping -/

/-- All binaries are put into their places, one after the other. -/
def Swaps (fleet : Fleet) (disk : HostFiles) (binaries : List Binary) (disk' : HostFiles) : Prop :=
  fleet.swapAll disk binaries = (true, disk')

/-- The files after a staged binary has been put into its place. -/
def swapped (fleet : Fleet) (disk : HostFiles) (b : Binary) (contents : ByteArray) : HostFiles :=
  Function.update (Function.update disk (fleet.stagingPath b) none) (fleet.installPath b)
    (some contents)

theorem swapAll_cons : fleet.swapAll disk (b :: binaries) =
    match disk (fleet.stagingPath b) with
    | some contents => fleet.swapAll (fleet.swapped disk b contents) binaries
    | none => (false, Function.update disk (fleet.installPath b) none) := by
  rw [swapAll]
  unfold HostFiles.swapIn stagingPath
  cases disk (stagedPath (fleet.installPath b)) <;> rfl

theorem swaps_cons :
    fleet.Swaps disk (b :: binaries) disk' ↔
      ∃ contents, disk (fleet.stagingPath b) = some contents ∧
      fleet.Swaps (fleet.swapped disk b contents) binaries disk' := by
  unfold Swaps
  rw [swapAll_cons]
  cases disk (fleet.stagingPath b) <;> simp

theorem swaps_append {first rest : List Binary} :
    fleet.Swaps disk (first ++ rest) disk' ↔
      ∃ mid, fleet.Swaps disk first mid ∧ fleet.Swaps mid rest disk' := by
  induction first generalizing disk with
  | nil => simp [Swaps, swapAll]
  | cons b first ih =>
    simp only [List.cons_append, swaps_cons, ih]
    constructor
    · rintro ⟨contents, hstaged, mid, hfirst, hrest⟩
      exact ⟨mid, ⟨contents, hstaged, hfirst⟩, hrest⟩
    · rintro ⟨mid, ⟨contents, hstaged, hfirst⟩, hrest⟩
      exact ⟨contents, hstaged, mid, hfirst, hrest⟩

theorem swapped_place (contents : ByteArray) :
    fleet.swapped disk b contents (fleet.installPath b) = some contents :=
  Function.update_self _ _ _

theorem swapped_staging (contents : ByteArray) :
    fleet.swapped disk b contents (fleet.stagingPath b) = none := by
  have hne : fleet.stagingPath b ≠ fleet.installPath b := HostFiles.stagedPath_ne _
  unfold swapped
  rw [Function.update_of_ne hne, Function.update_self]

theorem swapped_other (contents : ByteArray) (hplace : path ≠ fleet.installPath b)
    (hstaging : path ≠ fleet.stagingPath b) : fleet.swapped disk b contents path = disk path := by
  unfold swapped
  rw [Function.update_of_ne hplace, Function.update_of_ne hstaging]

namespace Swaps

/-- A file that has no place among the binaries does not come into being. -/
theorem absent (h : fleet.Swaps disk binaries disk') (hnone : disk path = none)
    (hplace : ∀ b ∈ binaries, fleet.installPath b ≠ path) : disk' path = none := by
  induction binaries generalizing disk with
  | nil =>
    cases h
    exact hnone
  | cons b rest ih =>
    obtain ⟨hfirst, hrest⟩ := List.forall_mem_cons.mp hplace
    obtain ⟨contents, -, hswaps⟩ := swaps_cons.mp h
    refine ih hswaps ?_ hrest
    by_cases hstaging : path = fleet.stagingPath b
    · rw [hstaging]
      exact swapped_staging contents
    · rw [swapped_other contents hfirst.symm hstaging]
      exact hnone

/-- A binary whose place is neither that of another nor one for a staged copy stays as it is. -/
theorem keeps (h : fleet.Swaps disk binaries disk') (hclear : ∀ b ∈ binaries, a.ClearOf b) :
    disk' (fleet.installPath a) = disk (fleet.installPath a) := by
  induction binaries generalizing disk with
  | nil =>
    cases h
    rfl
  | cons b rest ih =>
    obtain ⟨⟨hname, hstaged⟩, hrest⟩ := List.forall_mem_cons.mp hclear
    obtain ⟨contents, -, hswaps⟩ := swaps_cons.mp h
    exact (ih hswaps hrest).trans
      (swapped_other contents (hname ∘ installPath_inj.mp) (hstaged ∘ installPath_eq_staging.mp))

end Swaps

/-! ### Clear of each other -/

theorem InPlace.cons (h : fleet.InPlace binaries disk b) :
    fleet.InPlace (a :: binaries) disk b := by
  obtain ⟨hplace, hstaging⟩ := h
  refine ⟨hplace, hstaging.imp_right ?_⟩
  rintro ⟨other, hm, hother⟩
  exact ⟨other, List.mem_cons_of_mem _ hm, hother⟩

/-- The files at the start of the swaps do not matter, apart from the staged copies. -/
theorem swapAll_places (hclear : binaries.Pairwise Binary.ClearOf)
    (hstaged : ∀ b ∈ binaries, disk (fleet.stagingPath b) = some b.contents) :
    ∃ disk', fleet.Swaps disk binaries disk' ∧ ∀ b ∈ binaries, fleet.InPlace binaries disk' b := by
  induction binaries generalizing disk with
  | nil => exact ⟨disk, rfl, fun _ hm => absurd hm List.not_mem_nil⟩
  | cons b rest ih =>
    obtain ⟨hfirst, hrest⟩ := List.pairwise_cons.mp hclear
    obtain ⟨hb, hothers⟩ := List.forall_mem_cons.mp hstaged
    -- a swap leaves the staged copies of the binaries after it alone
    have hkept : ∀ other ∈ rest,
        fleet.swapped disk b b.contents (fleet.stagingPath other) = some other.contents := by
      intro other hm
      obtain ⟨hname, hstagedName⟩ := hfirst other hm
      have hplace : fleet.stagingPath other ≠ fleet.installPath b := fun hsame =>
        hstagedName (installPath_eq_staging.mp hsame.symm)
      have hstaging : fleet.stagingPath other ≠ fleet.stagingPath b := fun hsame =>
        hname (stagingPath_inj.mp hsame.symm)
      rw [swapped_other _ hplace hstaging]
      exact hothers other hm
    obtain ⟨disk', hswaps, hplaces⟩ := ih hrest hkept
    refine ⟨disk', swaps_cons.mpr ⟨_, hb, hswaps⟩, List.forall_mem_cons.mpr ⟨⟨?_, ?_⟩, ?_⟩⟩
    · exact (hswaps.keeps hfirst).trans (swapped_place _)
    · by_cases htaken : ∃ other ∈ rest, fleet.installPath other = fleet.stagingPath b
      · obtain ⟨other, hm, hother⟩ := htaken
        exact .inr ⟨other, List.mem_cons_of_mem _ hm, hother⟩
      · exact .inl (hswaps.absent (swapped_staging _) fun other hm hother =>
          htaken ⟨other, hm, hother⟩)
    · exact fun other hm => (hplaces other hm).cons

/-! ### In each other's way -/

variable {before between after : List Binary}

theorem Swaps.split (h : fleet.Swaps disk (before ++ b :: after) disk') :
    ∃ mid contents, fleet.Swaps disk before mid ∧ mid (fleet.stagingPath b) = some contents ∧
      fleet.Swaps (fleet.swapped mid b contents) after disk' := by
  obtain ⟨mid, hbefore, hafter⟩ := swaps_append.mp h
  obtain ⟨contents, hstaged, hafter⟩ := swaps_cons.mp hafter
  exact ⟨mid, contents, hbefore, hstaged, hafter⟩

/-- The staged copy that two binaries share is gone after the first; the second needs one that has
its place there. -/
theorem Swaps.exists_between
    (h : fleet.Swaps disk (before ++ a :: (between ++ b :: after)) disk')
    (hname : a.name = b.name) :
    ∃ y ∈ between, y.name = stagedPath b.name := by
  obtain ⟨mid, contents, -, -, hrest⟩ := h.split
  obtain ⟨left, _, hbetween, hstaged, -⟩ := hrest.split
  by_contra! hnone
  have hgone : fleet.swapped mid a contents (fleet.stagingPath b) = none := by
    rw [← stagingPath_inj.mpr hname]
    exact swapped_staging contents
  have habsent : left (fleet.stagingPath b) = none :=
    hbetween.absent hgone fun y hm hplace => hnone y hm (installPath_eq_staging.mp hplace)
  cases habsent.symm.trans hstaged

/-- A staged copy that is there in the end is a later binary. -/
theorem Swaps.exists_after (h : fleet.Swaps disk (before ++ b :: after) disk')
    (hplaced : disk' (fleet.stagingPath b) ≠ none) : ∃ z ∈ after, z.name = stagedPath b.name := by
  obtain ⟨mid, contents, -, -, hafter⟩ := h.split
  by_contra! hnone
  exact hplaced (hafter.absent (swapped_staging contents) fun z hm hplace =>
    hnone z hm (installPath_eq_staging.mp hplace))

/-- Where two elements stand in a list, one before the other. -/
theorem exists_split_of_pair (h : [a, b].Sublist binaries) :
    ∃ before between after, binaries = before ++ a :: (between ++ b :: after) := by
  obtain ⟨first, second, rfl, ha, hb⟩ := List.cons_sublist_iff.mp h
  obtain ⟨before, mid, rfl⟩ := List.append_of_mem ha
  obtain ⟨mid', after, rfl⟩ := List.append_of_mem (List.singleton_sublist.mp hb)
  exact ⟨before, mid ++ mid', after, by simp⟩

theorem exists_longer_pair (h : fleet.Swaps disk binaries disk')
    (hplaced : ∀ b ∈ binaries, disk' (fleet.installPath b) ≠ none)
    (hpair : [a, b].Sublist binaries) (hname : a.name = b.name) :
    ∃ y z, [y, z].Sublist binaries ∧ y.name = z.name ∧ y.name = stagedPath a.name := by
  obtain ⟨before, between, after, rfl⟩ := exists_split_of_pair hpair
  obtain ⟨y, hy, hyname⟩ := h.exists_between hname
  have hym : y ∈ before ++ a :: (between ++ b :: after) := by simp [hy]
  have hplace := hplaced y hym
  rw [installPath_eq_staging.mpr hyname] at hplace
  have h' : fleet.Swaps disk ((before ++ a :: between) ++ b :: after) disk' := by simpa using h
  obtain ⟨z, hz, hzname⟩ := h'.exists_after hplace
  refine ⟨y, z, ?_, hyname.trans hzname.symm, hyname.trans (hname ▸ rfl)⟩
  have hsub : ([y] ++ [z]).Sublist (between ++ b :: after) :=
    (List.singleton_sublist.mpr hy).append
      ((List.singleton_sublist.mpr hz).trans (List.sublist_cons_self _ _))
  exact (hsub.trans (List.sublist_cons_self _ _)).trans (List.sublist_append_right _ _)

/-- Two binaries of one name would call for two of a longer name, and so on without end. -/
theorem names_nodup (h : fleet.Swaps disk binaries disk')
    (hplaced : ∀ b ∈ binaries, disk' (fleet.installPath b) ≠ none)
    (hpair : [a, b].Sublist binaries) : a.name ≠ b.name := by
  intro hname
  obtain ⟨bound, hbound⟩ : ∃ bound, ∀ b ∈ binaries, b.name.length < bound := by
    refine ⟨(binaries.map fun b => b.name.length).sum + 1, fun b hm => Nat.lt_succ_of_le ?_⟩
    exact List.le_sum_of_mem (List.mem_map_of_mem hm)
  -- on the number of characters by which names may still grow, since each pair leads to a longer
  -- one
  have hnone (n : Nat) : ∀ a b, [a, b].Sublist binaries → a.name = b.name →
      bound ≤ a.name.length + n → False := by
    induction n with
    | zero =>
      intro a b hpair _ hlong
      exact absurd (hbound a (hpair.subset List.mem_cons_self)) (by omega)
    | succ n ih =>
      intro a b hpair hname hlong
      obtain ⟨y, z, hpair', hname', hstaged⟩ := exists_longer_pair h hplaced hpair hname
      refine ih y z hpair' hname' ?_
      have hlonger : (stagedPath a.name).length = a.name.length + 4 := String.length_append _ _
      rw [hstaged, hlonger]
      omega
  exact hnone bound a b hpair hname (by omega)

theorem clear_of_placed (h : fleet.Swaps disk binaries disk')
    (hplaced : ∀ b ∈ binaries, disk' (fleet.installPath b) ≠ none) :
    binaries.Pairwise Binary.ClearOf := by
  refine List.pairwise_iff_forall_sublist.mpr fun {a b} hpair => ⟨names_nodup h hplaced hpair, ?_⟩
  intro hstaged
  obtain ⟨before, between, after, hsplit⟩ := exists_split_of_pair hpair
  have hplace := hplaced a (hpair.subset List.mem_cons_self)
  rw [installPath_eq_staging.mpr hstaged] at hplace
  have h' : fleet.Swaps disk ((before ++ a :: between) ++ b :: after) disk' := by
    simpa [hsplit] using h
  obtain ⟨z, hz, hname⟩ := h'.exists_after hplace
  have hlater : [a, z].Sublist binaries := by
    rw [hsplit]
    have hz' : [z].Sublist (between ++ b :: after) :=
      List.singleton_sublist.mpr (List.mem_append_right _ (List.mem_cons_of_mem _ hz))
    exact (hz'.cons_cons a).trans (List.sublist_append_right _ _)
  exact names_nodup h hplaced hlater (hstaged.trans hname.symm)

theorem installAll_places_iff :
    ((fleet.installAll disk binaries).1 = true ∧
      ∀ b ∈ binaries, fleet.InPlace binaries (fleet.installAll disk binaries).2 b) ↔
      binaries.Pairwise Binary.ClearOf := by
  constructor
  · rintro ⟨hdone, hplaces⟩
    have hswaps : fleet.Swaps (binaries.foldl fleet.stage disk) binaries
        (fleet.installAll disk binaries).2 := Prod.ext hdone rfl
    refine clear_of_placed hswaps fun b hm => ?_
    rw [(hplaces b hm).1]
    exact Option.some_ne_none _
  · intro hclear
    have hstaged : ∀ b ∈ binaries,
        binaries.foldl fleet.stage disk (fleet.stagingPath b) = some b.contents :=
      stageAll_holds (hclear.imp And.left)
    obtain ⟨disk', hswaps, hplaces⟩ := swapAll_places hclear hstaged
    have hended : fleet.installAll disk binaries = (true, disk') := hswaps
    rw [hended]
    exact ⟨rfl, hplaces⟩

/-! ## The order to install -/

/-- On a host that takes every file and carries out every line, whatever files there are, an order
to install ends well, with every binary in its place, if and only if no binary of the list is in the
way of a later one. -/
theorem installs_in_place_iff (fleet : Fleet) (host : Host) (files : LocalFiles) (disk : HostFiles)
    (hreadable : ∀ path ∈ fleet.config.binaries, isMissing files path = false)
    (hpaths : ∀ path ∈ fleet.config.binaries, ∀ binary, binary.IsReadFrom files path →
      Shell.IsPath (fleet.installPath binary)) :
    ∃ binaries, List.Forall₂ (Binary.IsReadFrom files) fleet.config.binaries binaries ∧
      let ended := (fleet.installBinaries [host]).run (.filing files) disk
      ((ended.1.hosts = [⟨host.name, host.address, true, false, none⟩] ∧
        ∀ b ∈ binaries, fleet.InPlace binaries ended.2 b) ↔ binaries.Pairwise Binary.ClearOf) := by
  obtain ⟨binaries, report, hbinaries, hrun, hhosts⟩ :
      ∃ binaries report, List.Forall₂ (Binary.IsReadFrom files) fleet.config.binaries binaries ∧
        (fleet.installBinaries [host]).Leads (.filing files) disk report
          (fleet.installAll disk binaries).2 ∧
        report.hosts = [Report.outcomeOf host.name host.address
          (installResult host (fleet.installAll disk binaries).1)] :=
    fleet.installBinaries_leads hreadable hpaths
  have hended : (fleet.installBinaries [host]).run (.filing files) disk =
      (report, (fleet.installAll disk binaries).2) := hrun
  refine ⟨binaries, hbinaries, ?_⟩
  rw [hended]
  dsimp only
  rw [hhosts, ← installAll_places_iff]
  cases (fleet.installAll disk binaries).1 <;> simp [installResult, Report.outcomeOf]

/-- Two binaries of different names end up in their places. -/
theorem installs_in_place_shipping :
    let files : LocalFiles := fun _ => .ok .empty
    let host := shipping.roster.main
    (∀ path ∈ shipping.config.binaries, isMissing files path = false) ∧
    (∀ path ∈ shipping.config.binaries, ∀ binary, binary.IsReadFrom files path →
      Shell.IsPath (shipping.installPath binary)) ∧
    ∃ binaries, List.Forall₂ (Binary.IsReadFrom files) shipping.config.binaries binaries ∧
      let ended := (shipping.installBinaries [host]).run (.filing files) fun _ => none
      ended.1.hosts = [⟨host.name, host.address, true, false, none⟩] ∧
        ∀ b ∈ binaries, shipping.InPlace binaries ended.2 b := by
  intro files host
  have hreadable : ∀ path ∈ shipping.config.binaries, isMissing files path = false := by
    decide +kernel
  have hpaths : ∀ path ∈ shipping.config.binaries, ∀ binary, binary.IsReadFrom files path →
      Shell.IsPath (shipping.installPath binary) := by
    have hplaces : ∀ path ∈ shipping.config.binaries, ∀ name ∈ Path.fileName? path,
        Shell.IsPath (shipping.installPath ⟨name, .empty⟩) := by decide +kernel
    exact fun path hm binary hfrom => hplaces path hm binary.name hfrom.1
  obtain ⟨binaries, hbinaries, hplaced⟩ :=
    installs_in_place_iff shipping host files (fun _ => none) hreadable hpaths
  refine ⟨hreadable, hpaths, binaries, hbinaries, hplaced.mpr ?_⟩
  have hread : List.Forall₂ (Binary.IsReadFrom files) ["build/coin-cli", "build/coind"] binaries :=
    hbinaries
  obtain _ | ⟨⟨htool, -⟩, _ | ⟨⟨hdaemon, -⟩, ⟨⟩⟩⟩ := hread
  have htoolName := Option.some.inj (htool.symm.trans
    (show Path.fileName? "build/coin-cli" = some "coin-cli" by decide +kernel))
  have hdaemonName := Option.some.inj (hdaemon.symm.trans
    (show Path.fileName? "build/coind" = some "coind" by decide +kernel))
  rw [List.pairwise_pair]
  unfold Binary.ClearOf
  rw [htoolName, hdaemonName]
  decide +kernel

end Fleet

/-- The description of the pair, with two binaries of one name to be installed. -/
def Config.doubled : Config := { Config.pair with binaries := ["stable/coind", "testing/coind"] }

theorem Roster.ofConfig_doubled : Roster.ofConfig .doubled = .ok .pair :=
  Roster.ofConfig_ok (by decide +kernel) rfl rfl rfl rfl rfl

/-- The pair, with two binaries of one name to be installed. -/
def Fleet.doubled : Fleet := ⟨.doubled, .pair, false, Roster.ofConfig_doubled⟩

namespace Fleet

/-- The second binary of a name has no staged copy left to put into its place, and the first has
been removed for it: the host, with the binaries it ran before, is left without any. -/
theorem installs_in_place_doubled :
    let files : LocalFiles := fun _ => .ok .empty
    let ended := (doubled.installBinaries [doubled.roster.main]).run (.filing files)
      fun _ => some .empty
    (∀ path ∈ doubled.config.binaries, isMissing files path = false) ∧
      ended.1.hosts.map HostOutcome.ok = [false] ∧
      ended.2 (doubled.installPath ⟨"coind", .empty⟩) = none := by
  decide +kernel

end Fleet

end NodeFleet
