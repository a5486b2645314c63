import NodeFleet.Proofs.Looks
import NodeFleet.Proofs.Rosters

/-!
# NodeFleet.Proofs.Sweeping — what sweeps leave at the desk

A sweep adds a snapshot for each host that it gets to, in order, and one that is not aborted gets to
every host.  The desk keeps what the last snapshot of each name says, so its table has each name
once.

* `sweep_sees`: the snapshots that a sweep adds.
* `Observed.Ordered`, `put_ordered`, `mem_names_foldl_record`: the table of observations.
* `Desk.after`, `after_knows`: the desk after any orders in any world.
-/

namespace NodeFleet

/-! ## Snapshots of a sweep -/

namespace Fleet

variable (fleet : Fleet) {l : Log}

/-- The report on a sweep has a snapshot of each host up to the last one that was looked at; a sweep
that has completed has looked at them all. -/
theorem sweep_sees {hosts : List Host} {report : Report}
    (h : (fleet.sweep hosts).Yields l report) :
    report.snapshots.map Snapshot.host <+: hosts.map Host.name ∧
      (report.outcome = .completed →
        report.snapshots.map Snapshot.host = hosts.map Host.name) := by
  obtain ⟨looks, htaken, hsnapshots, -, hstart, hall⟩ := fleet.sweep_takes h
  have hnames : report.snapshots.map Snapshot.host = (looks.map Look.host).map Host.name := by
    rw [hsnapshots, List.map_map, List.map_map]
    exact List.map_congr_left fun look hm => congrArg Prod.fst (htaken look hm).subject
  rw [hnames]
  exact ⟨hstart.map Host.name, fun hcompleted => congrArg (List.map Host.name) (hall hcompleted)⟩

end Fleet

/-! ## The table of observations -/

namespace Observed

variable {table : Observed} {name : String} {o : Observation}

/-- The names that the table has an entry for. -/
def names (table : Observed) : List String := table.map Prod.fst

/-- The names stand in order, each once. -/
def Ordered (table : Observed) : Prop := table.names.Pairwise (· < ·)

theorem mem_names_put {other : String} :
    other ∈ (table.put name o).names ↔ other = name ∨ other ∈ table.names := by
  induction table with
  | nil => simp [put, names]
  | cons entry rest ih =>
    obtain ⟨next, p⟩ := entry
    simp only [names, put] at ih ⊢
    split
    · rename_i heq
      simp [heq]
    · split
      · simp
      · simp only [List.map_cons, List.mem_cons, ih]
        exact or_left_comm

theorem put_ordered (h : table.Ordered) : (table.put name o).Ordered := by
  -- along the table, up to the first name that is not smaller
  induction table with
  | nil => exact List.pairwise_singleton _ _
  | cons entry rest ih =>
    obtain ⟨next, p⟩ := entry
    obtain ⟨hnext, hrest⟩ := List.pairwise_cons.mp h
    unfold put
    split
    · rename_i heq
      exact heq ▸ h
    · split
      · rename_i hlt
        refine List.pairwise_cons.mpr ⟨fun other hm => ?_, h⟩
        rcases List.mem_cons.mp hm with rfl | hm
        · exact hlt
        · exact String.lt_trans hlt (hnext other hm)
      · rename_i hne hlt
        refine List.pairwise_cons.mpr ⟨fun other hm => ?_, ih hrest⟩
        rcases mem_names_put.mp hm with rfl | hm
        · exact Std.lt_of_le_of_ne (String.not_lt.mp hlt) fun heq => hne heq.symm
        · exact hnext other hm

theorem foldl_record_ordered {seen : List Snapshot} (h : table.Ordered) :
    Ordered (seen.foldl record table) := by
  induction seen generalizing table with
  | nil => exact h
  | cons s seen ih => exact ih (put_ordered h)

theorem mem_names_foldl_record {seen : List Snapshot} :
    name ∈ names (seen.foldl record table) ↔
      name ∈ table.names ∨ name ∈ seen.map Snapshot.host := by
  induction seen generalizing table with
  | nil => simp
  | cons s seen ih =>
    rw [List.foldl_cons, ih, record, mem_names_put, List.map_cons, List.mem_cons, or_assoc]
    exact or_left_comm

theorem Ordered.nodup (h : table.Ordered) : table.names.Nodup :=
  List.nodup_iff_pairwise_ne.mpr (h.imp fun hlt => Std.ne_of_lt hlt)

end Observed

/-! ## The desk -/

namespace Desk

variable {fleet : Fleet} {σ : Type}

/-- The desk, and the state of the world, after orders that are carried out one after the other. -/
def after (world : World σ) : Desk → List Order → σ → Desk × σ
  | desk, [], s => (desk, s)
  | desk, order :: rest, s =>
    let ended := (desk.carryOut order).run world s
    after world ended.1.2 rest ended.2

/-- The desk of a fleet, with a table in order whose names are those of hosts of the fleet. -/
structure Knows (fleet : Fleet) (desk : Desk) : Prop where
  fleet_eq : desk.fleet = fleet
  ordered : desk.observed.Ordered
  names_mem : ∀ name ∈ desk.observed.names, ∃ host ∈ fleet.roster.entries, host.name = name

theorem new_knows (fleet : Fleet) : (new fleet).Knows fleet :=
  ⟨rfl, .nil, fun _ hm => absurd hm List.not_mem_nil⟩

/-- Keeping snapshots of hosts of the fleet. -/
theorem Knows.keep {desk : Desk} (h : desk.Knows fleet) {report : Report}
    (hseen : ∀ name ∈ report.snapshots.map Snapshot.host,
      ∃ host ∈ fleet.roster.entries, host.name = name) : (desk.keep report).Knows fleet where
  fleet_eq := h.fleet_eq
  ordered := Observed.foldl_record_ordered h.ordered
  names_mem name hm := (Observed.mem_names_foldl_record.mp hm).elim (h.names_mem name) (hseen name)

/-- The hosts of which a sweep leaves snapshots are hosts of the fleet, whatever the tokens. -/
theorem sweep_names {targets : List String} {l : Log} {report : Report}
    (h : (fleet.program (.sweep targets)).Yields l report) :
    ∀ name ∈ report.snapshots.map Snapshot.host,
      ∃ host ∈ fleet.roster.entries, host.name = name := by
  intro name hm
  have hprogram : (fleet.onTargets .statusSweep targets fleet.roster.all fleet.sweep).Yields l
      report := h
  unfold Fleet.onTargets at hprogram
  split at hprogram
  · rename_i hosts hselect
    obtain ⟨hstart, -⟩ := fleet.sweep_sees hprogram
    obtain ⟨host, hhost, rfl⟩ := List.mem_map.mp (hstart.subset hm)
    exact ⟨host, List.mem_of_find?_eq_some (Roster.select_first hselect hhost), rfl⟩
  · obtain ⟨-, rfl⟩ := Program.yields_pure.mp hprogram
    exact absurd hm List.not_mem_nil

theorem Knows.carryOut {desk later : Desk} (h : desk.Knows fleet) {order : Order} {l : Log}
    {report : Report} (hout : (desk.carryOut order).Yields l (report, later)) :
    later.Knows fleet := by
  obtain ⟨hprogram, ⟨⟨targets, rfl⟩, rfl⟩ | ⟨-, rfl⟩⟩ := carryOut_cases hout
  · exact h.keep (sweep_names (h.fleet_eq ▸ hprogram))
  · exact h

/-- After any orders in any world, the desk has each name at most once, and only names of hosts of
its fleet. -/
theorem after_knows {desk : Desk} (world : World σ) (h : desk.Knows fleet) (orders : List Order)
    (s : σ) : (desk.after world orders s).1.Knows fleet := by
  induction orders generalizing desk s with
  | nil => exact h
  | cons order rest ih => exact ih (h.carryOut (Program.yields_log world _ s)) _

end Desk

end NodeFleet
