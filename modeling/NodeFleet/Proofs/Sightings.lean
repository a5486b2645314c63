import Mathlib.Data.List.Forall2
import NodeFleet.Proofs.Sweeping

/-!
# NodeFleet.Proofs.Sightings — the table is the last sight of each host, and gates nothing

The desk answers messages one after the other.  Its table holds, for each name, what the last
snapshot of that name says, over all the sweeps so far; a sweep that was aborted counts with the
snapshots it got to.  Nothing else changes the table, and nothing but the question for it depends on
what it holds.

* `Observation.Tells`: what an entry says of a snapshot, field by field.
* `lastSeen`, `Observed.get?_foldl_record`: the table as a function of the snapshots.
* `Exchange`, `Desk.serve`: a run over any messages in any world, with what was asked for each.
* `Desk.Recalls`: the invariant, with `Recalls.answer` for one message and `serve_recalls` for a
  run.
* `Exchange.Alike`, `serve_alike`: two desks of one fleet that hold different tables.
* `observes_and_gates_nothing`: all of it, for a desk from its first message on.
-/

namespace NodeFleet

/-! ## What an entry says -/

/-- The entry says what the snapshot says: whether the host was reached, what balance it gave, and
of the services that were looked for whether all of them run, nothing when none was looked for. -/
structure Observation.Tells (o : Observation) (snapshot : Snapshot) : Prop where
  reached : o.reachable = true ↔ snapshot.reachable = true
  unchecked : o.servicesDetected? = none ↔ snapshot.services = []
  detected : o.servicesDetected? = some true ↔
    snapshot.services ≠ [] ∧ ∀ check ∈ snapshot.services, check.present = true
  missed : o.servicesDetected? = some false ↔ ∃ check ∈ snapshot.services, check.present = false
  balance : o.lastBalance? = snapshot.balance?

theorem Observation.ofSnapshot_tells (snapshot : Snapshot) :
    (Observation.ofSnapshot snapshot).Tells snapshot := by
  have hall : snapshot.services.all ServiceCheck.present = true ↔
      ∀ check ∈ snapshot.services, check.present = true := List.all_eq_true
  have hnot : snapshot.services.all ServiceCheck.present = false ↔
      ∃ check ∈ snapshot.services, check.present = false := by
    simp only [List.all_eq_false, Bool.not_eq_true]
  -- the middle field has three values, told apart by whether there is a check at all
  by_cases hnil : snapshot.services = []
  · exact
      { reached := Iff.rfl
        unchecked := by simp [ofSnapshot, hnil]
        detected := by simp [ofSnapshot, hnil]
        missed := by simp [ofSnapshot, hnil]
        balance := rfl }
  · have hsome : (ofSnapshot snapshot).servicesDetected? =
        some (snapshot.services.all ServiceCheck.present) := by
      simp [ofSnapshot, hnil]
    exact
      { reached := Iff.rfl
        unchecked := by simp [hsome, hnil]
        detected := by rw [hsome, Option.some.injEq, hall, and_iff_right hnil]
        missed := by rw [hsome, Option.some.injEq, hnot]
        balance := rfl }

/-- What an entry says of a snapshot leaves nothing of the entry open. -/
theorem Observation.tells_iff {o : Observation} {snapshot : Snapshot} :
    o.Tells snapshot ↔ o = .ofSnapshot snapshot := by
  refine ⟨fun h => ?_, fun h => h ▸ ofSnapshot_tells snapshot⟩
  have h' := ofSnapshot_tells snapshot
  have hservices : o.servicesDetected? = (ofSnapshot snapshot).servicesDetected? := by
    cases hdetected : o.servicesDetected? with
    | none => exact (h'.unchecked.mpr (h.unchecked.mp hdetected)).symm
    | some all =>
      cases all with
      | true => exact (h'.detected.mpr (h.detected.mp hdetected)).symm
      | false => exact (h'.missed.mpr (h.missed.mp hdetected)).symm
  obtain ⟨reachable, services, balance⟩ := o
  exact Observation.mk.injEq .. ▸
    ⟨Bool.eq_iff_iff.mpr (h.reached.trans h'.reached.symm), hservices, h.balance⟩

/-! ## The last snapshot of a name -/

section LastSeen

variable {seen : List Snapshot} {name : String}

/-- The last of the snapshots of a name. -/
def lastSeen (seen : List Snapshot) (name : String) : Option Snapshot :=
  (seen.filter (·.host == name)).getLast?

theorem lastSeen_cons (snapshot : Snapshot) (seen : List Snapshot) (name : String) :
    lastSeen (snapshot :: seen) name =
      (lastSeen seen name).or (if snapshot.host = name then some snapshot else none) := by
  unfold lastSeen
  rw [List.filter_cons]
  by_cases h : snapshot.host = name
  · rw [if_pos (beq_iff_eq.mpr h), if_pos h, List.getLast?_cons]
    cases (seen.filter (·.host == name)).getLast? <;> rfl
  · rw [if_neg (fun hbeq => h (beq_iff_eq.mp hbeq)), if_neg h, Option.or_none]

theorem lastSeen_append (earlier seen : List Snapshot) (name : String) :
    lastSeen (earlier ++ seen) name = (lastSeen seen name).or (lastSeen earlier name) := by
  unfold lastSeen
  rw [List.filter_append, List.getLast?_append]

/-- A name has been seen when there is a snapshot of it. -/
theorem lastSeen_isSome :
    (lastSeen seen name).isSome = true ↔ ∃ snapshot ∈ seen, snapshot.host = name := by
  simp [lastSeen]

end LastSeen

/-! ## The table -/

namespace Observed

variable {table : Observed} {name : String} {o : Observation}

theorem get?_cons (next : String) (p : Observation) (rest : Observed) (name : String) :
    get? ((next, p) :: rest) name = if name = next then some p else get? rest name := by
  unfold get?
  rw [List.lookup_cons]
  by_cases h : name = next
  · rw [if_pos h, beq_iff_eq.mpr h]
  · rw [if_neg h, beq_eq_false_iff_ne.mpr h]

/-- Entering an observation changes what is found for its name alone. -/
theorem get?_put (other : String) :
    (table.put name o).get? other = if other = name then some o else table.get? other := by
  -- along the table: the name is there, belongs before the first entry, or after it
  induction table with
  | nil => exact get?_cons name o [] other
  | cons entry rest ih =>
    obtain ⟨next, p⟩ := entry
    unfold put
    split
    · rename_i heq
      rw [get?_cons, get?_cons, ← heq]
      split <;> rfl
    · split
      · exact get?_cons name o _ other
      · rename_i hne _
        rw [get?_cons, get?_cons, ih]
        by_cases h : other = next
        · rw [if_pos h, if_neg (h ▸ Ne.symm hne), if_pos h]
        · rw [if_neg h, if_neg h]

/-- Recording snapshots leaves the last of each name, over what the table had. -/
theorem get?_foldl_record (seen : List Snapshot) (table : Observed) (name : String) :
    get? (seen.foldl record table) name =
      ((lastSeen seen name).map .ofSnapshot).or (table.get? name) := by
  -- the table changes along the fold, and the last snapshot wins over whatever it has become
  induction seen generalizing table with
  | nil => rfl
  | cons snapshot seen ih =>
    rw [List.foldl_cons, ih, record, get?_put, lastSeen_cons]
    cases lastSeen seen name with
    | some last => rfl
    | none =>
      by_cases h : snapshot.host = name
      · simp [h]
      · simp [h, Ne.symm h]

/-- In a table in order, an entry is what a lookup of its name finds. -/
theorem Ordered.mem_iff (h : table.Ordered) : (name, o) ∈ table ↔ table.get? name = some o := by
  induction table with
  | nil => simp [get?]
  | cons entry rest ih =>
    obtain ⟨next, p⟩ := entry
    obtain ⟨hnext, hrest⟩ := List.pairwise_cons.mp h
    rw [get?_cons]
    by_cases hname : name = next
    · -- the name stands at the head, so it does not stand in the rest
      have hnot : (name, o) ∉ rest := fun hm =>
        String.lt_irrefl next (hnext next (List.mem_map.mpr ⟨_, hm, hname⟩))
      rw [if_pos hname, List.mem_cons]
      simp [hname ▸ hnot, hname, eq_comm]
    · rw [if_neg hname, ← ih hrest, List.mem_cons]
      simp [hname]

theorem Ordered.mem_names_iff (h : table.Ordered) :
    name ∈ table.names ↔ ∃ o, table.get? name = some o := by
  simp [names, ← h.mem_iff]

end Observed

/-! ## Messages, one after the other -/

/-- A message with its answer, and with what was asked of the fleet for it. -/
structure Exchange where
  message : Message
  answer : Answer
  log : Log

namespace Exchange

/-- The snapshots in the report on a sweep, also on one that was aborted. -/
def sightings (e : Exchange) : List Snapshot :=
  match e.message, e.answer with
  | .order (.sweep _), .report report => report.snapshots
  | _, _ => []

/-- Two exchanges that ask the same, with the same answer unless the table was asked for. -/
structure Alike (e₁ e₂ : Exchange) : Prop where
  message_eq : e₁.message = e₂.message
  log_eq : e₁.log = e₂.log
  answer_eq : e₁.message ≠ .observed → e₁.answer = e₂.answer

end Exchange

namespace Desk

variable {σ : Type} {desk later : Desk} {seen : List Snapshot} {l : Log} {message : Message}
  {reply : Answer}

/-- The desk answers messages one after the other: what was said, then the desk and the state of
the world at the end. -/
def serve (world : World σ) : Desk → List Message → σ → List Exchange × Desk × σ
  | desk, [], s => ([], desk, s)
  | desk, message :: rest, s =>
    let answered := (desk.answer message).run world s
    let served := serve world answered.1.2 rest answered.2
    (⟨message, answered.1.1, (desk.answer message).log world s⟩ :: served.1, served.2)

/-- An order is answered with its report; a question asks nothing of the fleet. -/
theorem answer_cases (h : (desk.answer message).Yields l (reply, later)) :
    (∃ order report, message = .order order ∧ reply = .report report ∧
        (desk.carryOut order).Yields l (report, later)) ∨
      (message = .observed ∧ l = [] ∧ reply = .observed desk.observed ∧ later = desk) ∨
      ∃ tokens, message = .resolve tokens ∧ l = [] ∧
        reply = .resolution (desk.fleet.roster.resolve tokens) ∧ later = desk := by
  cases message with
  | order order =>
    obtain ⟨l₁, _, ⟨report, _⟩, rfl, hout, rfl, heq⟩ := Program.yields_bind.mp h
    cases heq
    rw [List.append_nil]
    exact .inl ⟨order, report, rfl, rfl, hout⟩
  | observed =>
    obtain ⟨rfl, heq⟩ := Program.yields_pure.mp h
    cases heq
    exact .inr (.inl ⟨rfl, rfl, rfl, rfl⟩)
  | resolve tokens =>
    obtain ⟨rfl, heq⟩ := Program.yields_pure.mp h
    cases heq
    exact .inr (.inr ⟨tokens, rfl, rfl, rfl, rfl⟩)

/-- Only a sweep changes the desk. -/
theorem answer_unchanged (h : (desk.answer message).Yields l (reply, later))
    (hother : ∀ targets, message ≠ .order (.sweep targets)) : later = desk := by
  obtain ⟨order, report, rfl, rfl, hout⟩ | ⟨-, -, -, hsame⟩ | ⟨_, -, -, -, hsame⟩ := answer_cases h
  · obtain ⟨-, ⟨⟨targets, rfl⟩, -⟩ | ⟨-, hsame⟩⟩ := carryOut_cases hout
    · exact absurd rfl (hother targets)
    · exact hsame
  · exact hsame
  · exact hsame

/-! ### What the desk recalls -/

/-- The table is in order, and holds the last of these snapshots of each name. -/
structure Recalls (desk : Desk) (seen : List Snapshot) : Prop where
  ordered : desk.observed.Ordered
  get?_eq : ∀ name, desk.observed.get? name = (lastSeen seen name).map .ofSnapshot

theorem new_recalls (fleet : Fleet) : (new fleet).Recalls [] := ⟨.nil, fun _ => rfl⟩

/-- The snapshots of a report come after what the desk recalls. -/
theorem Recalls.keep (h : desk.Recalls seen) (report : Report) :
    (desk.keep report).Recalls (seen ++ report.snapshots) where
  ordered := Observed.foldl_record_ordered h.ordered
  get?_eq name := by
    rw [lastSeen_append, Option.map_or, ← h.get?_eq]
    exact Observed.get?_foldl_record report.snapshots desk.observed name

/-- One message keeps the table up to date. -/
theorem Recalls.answer (h : desk.Recalls seen)
    (hout : (desk.answer message).Yields l (reply, later)) :
    later.Recalls (seen ++ Exchange.sightings ⟨message, reply, l⟩) := by
  -- only the answer to a sweep holds sightings; all others leave the table as it is
  by_cases hsweep : ∃ targets, message = .order (.sweep targets)
  · obtain ⟨targets, rfl⟩ := hsweep
    obtain ⟨order, report, horder, rfl, hout⟩ | ⟨hne, -⟩ | ⟨_, hne, -⟩ := answer_cases hout
    · cases horder
      obtain ⟨-, ⟨-, rfl⟩ | ⟨hother, -⟩⟩ := carryOut_cases hout
      · exact h.keep report
      · exact absurd rfl (hother targets)
    · cases hne
    · cases hne
  · rw [not_exists] at hsweep
    have hnone : Exchange.sightings ⟨message, reply, l⟩ = [] := by
      unfold Exchange.sightings
      split
      · rename_i targets _ hmessage _
        exact absurd hmessage (hsweep targets)
      · rfl
    rw [answer_unchanged hout hsweep, hnone, List.append_nil]
    exact h

/-- The messages of a run up to one of its exchanges lead to a desk that recalls their sightings,
and that desk answers the next message. -/
theorem Recalls.split (world : World σ) {messages : List Message} {s : σ}
    {before after : List Exchange} {e : Exchange} (h : desk.Recalls seen)
    (hserved : (desk.serve world messages s).1 = before ++ e :: after) :
    ∃ mid : Desk, mid.Recalls (seen ++ before.flatMap Exchange.sightings) ∧
      ∃ later, (mid.answer e.message).Yields e.log (e.answer, later) := by
  -- on the exchanges before; each of them hands its desk on to the next
  induction before generalizing desk seen messages s with
  | nil =>
    cases messages with
    | nil => cases hserved
    | cons message rest =>
      obtain ⟨rfl, -⟩ := List.cons.inj hserved
      refine ⟨desk, ?_, _, Program.yields_log world _ s⟩
      rwa [List.flatMap_nil, List.append_nil]
  | cons first before ih =>
    cases messages with
    | nil => cases hserved
    | cons message rest =>
      obtain ⟨rfl, hrest⟩ := List.cons.inj hserved
      obtain ⟨mid, hmid, hlater⟩ := ih (h.answer (Program.yields_log world _ s)) hrest
      rw [List.append_assoc, ← List.flatMap_cons] at hmid
      exact ⟨mid, hmid, hlater⟩

/-- After any messages in any world, the desk recalls what their sweeps saw. -/
theorem serve_recalls (world : World σ) (h : desk.Recalls seen) (messages : List Message) (s : σ) :
    (desk.serve world messages s).2.1.Recalls
      (seen ++ (desk.serve world messages s).1.flatMap Exchange.sightings) := by
  induction messages generalizing desk seen s with
  | nil =>
    unfold serve
    rwa [List.flatMap_nil, List.append_nil]
  | cons message rest ih =>
    have hlater := ih (h.answer (Program.yields_log world (desk.answer message) s))
      ((desk.answer message).run world s).2
    rw [List.append_assoc, ← List.flatMap_cons] at hlater
    exact hlater

/-- Messages of which none is a sweep leave the desk as it is. -/
theorem serve_unchanged (world : World σ) {messages : List Message}
    (h : ∀ message ∈ messages, ∀ targets, message ≠ .order (.sweep targets)) (s : σ) :
    (desk.serve world messages s).2.1 = desk := by
  induction messages generalizing s with
  | nil => rfl
  | cons message rest ih =>
    have hsame := answer_unchanged (Program.yields_log world (desk.answer message) s)
      (h message List.mem_cons_self)
    have hrest := ih (fun other hm => h other (List.mem_cons_of_mem _ hm))
      ((desk.answer message).run world s).2
    have hend : (desk.serve world (message :: rest) s).2.1 =
        (((desk.answer message).run world s).1.2.serve world rest
          ((desk.answer message).run world s).2).2.1 := rfl
    rw [hend, hsame, hrest]

/-! ### What does not depend on the table -/

/-- An order is answered by the program of the fleet; the table has a part only in what is kept. -/
theorem answer_order (desk : Desk) (order : Order) :
    ∃ kept : Report → Desk, (∀ report, (kept report).fleet = desk.fleet) ∧
      desk.answer (.order order) =
        (desk.fleet.program order).andThen fun report => .done (.report report, kept report) := by
  have hkept : ∃ kept : Report → Desk, (∀ report, (kept report).fleet = desk.fleet) ∧
      desk.carryOut order =
        (desk.fleet.program order).andThen fun report => .done (report, kept report) := by
    cases order with
    | sweep targets => exact ⟨desk.keep, fun _ => rfl, rfl⟩
    | _ => exact ⟨fun _ => desk, fun _ => rfl, rfl⟩
  obtain ⟨kept, hfleet, hcarried⟩ := hkept
  refine ⟨kept, hfleet, ?_⟩
  change ((desk.carryOut order).andThen fun ended =>
    .done (Answer.report ended.1, ended.2)) = _
  rw [hcarried, Program.andThen_assoc]
  rfl

/-- One message to two desks of one fleet: the fleet is asked the same, and the answer is the same
unless the table was asked for. -/
theorem answer_alike (world : World σ) {first second : Desk} (h : first.fleet = second.fleet)
    (message : Message) (s : σ) :
    let answered₁ := (first.answer message).run world s
    let answered₂ := (second.answer message).run world s
    Exchange.Alike ⟨message, answered₁.1.1, (first.answer message).log world s⟩
        ⟨message, answered₂.1.1, (second.answer message).log world s⟩ ∧
      answered₁.1.2.fleet = answered₂.1.2.fleet ∧ answered₁.2 = answered₂.2 := by
  cases message with
  | order order =>
    obtain ⟨kept₁, hkept₁, heq₁⟩ := first.answer_order order
    obtain ⟨kept₂, hkept₂, heq₂⟩ := second.answer_order order
    rw [heq₁, heq₂, h]
    simp only [Program.log_andThen, Program.run_andThen]
    exact ⟨⟨rfl, rfl, fun _ => rfl⟩, (hkept₁ _).trans (h.trans (hkept₂ _).symm), rfl⟩
  | observed => exact ⟨⟨rfl, rfl, fun hne => absurd rfl hne⟩, h, rfl⟩
  | resolve tokens =>
    have hsame : first.fleet.roster.resolve tokens = second.fleet.roster.resolve tokens := by rw [h]
    exact ⟨⟨rfl, rfl, fun _ => congrArg Answer.resolution hsame⟩, h, rfl⟩

/-- Two desks of one fleet answer any messages alike, and leave the world in one state. -/
theorem serve_alike (world : World σ) {first second : Desk} (h : first.fleet = second.fleet)
    (messages : List Message) (s : σ) :
    List.Forall₂ Exchange.Alike (first.serve world messages s).1
        (second.serve world messages s).1 ∧
      (first.serve world messages s).2.2 = (second.serve world messages s).2.2 := by
  induction messages generalizing first second s with
  | nil => exact ⟨.nil, rfl⟩
  | cons message rest ih =>
    obtain ⟨halike, hfleet, hstate⟩ := answer_alike world h message s
    obtain ⟨hall, hend⟩ := ih hfleet ((first.answer message).run world s).2
    rw [hstate] at hall hend
    unfold serve
    simp only [hstate]
    exact ⟨.cons halike hall, hend⟩

/-! ### The last sight of each host -/

/-- The table after a run is the last sight of each name: it is in order, has a name exactly when
some sweep of the run reported a snapshot of it, and its entries are those that tell what the last
such snapshot says. -/
structure TableIsLastSight (table : Observed) (exchanges : List Exchange) : Prop where
  ordered : table.Ordered
  mem_names : ∀ name, name ∈ table.names ↔
    ∃ e ∈ exchanges, ∃ snapshot ∈ e.sightings, snapshot.host = name
  mem_iff : ∀ name o, (name, o) ∈ table ↔
    ∃ snapshot, lastSeen (exchanges.flatMap Exchange.sightings) name = some snapshot ∧
      o.Tells snapshot

theorem Recalls.table {exchanges : List Exchange}
    (h : desk.Recalls (exchanges.flatMap Exchange.sightings)) :
    TableIsLastSight desk.observed exchanges where
  ordered := h.ordered
  mem_names name := by
    rw [h.ordered.mem_names_iff, h.get?_eq, ← Option.isSome_iff_exists, Option.isSome_map,
      lastSeen_isSome]
    simp only [List.mem_flatMap]
    constructor
    · rintro ⟨snapshot, ⟨e, he, hsnapshot⟩, hname⟩
      exact ⟨e, he, snapshot, hsnapshot, hname⟩
    · rintro ⟨e, he, snapshot, hsnapshot, hname⟩
      exact ⟨snapshot, ⟨e, he, hsnapshot⟩, hname⟩
  mem_iff name o := by
    rw [h.ordered.mem_iff, h.get?_eq, Option.map_eq_some_iff]
    simp only [Observation.tells_iff, eq_comm]

/-- In any world, over any messages:

* the table at the end is the last sight of each name, and so is the one that each question for it
  was answered with, which asked nothing of the fleet;
* messages of which none is a sweep leave the desk as it was;
* two desks of one fleet, whatever their tables hold, ask the same of the fleet for each message,
  answer the same but for questions for the table, and leave the world in the same state. -/
theorem observes_and_gates_nothing (fleet : Fleet) (world : World σ) (messages : List Message)
    (s : σ) :
    (let served := (new fleet).serve world messages s;
      TableIsLastSight served.2.1.observed served.1 ∧
        ∀ before e after, served.1 = before ++ e :: after → e.message = .observed →
          e.log = [] ∧ ∃ table, e.answer = .observed table ∧ TableIsLastSight table before) ∧
      (∀ desk : Desk, (∀ message ∈ messages, ∀ targets, message ≠ .order (.sweep targets)) →
        (desk.serve world messages s).2.1 = desk) ∧
      ∀ first second : Desk, first.fleet = second.fleet →
        List.Forall₂ Exchange.Alike (first.serve world messages s).1
            (second.serve world messages s).1 ∧
          (first.serve world messages s).2.2 = (second.serve world messages s).2.2 := by
  refine ⟨⟨(serve_recalls world (new_recalls fleet) messages s).table, ?_⟩, ?_, ?_⟩
  · intro before e after hserved hquestion
    obtain ⟨mid, hmid, later, hanswer⟩ := (new_recalls fleet).split world hserved
    rw [hquestion] at hanswer
    obtain ⟨_, _, hne, -⟩ | ⟨-, hlog, htable, -⟩ | ⟨_, hne, -⟩ := answer_cases hanswer
    · cases hne
    · exact ⟨hlog, mid.observed, htable, hmid.table⟩
    · cases hne
  · exact fun desk hnone => serve_unchanged world hnone s
  · exact fun first second hfleet => serve_alike world hfleet messages s

end Desk

end NodeFleet
