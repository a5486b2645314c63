import NodeFleet.Proofs.Looks

/-!
# NodeFleet.Proofs.Snapshots — a snapshot says what the host has answered

A look at a host is a visit, and for the main host a ping where that is asked for.  The snapshot of
the host is what the answers in the look say: a host that could not be reached has said nothing, and
one whose session broke has said what it was asked by then.

* `Fleet.IsVisit`, `Fleet.IsLookAt`: what is asked in a look at a host.
* `Fleet.Sees`: what is seen in a look.  `Takes.sees`: so it is in every look that is taken.
* `Fleet.sweep_sights`: the looks of a sweep, and what its report says.
-/

namespace NodeFleet

namespace Fleet

variable (fleet : Fleet) {host : Host} {l : Log}

/-! ## Looks -/

/-- A visit: the host cannot be reached, or its questions are asked in a session of its own, one
after the other until the session breaks. -/
def IsVisit (host : Host) (l : Log) : Prop :=
  (∃ cause, l = Log.refused host cause) ∨
    ∃ inner whole, l = Log.session host inner ∧
      fleet.AsksThrough host (fleet.questions host) inner whole

/-- What is asked in a look at a host: a visit, and then a ping of the main host, where that is
asked for. -/
def IsLookAt (host : Host) (l : Log) : Prop :=
  ∃ visit pings, l = visit ++ pings ∧ fleet.IsVisit host visit ∧
    if host.role = .main ∧ fleet.pings then ∃ alive, pings = [⟨.ping host.address, alive⟩]
    else pings = []

/-- A look sees what its log says of the host; where no session was opened, that is nothing but what
came of a ping.  A daemon that is no active masternode is a defect or worth a note, and not both. -/
structure Sees (look : Look) : Prop where
  asked : fleet.IsLookAt look.host look.log
  snapshot_eq : look.snapshot = look.log.sight look.host
  apart : "not an active masternode" ∈ look.snapshot.defects → look.snapshot.notes = []
  unreached : look.snapshot.reachable = false → ∃ pong?, look.snapshot =
    { Snapshot.unseen look.host with
      ping? := pong?
      defects := if pong? = some false then ["no ping reply"] else [] }

variable {fleet}

theorem IsVisit.pongs (h : fleet.IsVisit host l) : l.pongs = [] := by
  obtain ⟨cause, rfl⟩ | ⟨inner, whole, rfl, hasked⟩ := h
  · rfl
  · exact (filterMap_session rfl rfl).trans hasked.pongs

/-- A ping adds what came of it. -/
theorem sight_ping (h : l.pongs = []) (alive : Bool) :
    Log.sight host (l ++ [⟨.ping host.address, alive⟩]) = (l.sight host).notePing alive := by
  have hopens : (l ++ [(⟨.ping host.address, alive⟩ : Event)]).any Event.opens =
      l.any Event.opens := by
    rw [List.any_append]
    exact Bool.or_false _
  have hanswers : Log.answers (l ++ [⟨.ping host.address, alive⟩]) = l.answers :=
    List.filterMap_append.trans (List.append_nil _)
  have hpongs : Log.pongs (l ++ [⟨.ping host.address, alive⟩]) = [alive] :=
    List.filterMap_append.trans (congrArg (· ++ [alive]) h)
  unfold Log.sight
  rw [hopens, hanswers, hpongs, h, Snapshot.ofAnswers_pong]

/-- A look that is taken sees what its log says. -/
theorem Takes.sees {look : Look} (h : fleet.Takes look) : fleet.Sees look := by
  obtain ⟨visited, pings, result, seen, hlog, hvisit, hping⟩ := h
  obtain ⟨rfl, hended⟩ := visit_cases hvisit
  have hvisited : fleet.IsVisit look.host visited := by
    obtain ⟨cause, heq, -⟩ | ⟨inner, heq, -, hasked, -⟩ := hended
    · exact .inl ⟨cause, heq⟩
    · exact .inr ⟨inner, _, heq, hasked⟩
  have hunreached (hnone : (visited.sight look.host).reachable = false) :
      visited.sight look.host = Snapshot.unseen look.host := by
    obtain ⟨cause, rfl⟩ | ⟨inner, whole, rfl, -⟩ := hvisited
    · rfl
    · cases hnone
  have hapart (hsight : look.snapshot = look.log.sight look.host) :
      "not an active masternode" ∈ look.snapshot.defects → look.snapshot.notes = [] := by
    rw [hsight]
    exact Snapshot.ofAnswers_apart
  -- a ping comes after the visit, and is not made to every host
  obtain ⟨hrole, hpings, alive, rfl, hsnapshot⟩ | ⟨hnever, rfl, hsnapshot⟩ := pinged_cases hping
  · have hshape : fleet.IsLookAt look.host look.log :=
      ⟨visited, _, hlog, hvisited, by rw [if_pos ⟨hrole, hpings⟩]; exact ⟨alive, rfl⟩⟩
    have hsight : look.snapshot = look.log.sight look.host := by
      rw [hlog, sight_ping hvisited.pongs, hsnapshot]
    refine ⟨hshape, hsight, hapart hsight, fun hnone => ⟨some alive, ?_⟩⟩
    rw [hsnapshot] at hnone ⊢
    rw [hunreached (by cases alive <;> exact hnone)]
    cases alive <;> rfl
  · rw [List.append_nil] at hlog
    have hshape : fleet.IsLookAt look.host look.log :=
      ⟨visited, [], by rw [hlog, List.append_nil], hvisited, by rw [if_neg hnever]⟩
    have hsight : look.snapshot = look.log.sight look.host := by rw [hsnapshot, hlog]
    refine ⟨hshape, hsight, hapart hsight, fun hnone => ⟨none, ?_⟩⟩
    rw [hsnapshot] at hnone ⊢
    exact hunreached hnone

/-- A sweep of any hosts, whatever is answered, is one look after the other, with waits in between,
and its report has what the looks have seen.  In a look the host is asked its questions in their
order until the session breaks, and the main host is pinged where that is asked for; the snapshot is
what the answers say, and where the host could not be reached nothing but what came of the ping. -/
theorem sweep_sights {σ : Type} (fleet : Fleet) (hosts : List Host) (world : World σ) (s : σ) :
    let report := ((fleet.sweep hosts).run world s).1
    ∃ looks : List Look, (∀ look ∈ looks, fleet.Sees look) ∧
      report.snapshots = looks.map Look.snapshot ∧
      ((fleet.sweep hosts).log world s).withoutWaits = looks.flatMap Look.log ∧
      looks.map Look.host <+: hosts ∧
      (report.outcome = .completed → looks.map Look.host = hosts) := by
  intro report
  obtain ⟨looks, htaken, hrest⟩ := fleet.sweep_takes (Program.yields_log world _ s)
  exact ⟨looks, fun look hm => (htaken look hm).sees, hrest⟩

end Fleet

end NodeFleet
