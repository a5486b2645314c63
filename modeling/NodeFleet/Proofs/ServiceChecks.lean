import NodeFleet.Proofs.Sightings
import NodeFleet.Proofs.Snapshots

/-!
# NodeFleet.Proofs.ServiceChecks — which services stand behind a snapshot

The main host is asked for one service after the other, and each answer is noted at once.  A session
that breaks leaves the services that were checked by then, and the table takes them for all: it
calls the services detected when those that were checked are present, however many were not.

* `Log.serviceChecks`: the checks that were answered.
* `Fleet.AsksThrough.checks`: services that are checked one after the other.
* `Fleet.ChecksInTurn`: what a look at a host comes to.
* `Fleet.Looked`: what the snapshot of a look says of the services.
* `Fleet.sweep_looks`: a sweep is one look after the other.  `Fleet.ReportsLooks`: so is what it
  adds to the table.
* `Desk.services_detected_iff`: what the table says, over any messages in any world.
* `Desk.services_detected_unchecked`: it calls services detected of which one was never checked.
-/

namespace NodeFleet

/-! ## Checks -/

/-- The check that an answered question for a process is. -/
def Event.serviceCheck? : Event → Option ServiceCheck
  | ⟨.run _ ⟨_, .findProcess name⟩, .ok reply⟩ => some ⟨name, processFound reply⟩
  | _ => none

/-- The checks that were answered, in order. -/
def Log.serviceChecks (l : Log) : List ServiceCheck := l.filterMap Event.serviceCheck?

theorem serviceChecks_append {l₁ l₂ : Log} :
    Log.serviceChecks (l₁ ++ l₂) = l₁.serviceChecks ++ l₂.serviceChecks :=
  List.filterMap_append

theorem serviceChecks_session {host : Host} {l : Log} :
    Log.serviceChecks (Log.session host l) = l.serviceChecks := filterMap_session rfl rfl

/-- The checks are what the answers say of processes. -/
theorem answers_checks (l : Log) : l.answers.filterMap Answered.check? = l.serviceChecks := by
  refine List.filterMap_filterMap.trans (List.filterMap_congr fun ⟨request, answer⟩ _ => ?_)
  cases request with
  | run host command =>
    obtain ⟨daemon, task⟩ := command
    cases answer with
    | error cause => cases task <;> rfl
    | ok reply => cases task <;> rfl
  | _ => rfl

/-! ## Checks in a look -/

namespace Fleet

variable (fleet : Fleet) {host : Host} {l : Log}

/-- The question for a service breaks the session. -/
def BreaksAt (host : Host) (service : String) (l : Log) : Prop :=
  ∃ cause, ⟨.run host (fleet.command (.findProcess service)), .error cause⟩ ∈ l

/-- What a look at a host comes to: its services are those that were checked, only the main host is
asked for any, and where one of them was not checked the session broke at it, unless none was
checked at all. -/
structure ChecksInTurn (host : Host) (services : List ServiceCheck) (l : Log) : Prop where
  services_eq : services = l.serviceChecks
  others : host.role ≠ .main → l.serviceChecks = []
  main : host.role = .main → ∃ rest,
    fleet.config.mainServices = l.serviceChecks.map ServiceCheck.name ++ rest ∧
      (rest = [] ∨ l.serviceChecks = [] ∨ ∃ next more, rest = next :: more ∧
        fleet.BreaksAt host next l)

/-- Where nothing is checked and nothing noted. -/
theorem checksInTurn_none (h : l.serviceChecks = []) : fleet.ChecksInTurn host [] l where
  services_eq := h.symm
  others _ := h
  main _ := ⟨fleet.config.mainServices, by rw [h]; rfl, .inr (.inl h)⟩

variable {fleet}

/-- What is asked besides does not matter, if it is no check. -/
theorem ChecksInTurn.mono {services : List ServiceCheck} {l' : Log}
    (h : fleet.ChecksInTurn host services l) (hchecks : l'.serviceChecks = l.serviceChecks)
    (hsub : l ⊆ l') : fleet.ChecksInTurn host services l' := by
  refine ⟨h.services_eq.trans hchecks.symm, fun hrole => hchecks.trans (h.others hrole), ?_⟩
  intro hrole
  obtain ⟨rest, hall, hend⟩ := h.main hrole
  rw [hchecks]
  refine ⟨rest, hall, hend.imp id (Or.imp id fun ⟨next, more, hrest, cause, hbroken⟩ => ?_)⟩
  exact ⟨next, more, hrest, cause, hsub hbroken⟩

/-- Questions that ask for no process check nothing. -/
theorem AsksThrough.unchecked {tasks : List Task} {whole : Bool}
    (h : fleet.AsksThrough host tasks l whole)
    (hnone : ∀ task ∈ tasks, ∀ name, task ≠ .findProcess name) : l.serviceChecks = [] := by
  refine List.filterMap_eq_nil_iff.mpr fun ⟨request, answer⟩ he => ?_
  obtain ⟨task, hm, rfl⟩ := h.of_mem he
  have hother := hnone task hm
  cases task
  case findProcess name => exact absurd rfl (hother name)
  all_goals rfl

/-- The services are checked one after the other, until the session breaks. -/
theorem AsksThrough.checks {services : List String} {whole : Bool}
    (h : fleet.AsksThrough host (services.map .findProcess) l whole) :
    ∃ rest, services = l.serviceChecks.map ServiceCheck.name ++ rest ∧
      ((whole = true ∧ rest = []) ∨
        ∃ next more, whole = false ∧ rest = next :: more ∧ fleet.BreaksAt host next l) := by
  -- service by service; a check is made unless the session breaks at it
  induction services generalizing l with
  | nil =>
    cases h
    exact ⟨[], rfl, .inl ⟨rfl, rfl⟩⟩
  | cons name services ih =>
    cases h with
    | @next _ answer _ l _ hanswered hasked =>
      cases answer with
      | error cause => exact hanswered.elim
      | ok reply =>
        obtain ⟨rest, rfl, hend⟩ := ih hasked
        refine ⟨rest, rfl, hend.imp id fun ⟨next, more, hwhole, hrest, cause, hbroken⟩ => ?_⟩
        exact ⟨next, more, hwhole, hrest, cause, List.mem_cons_of_mem _ hbroken⟩
    | @stop _ answer _ hfails =>
      cases answer with
      | error cause =>
        exact ⟨name :: services, rfl, .inr ⟨name, services, rfl, rfl, cause, List.mem_cons_self⟩⟩
      | ok reply => exact absurd trivial hfails

/-- The main host is asked for its services after its uptime, and for its daemon after all of
them. -/
theorem AsksThrough.checks_main {whole : Bool} (hrole : host.role = .main)
    (h : fleet.AsksThrough host (fleet.questions host) l whole) : ∃ rest,
      fleet.config.mainServices = l.serviceChecks.map ServiceCheck.name ++ rest ∧
        (rest = [] ∨ l.serviceChecks = [] ∨ ∃ next more, rest = next :: more ∧
          fleet.BreaksAt host next l) := by
  have hasked : fleet.AsksThrough host
      ([.uptime] ++ (fleet.config.mainServices.map .findProcess ++ [.status])) l whole := by
    unfold questions at h
    rwa [if_pos hrole] at h
  have huptime {l : Log} {whole : Bool} (h : fleet.AsksThrough host [.uptime] l whole) :
      l.serviceChecks = [] := h.unchecked (by simp)
  -- the session breaks at the question before, among the checks, or not before their end
  obtain ⟨-, hfirst⟩ | ⟨l₁, asked, rfl, hfirst, hlater⟩ := hasked.append_cases
  · have hnone := huptime hfirst
    exact ⟨fleet.config.mainServices, by rw [hnone]; rfl, .inr (.inl hnone)⟩
  rw [serviceChecks_append, huptime hfirst, List.nil_append]
  obtain ⟨-, hchecked⟩ | ⟨l₂, l₃, rfl, hchecked, hstatus⟩ := hlater.append_cases
  · obtain ⟨rest, hall, ⟨heq, -⟩ | ⟨next, more, -, hrest, cause, hbroken⟩⟩ := hchecked.checks
    · cases heq
    · have hbreaks := List.mem_append_right l₁ hbroken
      exact ⟨rest, hall, .inr (.inr ⟨next, more, hrest, cause, hbreaks⟩)⟩
  · obtain ⟨rest, hall, ⟨-, hnone⟩ | ⟨_, _, heq, -⟩⟩ := hchecked.checks
    · rw [serviceChecks_append, hstatus.unchecked (by simp), List.append_nil]
      exact ⟨rest, hall, .inl hnone⟩
    · cases heq

theorem AsksThrough.checksInTurn {whole : Bool}
    (h : fleet.AsksThrough host (fleet.questions host) l whole) :
    fleet.ChecksInTurn host l.serviceChecks l where
  services_eq := rfl
  others hrole := by
    unfold questions at h
    rw [if_neg hrole] at h
    exact h.unchecked (by simp)
  main hrole := h.checks_main hrole

theorem IsVisit.checksInTurn (h : fleet.IsVisit host l) :
    fleet.ChecksInTurn host l.serviceChecks l := by
  obtain ⟨cause, rfl⟩ | ⟨inner, whole, rfl, hasked⟩ := h
  · exact fleet.checksInTurn_none rfl
  · rw [serviceChecks_session]
    refine hasked.checksInTurn.mono serviceChecks_session fun e he => ?_
    exact mem_session.mpr (.inr (.inl he))

theorem IsLookAt.checksInTurn (h : fleet.IsLookAt host l) :
    fleet.ChecksInTurn host l.serviceChecks l := by
  obtain ⟨visited, pings, rfl, hvisit, hpings⟩ := h
  have hnone : pings.serviceChecks = [] := by
    split at hpings
    · obtain ⟨alive, rfl⟩ := hpings
      rfl
    · rw [hpings]
      rfl
  have hchecks : Log.serviceChecks (visited ++ pings) = visited.serviceChecks := by
    rw [serviceChecks_append, hnone, List.append_nil]
  rw [hchecks]
  exact hvisit.checksInTurn.mono hchecks (List.subset_append_left visited pings)

end Fleet

/-! ## Sweeps -/

/-- A look at a host of the fleet, whose snapshot has the services that were checked. -/
structure Fleet.Looked (fleet : Fleet) (hosts : List Host) (look : Look) : Prop where
  host_mem : look.host ∈ hosts
  subject : look.snapshot.host = look.host.name
  checks : fleet.ChecksInTurn look.host look.snapshot.services look.log

namespace Fleet

variable (fleet : Fleet) {hosts : List Host} {l : Log}

variable {fleet} in
/-- A look that is taken at one of the hosts. -/
theorem Takes.looked {look : Look} (h : fleet.Takes look) (hm : look.host ∈ hosts) :
    fleet.Looked hosts look := by
  have hservices : look.snapshot.services = look.log.serviceChecks := by
    rw [h.sees.snapshot_eq]
    exact answers_checks look.log
  refine ⟨hm, congrArg Prod.fst h.subject, ?_⟩
  rw [hservices]
  exact h.sees.asked.checksInTurn

/-- A sweep is one look after the other. -/
theorem sweep_looks {report : Report} (h : (fleet.sweep hosts).Yields l report) :
    ∃ looks : List Look, (∀ look ∈ looks, fleet.Looked hosts look) ∧
      report.snapshots = looks.map Look.snapshot ∧ l.withoutWaits = looks.flatMap Look.log := by
  obtain ⟨looks, htaken, hsnapshots, hlog, hstart, -⟩ := fleet.sweep_takes h
  refine ⟨looks, fun look hm => (htaken look hm).looked ?_, hsnapshots, hlog⟩
  exact hstart.subset (List.mem_map_of_mem hm)

/-! ## Messages -/

/-- A message with the looks that were taken for it; only a sweep takes any. -/
structure ReportsLooks (e : Exchange) (looks : List Look) : Prop where
  looked : ∀ look ∈ looks, fleet.Looked fleet.roster.entries look
  sightings : e.sightings = looks.map Look.snapshot
  log_eq : ∀ targets, e.message = .order (.sweep targets) →
    e.log.withoutWaits = looks.flatMap Look.log

variable {fleet}

theorem Looked.mono {hosts' : List Host} {look : Look} (h : fleet.Looked hosts look)
    (hsub : hosts ⊆ hosts') : fleet.Looked hosts' look :=
  ⟨hsub h.host_mem, h.subject, h.checks⟩

theorem reportsLooks_none {e : Exchange} (h : ∀ targets, e.message ≠ .order (.sweep targets)) :
    fleet.ReportsLooks e [] where
  looked _ hm := absurd hm List.not_mem_nil
  sightings := by
    unfold Exchange.sightings
    split
    · rename_i targets _ hmessage _
      exact absurd hmessage (h targets)
    · rfl
  log_eq targets hmessage := absurd hmessage (h targets)

/-- The order to sweep takes looks at hosts of the fleet, whatever the tokens. -/
theorem sweepOrder_looks {targets : List String} {report : Report}
    (h : (fleet.program (.sweep targets)).Yields l report) :
    ∃ looks, fleet.ReportsLooks ⟨.order (.sweep targets), .report report, l⟩ looks := by
  have hprogram : (fleet.onTargets .statusSweep targets fleet.roster.all fleet.sweep).Yields l
      report := h
  unfold Fleet.onTargets at hprogram
  split at hprogram
  · rename_i hosts hselect
    obtain ⟨looks, hlooked, hsnapshots, hlog⟩ := fleet.sweep_looks hprogram
    refine ⟨looks, fun look hm => (hlooked look hm).mono fun host hhost => ?_, hsnapshots, ?_⟩
    · exact List.mem_of_find?_eq_some (Roster.select_first hselect hhost)
    · exact fun _ _ => hlog
  · obtain ⟨rfl, rfl⟩ := Program.yields_pure.mp hprogram
    exact ⟨[], fun _ hm => absurd hm List.not_mem_nil, rfl, fun _ _ => rfl⟩

/-- The one host that is asked for services is the main one. -/
theorem eq_main_of_role {host : Host} (hm : host ∈ fleet.roster.entries)
    (hrole : host.role = .main) : host = fleet.roster.main := by
  obtain ⟨-, masternodes, staking, wallets, hothers, hmasternodes, hstaking, hwallets⟩ :=
    Roster.ofConfig_roles fleet.ofConfig_config
  obtain rfl | hother := List.mem_cons.mp hm
  · rfl
  · rw [hothers] at hother
    obtain hin | hin := List.mem_append.mp hother
    · obtain hin | hin := List.mem_append.mp hin
      · cases hrole.symm.trans (hmasternodes host hin)
      · cases hrole.symm.trans (hstaking host hin)
    · cases hrole.symm.trans (hwallets host hin)

variable (fleet) in
/-- What it takes for the services to count as detected: the look was at the main host, at least one
service was checked, all that were checked are present, and they are the first of the configured
ones, up to all of them or up to one at which the session broke. -/
def Detects (look : Look) : Prop :=
  look.host = fleet.roster.main ∧ ∃ checked rest, fleet.config.mainServices = checked ++ rest ∧
    checked ≠ [] ∧ look.log.serviceChecks = checked.map (⟨·, true⟩) ∧
      (rest = [] ∨ ∃ next more, rest = next :: more ∧ fleet.BreaksAt look.host next look.log)

theorem detected_iff {look : Look} (h : fleet.Looked fleet.roster.entries look) :
    (Observation.ofSnapshot look.snapshot).servicesDetected? = some true ↔ fleet.Detects look := by
  -- services count as detected when some were checked and all of those are there
  have hflag : (Observation.ofSnapshot look.snapshot).servicesDetected? = some true ↔
      look.log.serviceChecks ≠ [] ∧ ∀ check ∈ look.log.serviceChecks, check.present = true := by
    rw [← h.checks.services_eq]
    unfold Observation.ofSnapshot
    cases look.snapshot.services with
    | nil => simp
    | cons check rest => simp
  rw [hflag]
  constructor
  · rintro ⟨hsome, hpresent⟩
    have hrole : look.host.role = .main :=
      Decidable.of_not_not fun hrole => hsome (h.checks.others hrole)
    obtain ⟨rest, hall, hend⟩ := h.checks.main hrole
    refine ⟨eq_main_of_role h.host_mem hrole, _, rest, hall, ?_, ?_, ?_⟩
    · exact fun hnil => hsome (List.map_eq_nil_iff.mp hnil)
    · rw [List.map_map]
      refine ((List.map_congr_left fun check hm => ?_).trans (List.map_id _)).symm
      exact congrArg (ServiceCheck.mk check.name) (hpresent check hm).symm
    · exact hend.imp id fun hend => hend.resolve_left hsome
  · rintro ⟨-, checked, rest, -, hsome, hchecks, -⟩
    rw [hchecks]
    refine ⟨fun hnil => hsome (List.map_eq_nil_iff.mp hnil), fun check hm => ?_⟩
    obtain ⟨_, -, rfl⟩ := List.mem_map.mp hm
    rfl

end Fleet

namespace Desk

variable {σ : Type} {desk later : Desk} {l : Log} {message : Message} {reply : Answer}

/-- One message leaves the fleet as it is, and takes looks if it is the order to sweep. -/
theorem answer_looks (h : (desk.answer message).Yields l (reply, later)) :
    later.fleet = desk.fleet ∧ ∃ looks, desk.fleet.ReportsLooks ⟨message, reply, l⟩ looks := by
  obtain ⟨order, report, rfl, rfl, hout⟩ | ⟨rfl, -, -, rfl⟩ | ⟨tokens, rfl, -, -, rfl⟩ :=
    answer_cases h
  · obtain ⟨hprogram, ⟨⟨targets, rfl⟩, rfl⟩ | ⟨hother, rfl⟩⟩ := carryOut_cases hout
    · exact ⟨rfl, Fleet.sweepOrder_looks hprogram⟩
    · exact ⟨rfl, [], Fleet.reportsLooks_none fun targets heq => by cases heq; exact hother _ rfl⟩
  · exact ⟨rfl, [], Fleet.reportsLooks_none nofun⟩
  · exact ⟨rfl, [], Fleet.reportsLooks_none nofun⟩

theorem serve_looks (world : World σ) (desk : Desk) (messages : List Message) (s : σ) :
    ∃ looks, List.Forall₂ desk.fleet.ReportsLooks (desk.serve world messages s).1 looks := by
  induction messages generalizing desk s with
  | nil => exact ⟨[], .nil⟩
  | cons message rest ih =>
    obtain ⟨hfleet, looks, hlooks⟩ :=
      answer_looks (Program.yields_log world (desk.answer message) s)
    obtain ⟨others, hothers⟩ := ih ((desk.answer message).run world s).1.2
      ((desk.answer message).run world s).2
    rw [hfleet] at hothers
    exact ⟨looks :: others, .cons hlooks hothers⟩

section Looks

variable {fleet : Fleet} {exchanges : List Exchange} {looks : List (List Look)}

/-- The sightings are those of the looks, each a look at a host of the fleet. -/
theorem sightings_looks (h : List.Forall₂ fleet.ReportsLooks exchanges looks) :
    exchanges.flatMap Exchange.sightings = looks.flatten.map Look.snapshot ∧
      ∀ look ∈ looks.flatten, fleet.Looked fleet.roster.entries look := by
  induction h with
  | nil => exact ⟨rfl, fun _ hm => absurd hm List.not_mem_nil⟩
  | cons hone _ ih =>
    rw [List.flatMap_cons, hone.sightings, ih.1, List.flatten_cons, List.map_append]
    exact ⟨rfl, List.forall_mem_append.mpr ⟨hone.looked, ih.2⟩⟩

/-- What was seen last of a name is what the last look at a host of that name saw. -/
theorem lastSeen_looks (h : List.Forall₂ fleet.ReportsLooks exchanges looks) (name : String) :
    lastSeen (exchanges.flatMap Exchange.sightings) name =
      (looks.flatten.filter (·.host.name == name)).getLast?.map Look.snapshot := by
  obtain ⟨hseen, hlooked⟩ := sightings_looks h
  unfold lastSeen
  rw [hseen, List.filter_map, List.getLast?_map]
  congr 2
  exact List.filter_congr fun look hm => by simp [(hlooked look hm).subject]

end Looks

/-- In any world, over any messages, the entry of a name in the table is what the last look at a
host of that name saw; and it calls the services detected exactly when that look was at the main
host and found the first configured services present, at least one of them, up to all of them or up
to one at which the session broke. -/
theorem services_detected_iff (fleet : Fleet) (world : World σ) (messages : List Message) (s : σ) :
    let served := (new fleet).serve world messages s
    ∃ looks, List.Forall₂ fleet.ReportsLooks served.1 looks ∧
      ∀ name o, (name, o) ∈ served.2.1.observed → ∃ look,
        (looks.flatten.filter (·.host.name == name)).getLast? = some look ∧
          o.Tells look.snapshot ∧ (o.servicesDetected? = some true ↔ fleet.Detects look) := by
  intro served
  obtain ⟨looks, hlooks⟩ := serve_looks world (new fleet) messages s
  refine ⟨looks, hlooks, fun name o hm => ?_⟩
  obtain ⟨snapshot, hlast, htells⟩ :=
    ((serve_recalls world (new_recalls fleet) messages s).table.mem_iff name o).mp hm
  rw [lastSeen_looks hlooks] at hlast
  obtain ⟨look, hlook, rfl⟩ := Option.map_eq_some_iff.mp hlast
  have hmem : look ∈ looks.flatten := (List.mem_filter.mp (List.mem_of_getLast? hlook)).1
  have hlooked := (sightings_looks hlooks).2 look hmem
  refine ⟨look, hlook, htells, ?_⟩
  rw [Observation.tells_iff.mp htells]
  exact Fleet.detected_iff hlooked

end Desk

/-- The world, but sessions break at the command for this task. -/
def World.breakingAt {σ : Type} (task : Task) (world : World σ) : World σ
  | .run host command, s =>
    if command.task = task then (.error (.channelBroken "connection reset"), s)
    else world (.run host command) s
  | r, s => world r s

namespace Desk

/-- A session that breaks at the second of two services leaves the services detected, although for
the second no answer ever came. -/
theorem services_detected_unchecked :
    ∃ service ∈ Fleet.pair.config.mainServices,
      let served := (new Fleet.pair).serve
        (World.breakingAt (.findProcess service) (World.replying fun _ _ =>
          "  812 ?        00:04:11 mongo")) [.order (.sweep ["stake"])] ()
      (served.2.1.observed.get? Fleet.pair.roster.main.name).bind (·.servicesDetected?) =
          some true ∧
        ∀ e ∈ served.1, service ∉ e.log.serviceChecks.map ServiceCheck.name :=
  ⟨"node", by decide +kernel⟩

end Desk

end NodeFleet
