import Mathlib.Data.List.Induction
import NodeFleet.Proofs.Sequences

/-!
# NodeFleet.Proofs.Answers — what a host is asked in a look, and what its answers say

A host is asked for its uptime, and then the main host for its services and its daemon, and any
other for its masternode status and its balance, until the session breaks.  Each answer says
something of its own; what is noted of the host is what all its answers say, and nothing else.

* `Answered`: a question with its answer.  `DaemonState`: what an answer says of the daemon.
* `Snapshot.ofAnswers`, `Log.sight`: what the answers in a log come to.
* `Snapshot.foldl_hear`: notes that are taken one by one are what all the answers say.
* `Inspection.Ends`: how a part of a look can end.
* `Fleet.questions`: what a host is asked.  `inspect_eq`: a look asks one question after the other.
* `Fleet.visit_cases`, `Fleet.pinged_cases`: all that can come of a visit, and of a ping.
-/

namespace NodeFleet

/-! ## What answers say -/

/-- A question with the answer to it. -/
structure Answered where
  task : Task
  reply : Reply

/-- What an answer says of the state of the daemon. -/
inductive DaemonState where
  | up
  | down
  | unreadable
  /-- The daemon is up, but no active masternode. -/
  | inactive
  deriving DecidableEq

namespace DaemonState

/-- What the answer on its status says of the daemon. -/
def ofStatus (reply : Reply) : DaemonState :=
  if reply.isBlank then unreadable
  else if Text.mentions "error" reply.text || Text.mentions "couldn't connect" reply.text then down
  else up

/-- What the answer on its masternode status says of the daemon. -/
def ofMasternodeStatus (reply : Reply) : DaemonState :=
  if reply.isBlank || Text.mentions "couldn't connect to server" reply.text then down
  else if Text.mentions "error" reply.text then inactive
  else up

/-- Whether the daemon runs, where that can be told. -/
def running? : DaemonState → Option Bool
  | up | inactive => some true
  | down => some false
  | unreadable => none

/-- What is wrong with a host under a role. -/
def defects (role : Role) : DaemonState → List String
  | up => []
  | down => ["daemon not running"]
  | unreadable => ["daemon status unreadable"]
  | inactive => if role = .masternode then ["not an active masternode"] else []

/-- What is worth knowing of a host under a role, and not wrong. -/
def notes (role : Role) : DaemonState → List String
  | inactive => if role = .masternode then [] else ["not an active masternode"]
  | _ => []

end DaemonState

namespace Answered

/-- Whether a process was found: its listing has more than 21 characters. -/
def check? : Answered → Option ServiceCheck
  | ⟨.findProcess name, reply⟩ => some ⟨name, 21 < (Text.trim reply.text).length⟩
  | _ => none

/-- The state of the daemon. -/
def state? : Answered → Option DaemonState
  | ⟨.status, reply⟩ => some (.ofStatus reply)
  | ⟨.masternodeStatus, reply⟩ => some (.ofMasternodeStatus reply)
  | _ => none

/-- The balance: the first line that is not blank, where it is a number. -/
def balance? : Answered → Option Amount
  | ⟨.balance, reply⟩ => reply.firstLine?.bind Amount.read?
  | _ => none

/-- The answer to a question. -/
def replyTo? (task : Task) (a : Answered) : Option Reply :=
  if a.task = task then some a.reply else none

/-- What an answer says is wrong with a host under a role. -/
def defects (role : Role) (a : Answered) : List String :=
  ((a.check?.filter (!·.present)).map (·.name ++ " not running")).toList ++
    (a.state?.map (DaemonState.defects role)).getD []

/-- What an answer says is worth knowing of a host under a role. -/
def notes (role : Role) (a : Answered) : List String :=
  (a.state?.map (DaemonState.notes role)).getD []

variable {role : Role} {a : Answered}

/-- It is a defect of masternodes only to be no active masternode. -/
theorem role_of_inactive (h : "not an active masternode" ∈ a.defects role) :
    role = .masternode := by
  obtain h | h := List.mem_append.mp h
  · obtain ⟨check, -, heq⟩ := Option.map_eq_some_iff.mp (Option.mem_toList.mp h)
    have hlast := congrArg (·.toList.getLast?) heq
    simp [String.toList_append] at hlast
  · cases hstate : a.state? with
    | none =>
      rw [hstate] at h
      cases h
    | some state =>
      rw [hstate] at h
      cases state <;> simp_all [DaemonState.defects]

/-- Nothing is worth a note of a masternode: what is not in order there is a defect. -/
theorem notes_masternode : a.notes .masternode = [] := by
  unfold notes
  cases a.state? with
  | none => rfl
  | some state => cases state <;> rfl

end Answered

/-- The question, and the answer, of an event. -/
def Event.answered? : Event → Option Answered
  | ⟨.run _ command, .ok reply⟩ => some ⟨command.task, reply⟩
  | _ => none

/-- The answer to a ping. -/
def Event.pong? : Event → Option Bool
  | ⟨.ping _, alive⟩ => some alive
  | _ => none

/-- The event opens a session. -/
def Event.opens : Event → Bool
  | ⟨.connect _, .ok _⟩ => true
  | _ => false

/-- The questions that were answered, with the answers. -/
def Log.answers (l : Log) : List Answered := l.filterMap Event.answered?

/-- The answers to pings. -/
def Log.pongs (l : Log) : List Bool := l.filterMap Event.pong?

/-- The last answer to a question. -/
def lastReply? (task : Task) (answers : List Answered) : Option Reply :=
  (answers.filterMap (Answered.replyTo? task)).getLast?

/-- What a host's answers, to questions and to pings, say of it. -/
def Snapshot.ofAnswers (host : Host) (reached : Bool) (answers : List Answered)
    (pongs : List Bool) : Snapshot where
  host := host.name
  address := host.address
  role := host.role
  reachable := reached
  uptime? := (lastReply? .uptime answers).bind Reply.firstLine?
  services := answers.filterMap Answered.check?
  daemonRunning? := (answers.filterMap fun a => a.state?.bind DaemonState.running?).getLast?
  daemonStatus? := (lastReply? .status answers).map Reply.text
  masternodeStatus? := (lastReply? .masternodeStatus answers).map Reply.text
  balance? := (answers.filterMap Answered.balance?).getLast?
  ping? := pongs.getLast?
  defects := answers.flatMap (Answered.defects host.role) ++
    pongs.flatMap fun alive => if alive then [] else ["no ping reply"]
  notes := answers.flatMap (Answered.notes host.role)

/-- What a log says of a host: whether a session was opened, and what was answered. -/
def Log.sight (host : Host) (l : Log) : Snapshot :=
  .ofAnswers host (l.any Event.opens) l.answers l.pongs

/-! ## Notes -/

namespace Snapshot

variable {host : Host} {reached : Bool} {answers : List Answered} {s : Snapshot}

/-- What is noted of an answer. -/
def hear (s : Snapshot) : Answered → Snapshot
  | ⟨.uptime, reply⟩ => { s with uptime? := reply.firstLine? }
  | ⟨.findProcess name, reply⟩ => s.noteService name (processFound reply)
  | ⟨.status, reply⟩ =>
    { s with daemonStatus? := some reply.text }.noteDaemon (ReplyKind.status.read reply)
  | ⟨.masternodeStatus, reply⟩ =>
    { s with masternodeStatus? := some reply.text }.noteMasternode
      (ReplyKind.masternodeStatus.read reply)
  | ⟨.balance, reply⟩ => s.noteBalance (ReplyKind.balance.read reply)
  | _ => s

/-- What is noted of the state of the daemon. -/
def noteState (s : Snapshot) (state : DaemonState) : Snapshot :=
  { s with
    daemonRunning? := state.running?.or s.daemonRunning?
    defects := s.defects ++ state.defects s.role
    notes := s.notes ++ state.notes s.role }

theorem noteDaemon_unreadable (text : String) :
    s.noteDaemon (.unrecognized text) = s.noteState .unreadable := by
  simp [noteDaemon, noteState, addDefect, DaemonState.running?, DaemonState.defects,
    DaemonState.notes]

theorem noteDaemon_running (up : Bool) :
    s.noteDaemon (.running up) = s.noteState (if up then .up else .down) := by
  cases up <;> simp [noteDaemon, noteState, addDefect, DaemonState.running?, DaemonState.defects,
    DaemonState.notes]

theorem noteMasternode_rejected (reason : String) :
    s.noteMasternode (.rejected reason) = s.noteState .inactive := by
  unfold noteMasternode
  dsimp only
  split
  · rename_i hrole
    simp [noteState, addDefect, DaemonState.running?, DaemonState.defects, DaemonState.notes, hrole]
  · rename_i hrole
    simp [noteState, addNote, DaemonState.running?, DaemonState.defects, DaemonState.notes, hrole]

theorem noteDaemon_status (reply : Reply) :
    s.noteDaemon (ReplyKind.status.read reply) = s.noteState (.ofStatus reply) := by
  unfold ReplyKind.read DaemonState.ofStatus
  dsimp only
  by_cases hblank : reply.isBlank = true
  · rw [if_pos hblank, if_pos hblank, noteDaemon_unreadable]
  · rw [if_neg hblank, if_neg hblank, noteDaemon_running]
    unfold mentionsError
    cases Text.mentions "error" reply.text || Text.mentions "couldn't connect" reply.text with
    | true => rfl
    | false => rfl

theorem noteMasternode_status (reply : Reply) :
    s.noteMasternode (ReplyKind.masternodeStatus.read reply) =
      s.noteState (.ofMasternodeStatus reply) := by
  unfold ReplyKind.read DaemonState.ofMasternodeStatus saysNotRunning mentionsError
  dsimp only
  by_cases hdown :
      (reply.isBlank || Text.mentions "couldn't connect to server" reply.text) = true
  · rw [if_pos hdown, if_pos hdown]
    exact noteDaemon_running false
  · rw [if_neg hdown, if_neg hdown]
    by_cases herror : Text.mentions "error" reply.text = true
    · rw [if_pos herror, if_pos herror, noteMasternode_rejected]
    · rw [if_neg herror, if_neg herror]
      exact noteDaemon_running true

theorem noteBalance_read (reply : Reply) : s.noteBalance (ReplyKind.balance.read reply) =
    { s with balance? := (reply.firstLine?.bind Amount.read?).or s.balance? } := by
  unfold ReplyKind.read readBalance
  dsimp only
  cases reply.firstLine? with
  | none => rfl
  | some line =>
    dsimp only [Option.bind_some]
    cases Amount.read? line with
    | some amount => rfl
    | none =>
      dsimp only
      split
      · rfl
      · rfl

theorem noteService_found (name : String) (reply : Reply) :
    s.noteService name (processFound reply) =
      { s with
        services := s.services ++ [⟨name, 21 < (Text.trim reply.text).length⟩]
        defects := s.defects ++
          if 21 < (Text.trim reply.text).length then [] else [name ++ " not running"] } := by
  unfold noteService processFound shortListing
  by_cases hfound : 21 < (Text.trim reply.text).length
  · simp [addService, hfound]
  · simp [addService, addDefect, hfound]

/-- One answer adds what it says to the notes. -/
theorem hear_eq (a : Answered) : s.hear a =
    { s with
      uptime? := ((a.replyTo? .uptime).map Reply.firstLine?).getD s.uptime?
      services := s.services ++ a.check?.toList
      daemonRunning? := (a.state?.bind DaemonState.running?).or s.daemonRunning?
      daemonStatus? := ((a.replyTo? .status).map Reply.text).or s.daemonStatus?
      masternodeStatus? := ((a.replyTo? .masternodeStatus).map Reply.text).or s.masternodeStatus?
      balance? := a.balance?.or s.balance?
      defects := s.defects ++ a.defects s.role
      notes := s.notes ++ a.notes s.role } := by
  obtain ⟨task, reply⟩ := a
  cases task
  case findProcess name =>
    unfold hear
    dsimp only
    rw [noteService_found]
    by_cases hfound : 21 < (Text.trim reply.text).length
    all_goals
      simp [Answered.replyTo?, Answered.check?, Answered.state?, Answered.balance?,
        Answered.defects, Answered.notes, Option.filter, hfound]
  all_goals
    simp [hear, noteDaemon_status, noteMasternode_status, noteBalance_read, noteState,
      Answered.replyTo?, Answered.check?, Answered.state?, Answered.balance?, Answered.defects,
      Answered.notes]

/-- One more answer to a ping. -/
theorem ofAnswers_pong (alive : Bool) :
    ofAnswers host reached answers [alive] =
      (ofAnswers host reached answers []).notePing alive := by
  cases alive with
  | true => rfl
  | false =>
    unfold ofAnswers notePing addDefect
    simp

/-- One more answer to a question. -/
theorem ofAnswers_concat (a : Answered) : ofAnswers host reached (answers ++ [a]) [] =
    (ofAnswers host reached answers []).hear a := by
  have hmore {α : Type} (f : Answered → Option α) :
      (answers ++ [a]).filterMap f = answers.filterMap f ++ (f a).toList := by
    rw [List.filterMap_append]
    cases h : f a <;> simp [h]
  have hlast {α : Type} (xs : List α) (o : Option α) :
      (xs ++ o.toList).getLast? = o.or xs.getLast? := by
    cases o <;> simp
  have huptime (o o' : Option Reply) : (o.or o').bind Reply.firstLine? =
      (o.map Reply.firstLine?).getD (o'.bind Reply.firstLine?) := by
    cases o <;> rfl
  rw [hear_eq]
  unfold ofAnswers lastReply?
  simp only [hmore, hlast, huptime, Option.map_or, List.flatMap_append, List.flatMap_singleton,
    List.flatMap_nil, List.append_nil]

/-- Where it is a defect that a host is no active masternode, nothing is worth a note. -/
theorem ofAnswers_apart {pongs : List Bool}
    (h : "not an active masternode" ∈ (ofAnswers host reached answers pongs).defects) :
    (ofAnswers host reached answers pongs).notes = [] := by
  have hrole : host.role = .masternode := by
    obtain h | h := List.mem_append.mp h
    · obtain ⟨a, -, ha⟩ := List.mem_flatMap.mp h
      exact Answered.role_of_inactive ha
    · obtain ⟨alive, -, hpong⟩ := List.mem_flatMap.mp h
      cases alive <;> simp at hpong
  refine List.flatMap_eq_nil_iff.mpr fun a _ => ?_
  rw [hrole]
  exact Answered.notes_masternode

/-- Notes that are taken of one answer after the other are what all of them say. -/
theorem foldl_hear (host : Host) (reached : Bool) (answers : List Answered) :
    answers.foldl hear { unseen host with reachable := reached } =
      ofAnswers host reached answers [] := by
  induction answers using List.reverseRecOn with
  | nil => rfl
  | append_singleton answers a ih =>
    rw [List.foldl_append, ih, ofAnswers_concat]
    rfl

end Snapshot

/-! ## Parts of a look -/

namespace Inspection

variable {α β : Type} {host : Host} {command : Command} {s s' : Snapshot} {l : Log}

/-- From what was noted so far, some answers make a part of a look leave this log, end like this,
and leave these notes. -/
def Ends (x : Inspection α) (s : Snapshot) (l : Log) (r : Except FleetError α) (s' : Snapshot) :
    Prop :=
  (x.run.run s).Yields l (r, s')

/-- One part after another: the first ends the look, or the second takes over from it. -/
theorem ends_bind_cases {x : Inspection α} {f : α → Inspection β} {r : Except FleetError β}
    (h : (x >>= f).Ends s l r s') :
    (∃ e, r = .error e ∧ x.Ends s l (.error e) s') ∨
      ∃ l₁ l₂ a mid, l = l₁ ++ l₂ ∧ x.Ends s l₁ (.ok a) mid ∧ (f a).Ends mid l₂ r s' := by
  unfold Ends at h
  rw [ExceptT.run_bind, StateT.run_bind] at h
  obtain ⟨l₁, l₂, ⟨e | a, mid⟩, rfl, h₁, h₂⟩ := Program.yields_bind.mp h
  · obtain ⟨rfl, heq⟩ := Program.yields_pure.mp h₂
    cases heq
    rw [List.append_nil]
    exact .inl ⟨e, rfl, h₁⟩
  · exact .inr ⟨l₁, l₂, a, mid, rfl, h₁, h₂⟩

theorem note_ends {change : Snapshot → Snapshot} {r : Except FleetError Unit} :
    (note change).Ends s l r s' ↔ l = [] ∧ r = .ok () ∧ s' = change s := by
  show l = [] ∧ (r, s') = (Except.ok (), change s) ↔ _
  rw [Prod.mk.injEq]

/-- A command whose answer is noted: the session breaks, or the answer is noted. -/
theorem asked_cases {change : Reply → Snapshot → Snapshot} {r : Except FleetError Unit}
    (h : (ask host command >>= fun reply => note (change reply)).Ends s l r s') :
    (∃ cause, l = [⟨.run host command, .error cause⟩] ∧
        r = .error (.session host.name cause) ∧ s' = s) ∨
      ∃ reply, l = [⟨.run host command, .ok reply⟩] ∧ r = .ok () ∧ s' = change reply s := by
  have hask {l : Log} {r : Except FleetError Reply} {s' : Snapshot}
      (h : (ask host command).Ends s l r s') : ∃ answer, l = [⟨.run host command, answer⟩] ∧
        r = answer.mapError (.session host.name) ∧ s' = s := by
    obtain ⟨l₁, l₂, result, rfl, hsent, hlast⟩ := Program.yields_bind.mp h
    obtain ⟨rfl, heq⟩ := Program.yields_pure.mp hlast
    cases heq
    obtain ⟨answer, rfl, rfl⟩ := yields_exchange.mp hsent
    exact ⟨answer, rfl, rfl, rfl⟩
  obtain ⟨e, rfl, hfirst⟩ | ⟨l₁, l₂, reply, mid, rfl, hfirst, hnote⟩ := ends_bind_cases h
  · obtain ⟨cause | _, rfl, heq, rfl⟩ := hask hfirst
    · cases heq
      exact .inl ⟨cause, rfl, rfl, rfl⟩
    · cases heq
  · obtain ⟨rfl, rfl, rfl⟩ := note_ends.mp hnote
    obtain ⟨_ | answered, rfl, heq, rfl⟩ := hask hfirst
    · cases heq
    · cases heq
      exact .inr ⟨reply, rfl, rfl, rfl⟩

end Inspection

/-! ## Looks -/

namespace Fleet

variable (fleet : Fleet) {host : Host} {s s' : Snapshot} {l : Log} {r : Except FleetError Unit}

/-- What a host is asked. -/
def questions (host : Host) : List Task :=
  .uptime ::
    if host.role = .main then fleet.config.mainServices.map .findProcess ++ [.status]
    else [.masternodeStatus, .balance]

/-- A host is asked these questions one after the other until the session breaks; the flag says
whether all of them were answered. -/
def AsksThrough (host : Host) (tasks : List Task) : Log → Bool → Prop :=
  GoesThrough (tasks.map fun task => .run host (fleet.command task))

/-- Asks a question, and notes the answer. -/
def question (host : Host) (task : Task) : Inspection Unit := do
  let reply ← Inspection.ask host (fleet.command task)
  Inspection.note (·.hear ⟨task, reply⟩)

theorem inspectMain_eq (host : Host) : fleet.inspectMain host =
    (fleet.config.mainServices.map Task.findProcess ++ [Task.status]).forM
      (fleet.question host) := by
  have hlast : [Task.status].forM (fleet.question host) = fleet.question host .status :=
    bind_pure _
  have hservices (services : List String) : (services.map Task.findProcess).forM
      (fleet.question host) = services.forM fun name => fleet.question host (.findProcess name) :=
    List.forM_map
  refine Eq.trans ?_ List.forM_append.symm
  show fleet.inspectMain host = List.forM _ _ >>= fun _ => List.forM _ _
  rw [hservices, hlast]
  rfl

theorem inspectOther_eq (host : Host) : fleet.inspectOther host =
    [Task.masternodeStatus, .balance].forM (fleet.question host) := by
  have hlast : [Task.balance].forM (fleet.question host) = fleet.question host .balance :=
    bind_pure _
  show _ = fleet.question host .masternodeStatus >>= fun _ => [Task.balance].forM _
  rw [hlast]
  exact (bind_assoc ..).symm

/-- A look asks one question after the other. -/
theorem inspect_eq (host : Host) :
    fleet.inspect host = (fleet.questions host).forM (fleet.question host) := by
  have hrest : (if host.role = .main then fleet.inspectMain host else fleet.inspectOther host) =
      (if host.role = .main then fleet.config.mainServices.map Task.findProcess ++ [Task.status]
        else [Task.masternodeStatus, Task.balance]).forM (fleet.question host) := by
    split
    · exact fleet.inspectMain_eq host
    · exact fleet.inspectOther_eq host
  unfold inspect
  rw [hrest]
  exact (bind_assoc ..).symm

/-- Questions are asked one after the other until the session breaks, and all answers are noted. -/
theorem questions_end {tasks : List Task} (hany : ∀ task ∈ tasks, ∀ reply, task.Succeeds reply)
    (h : Inspection.Ends (tasks.forM (fleet.question host)) s l r s') :
    fleet.AsksThrough host tasks l r.isOk ∧ s' = l.answers.foldl Snapshot.hear s ∧
      ∀ e, r = .error e → ∃ cause, e = .session host.name cause := by
  induction tasks generalizing s l with
  | nil =>
    obtain ⟨rfl, heq⟩ := Program.yields_pure.mp h
    cases heq
    exact ⟨.nil, rfl, nofun⟩
  | cons task tasks ih =>
    obtain ⟨htask, htasks⟩ := List.forall_mem_cons.mp hany
    obtain ⟨e, rfl, hfirst⟩ | ⟨l₁, l₂, _, mid, rfl, hfirst, hrest⟩ := Inspection.ends_bind_cases h
    · obtain ⟨cause, rfl, heq, rfl⟩ | ⟨_, -, heq, -⟩ := Inspection.asked_cases hfirst
      · cases heq
        exact ⟨.stop id, rfl, fun _ he => ⟨cause, (Except.error.inj he).symm⟩⟩
      · cases heq
    · obtain ⟨_, -, heq, -⟩ | ⟨reply, rfl, -, rfl⟩ := Inspection.asked_cases hfirst
      · cases heq
      obtain ⟨hasked, rfl, hfails⟩ := ih htasks hrest
      exact ⟨.next (htask reply) hasked, rfl, hfails⟩

/-- The answers to the questions of a look let it go on, whatever they are. -/
theorem questions_succeed : ∀ task ∈ fleet.questions host, ∀ reply, task.Succeeds reply := by
  intro task hm reply
  unfold questions at hm
  obtain rfl | hm := List.mem_cons.mp hm
  · trivial
  split at hm
  · obtain hm | hm := List.mem_append.mp hm
    · obtain ⟨name, -, rfl⟩ := List.mem_map.mp hm
      trivial
    · obtain rfl := List.mem_singleton.mp hm
      trivial
  · obtain rfl | rfl : task = .masternodeStatus ∨ task = .balance := by simpa using hm
    · trivial
    · trivial

variable {fleet}

theorem AsksThrough.of_mem {tasks : List Task} {whole : Bool} {e : Event}
    (h : fleet.AsksThrough host tasks l whole) (he : e ∈ l) :
    ∃ task ∈ tasks, e.request = .run host (fleet.command task) := by
  obtain ⟨task, hm, hrun⟩ := List.mem_map.mp (h.order.subset (List.mem_map_of_mem he))
  exact ⟨task, hm, hrun.symm⟩

theorem AsksThrough.append_cases {first rest : List Task} {whole : Bool}
    (h : fleet.AsksThrough host (first ++ rest) l whole) :
    (whole = false ∧ fleet.AsksThrough host first l false) ∨
      ∃ l₁ l₂, l = l₁ ++ l₂ ∧ fleet.AsksThrough host first l₁ true ∧
        fleet.AsksThrough host rest l₂ whole := by
  unfold AsksThrough at h
  rw [List.map_append] at h
  exact GoesThrough.append_cases h

/-- Questions are no pings. -/
theorem AsksThrough.pongs {tasks : List Task} {whole : Bool}
    (h : fleet.AsksThrough host tasks l whole) : l.pongs = [] := by
  refine List.filterMap_eq_nil_iff.mpr fun ⟨request, answer⟩ he => ?_
  obtain ⟨task, -, rfl⟩ := h.of_mem he
  rfl

/-- A host is looked at in a session of its own, unless none is opened.  It is asked its questions
one after the other until the session breaks, and what is noted is what the answers say. -/
theorem visit_cases {seen : Snapshot} (h : (fleet.visit host).Yields l (r, seen)) :
    seen = l.sight host ∧
      ((∃ cause, l = Log.refused host cause ∧ r = .error (.connectFailure host.name cause)) ∨
        ∃ inner, l = Log.session host inner ∧ Only (fleet.InspectAsks host) inner ∧
          fleet.AsksThrough host (fleet.questions host) inner r.isOk ∧
          ∀ e, r = .error e → ∃ cause, e = .session host.name cause) := by
  obtain ⟨l₁, l₂, result, rfl, hsession, hlast⟩ := Program.yields_bind.mp h
  obtain ⟨cause, rfl, rfl⟩ | ⟨inner, visited, rfl, hinner, rfl⟩ := yields_withSession.mp hsession
  · obtain ⟨rfl, heq⟩ := Program.yields_pure.mp hlast
    cases heq
    exact ⟨rfl, .inl ⟨cause, rfl, rfl⟩⟩
  -- the session is open: the questions are asked up to the first that breaks it
  · obtain ⟨rfl, rfl⟩ := Program.yields_pure.mp hlast
    have honly := fleet.inspect_only host _ _ _ hinner
    rw [inspect_eq] at hinner
    obtain ⟨hasked, rfl, hfails⟩ := fleet.questions_end fleet.questions_succeed hinner
    rw [List.append_nil]
    refine ⟨?_, .inr ⟨inner, rfl, honly, hasked, hfails⟩⟩
    have hanswers : (Log.session host inner).answers = inner.answers := filterMap_session rfl rfl
    have hpongs : (Log.session host inner).pongs = [] :=
      (filterMap_session rfl rfl).trans hasked.pongs
    unfold Log.sight
    rw [hanswers, hpongs]
    exact Snapshot.foldl_hear host true inner.answers

/-- The main host is pinged where that is asked for. -/
theorem pinged_cases {s snapshot : Snapshot} (h : (fleet.pinged host s).Yields l snapshot) :
    (host.role = .main ∧ fleet.pings = true ∧
        ∃ alive : Bool, l = [⟨.ping host.address, alive⟩] ∧ snapshot = s.notePing alive) ∨
      ¬ (host.role = .main ∧ fleet.pings = true) ∧ l = [] ∧ snapshot = s := by
  unfold pinged at h
  split at h
  · obtain ⟨alive, hping, rfl⟩ := Program.yields_map.mp h
    obtain rfl := Program.yields_request.mp hping
    exact .inl ⟨‹_ ∧ _›.1, ‹_ ∧ _›.2, alive, rfl, rfl⟩
  · obtain ⟨rfl, rfl⟩ := Program.yields_pure.mp h
    exact .inr ⟨‹_›, rfl, rfl⟩

end Fleet

end NodeFleet
