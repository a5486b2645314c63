import NodeFleet.Proofs.Heeding

/-!
# NodeFleet.Proofs.Sequences — requests made one after the other, until one does not succeed

Most of what is done on a host is a fixed list of requests: each is made only once all before it
have succeeded, and the step goes well exactly when the list comes to its end.  `GoesThrough` says
so of a log, and `InOrder` of a step, whatever it is answered.

* `Event.Succeeds`: the answers that let a sequence go on.
* `GoesThrough`: a log that goes through a list of requests, to its end or to a failure.
* `GoesThrough.order`, `GoesThrough.gated`, `GoesThrough.whole_iff`, `GoesThrough.halts`: what that
  says of the requests and of the answers.  `GoesThrough.after`: what stands before a request.
* `Log.acts`: the commands and the files of a log, without its waits.
* `InOrder`: a step that goes through its requests.  `inOrder_bind`, `inOrder_forM`,
  `inOrder_expect`, ...: the rules.
-/

namespace NodeFleet

/-! ## Answers that let a sequence go on -/

/-- A change of files is done: the answer has no word of refusal, and its exit status, where one is
known, is zero. -/
def Reply.ChangesFiles (reply : Reply) : Prop :=
  (∀ word ∈ ["denied", "cannot", "refused"], Text.mentions word reply.text = false) ∧
    ∀ status ∈ reply.status, status = 0

/-- The answer to a command that must not be refused; the answers to others do not matter. -/
def Task.Succeeds : Task → Reply → Prop
  | .wipe, reply | .swapIn _, reply => reply.ChangesFiles
  | .start, reply | .enableGeneration, reply => mentionsError reply.text = false
  | _, _ => True

/-- The answer lets a sequence go on: the session did not break, the host refused nothing, and the
operator did not cancel. -/
def Event.Succeeds : Event → Prop
  | ⟨.run _ command, .ok reply⟩ => command.task.Succeeds reply
  | ⟨.run _ _, .error _⟩ | ⟨.write _ _ _, .error _⟩ => False
  | ⟨.cancelled, cancelled⟩ => cancelled = false
  | ⟨.sleep _, ended⟩ => ended = true
  | _ => True

theorem changesFiles_iff {reply : Reply} :
    reply.ChangesFiles ↔ (ReplyKind.fileChange.read reply).refusal? = none := by
  have hread : (readFileChange reply).refusal? = none ↔
      (Text.mentions "denied" reply.text || Text.mentions "cannot" reply.text ||
        Text.mentions "refused" reply.text || reply.status.any fun s => s != 0) = false := by
    unfold readFileChange
    dsimp only
    split
    · rename_i hrefused
      exact iff_of_false (Option.some_ne_none _) (by simp [hrefused])
    · rename_i haccepted
      exact iff_of_true rfl (Bool.eq_false_iff.mpr haccepted)
  refine Iff.trans ?_ hread.symm
  unfold Reply.ChangesFiles
  cases reply.status with
  | none => simp [and_assoc]
  | some status => simp [and_assoc]

theorem noError_iff {reply : Reply} :
    mentionsError reply.text = false ↔ (ReplyKind.start.read reply).refusal? = none := by
  have hread : ReplyKind.start.read reply =
      if mentionsError reply.text then .rejected reply.text else .accepted := rfl
  rw [hread]
  split
  · rename_i herror
    exact iff_of_false (by simp [herror]) (Option.some_ne_none _)
  · rename_i hnone
    exact iff_of_true (Bool.eq_false_iff.mpr hnone) rfl

/-! ## Logs -/

/-- Requests are made in their order until one does not succeed; the flag says whether all
succeeded. -/
inductive GoesThrough : List Request → Log → Bool → Prop
  | nil : GoesThrough [] [] true
  | next {r : Request} {answer : r.Answer} {requests : List Request} {l : Log} {whole : Bool}
    (h : Event.Succeeds ⟨r, answer⟩) (rest : GoesThrough requests l whole) :
    GoesThrough (r :: requests) (⟨r, answer⟩ :: l) whole
  | stop {r : Request} {answer : r.Answer} {requests : List Request}
    (h : ¬ Event.Succeeds ⟨r, answer⟩) : GoesThrough (r :: requests) [⟨r, answer⟩] false

namespace GoesThrough

variable {requests requests' : List Request} {l l' : Log} {whole : Bool}

/-- The requests are made in their order, and no others. -/
theorem order (h : GoesThrough requests l whole) : l.map Event.request <+: requests := by
  induction h with
  | nil => exact List.prefix_rfl
  | next _ _ ih => exact List.cons_prefix_cons.mpr ⟨rfl, ih⟩
  | stop _ => exact List.cons_prefix_cons.mpr ⟨rfl, List.nil_prefix⟩

/-- A request is made only after all before it have succeeded. -/
theorem gated (h : GoesThrough requests l whole) {before after : Log} {e : Event}
    (hl : l = before ++ e :: after) : ∀ e' ∈ before, e'.Succeeds := by
  induction h generalizing before with
  | nil => exact absurd hl.symm (by simp)
  | next hfirst _ ih =>
    obtain ⟨rfl, -⟩ | ⟨rest, rfl, rfl⟩ := List.cons_eq_append_iff.mp hl
    · exact fun _ he' => absurd he' List.not_mem_nil
    · exact List.forall_mem_cons.mpr ⟨hfirst, ih rfl⟩
  | stop _ =>
    obtain ⟨rfl, -⟩ | ⟨rest, rfl, hrest⟩ := List.cons_eq_append_iff.mp hl
    · exact fun _ he' => absurd he' List.not_mem_nil
    · exact absurd hrest.symm (by simp)

/-- All goes well exactly when all requests have been made and have succeeded. -/
theorem whole_iff (h : GoesThrough requests l whole) :
    whole = true ↔ l.map Event.request = requests ∧ ∀ e ∈ l, e.Succeeds := by
  induction h with
  | nil => simp
  | next hfirst _ ih =>
    rw [ih, List.map_cons, List.cons_inj_right, List.forall_mem_cons]
    exact and_congr_right' (and_iff_right hfirst).symm
  | stop hfails =>
    exact iff_of_false Bool.false_ne_true fun hall => hfails (hall.2 _ List.mem_cons_self)

/-- Unless all goes well, the last request that was made did not succeed. -/
theorem halts (h : GoesThrough requests l whole) (hwhole : whole = false) :
    ∃ before e, l = before ++ [e] ∧ ¬ e.Succeeds := by
  induction h with
  | nil => cases hwhole
  | next _ _ ih =>
    obtain ⟨before, e, rfl, hfails⟩ := ih hwhole
    exact ⟨_ :: before, e, rfl, hfails⟩
  | stop hfails => exact ⟨[], _, rfl, hfails⟩

/-- One list after another: the second is begun when the first has come to its end. -/
theorem append (h : GoesThrough requests l true)
    (h' : GoesThrough requests' l' whole) :
    GoesThrough (requests ++ requests') (l ++ l') whole := by
  generalize hflag : true = flag at h
  induction h with
  | nil => exact h'
  | next hfirst _ ih => exact .next hfirst (ih hflag)
  | stop _ => cases hflag

/-- A list that did not come to its end is all that was begun of a longer one. -/
theorem append_right (h : GoesThrough requests l false) :
    GoesThrough (requests ++ requests') l false := by
  generalize hflag : false = flag at h
  induction h with
  | nil => cases hflag
  | next hfirst _ ih => exact .next hfirst (ih hflag)
  | stop hfails => exact .stop hfails

/-- A longer list: it is left in its first part, or that comes to its end and the second is
begun. -/
theorem append_cases (h : GoesThrough (requests ++ requests') l whole) :
    (whole = false ∧ GoesThrough requests l false) ∨
      ∃ l₁ l₂, l = l₁ ++ l₂ ∧ GoesThrough requests l₁ true ∧ GoesThrough requests' l₂ whole := by
  induction requests generalizing l with
  | nil => exact .inr ⟨[], l, rfl, .nil, h⟩
  | cons r requests ih =>
    cases h with
    | next hfirst hrest =>
      obtain ⟨hwhole, hleft⟩ | ⟨l₁, l₂, rfl, hended, hbegun⟩ := ih hrest
      · exact .inl ⟨hwhole, .next hfirst hleft⟩
      · exact .inr ⟨_ :: l₁, l₂, rfl, .next hfirst hended, hbegun⟩
    | stop hfails => exact .inl ⟨rfl, .stop hfails⟩

/-- What is not among the first requests is asked only after all of them have been made, and have
succeeded. -/
theorem after {first rest : List Request} (h : GoesThrough (first ++ rest) l whole)
    {before after : Log} {e : Event} (hl : l = before ++ e :: after) (hlate : e.request ∉ first) :
    ∀ r ∈ first, ∃ e' ∈ before, e'.request = r ∧ e'.Succeeds := by
  have hasked : before.map Event.request ++ [e.request] <+: first ++ rest := by
    refine List.IsPrefix.trans ?_ h.order
    rw [hl, List.map_append, List.map_cons]
    exact ⟨after.map Event.request, by simp⟩
  have hfirst : first <+: before.map Event.request := by
    obtain hshort | hlong := List.prefix_or_prefix_of_prefix hasked (List.prefix_append first rest)
    · exact absurd (hshort.subset (by simp)) hlate
    · obtain rfl | hlong := List.prefix_concat_iff.mp hlong
      · exact absurd (List.mem_append_right _ List.mem_cons_self) hlate
      · exact hlong
  intro r hr
  obtain ⟨e', he', rfl⟩ := List.mem_map.mp (hfirst.subset hr)
  exact ⟨e', he', rfl, h.gated hl e' he'⟩

/-- What always succeeds may be left out of the account. -/
theorem filter {keep : Request → Bool} (h : GoesThrough requests l whole)
    (hleft : ∀ e ∈ l, keep e.request = false → e.Succeeds) :
    GoesThrough (requests.filter keep) (l.filter fun e => keep e.request) whole := by
  -- request by request; none that is left out has failed, so that the log does not stop at it
  induction h with
  | nil => exact .nil
  | @next r _ _ _ _ hfirst _ ih =>
    have ih := ih (List.forall_mem_cons.mp hleft).2
    cases hkeep : keep r with
    | true =>
      simp only [List.filter_cons, hkeep, if_true]
      exact .next hfirst ih
    | false =>
      simp only [List.filter_cons, hkeep, Bool.false_eq_true, if_false]
      exact ih
  | @stop r _ _ hfails =>
    cases hkeep : keep r with
    | true =>
      simp only [List.filter_cons, hkeep, if_true]
      exact .stop hfails
    | false => exact absurd (hleft _ List.mem_cons_self hkeep) hfails

end GoesThrough

/-! ## Steps -/

/-- Whatever it is answered, the step goes through the requests, and goes well exactly when they all
succeed. -/
def InOrder {α : Type} (requests : List Request) (step : Step α) : Prop :=
  ∀ l r, step.run.Yields l r → GoesThrough requests l r.isOk

section Rules

variable {α β : Type} {requests requests' : List Request} {host : Host} {command : Command}

theorem inOrder_pure (a : α) : InOrder [] (pure a : Step α) := by
  rintro l r h
  obtain ⟨rfl, rfl⟩ := Program.yields_run_pure.mp h
  exact .nil

theorem inOrder_bind {x : Step α} {f : α → Step β} (hx : InOrder requests x)
    (hf : ∀ a, InOrder requests' (f a)) :
    InOrder (requests ++ requests') (x >>= f) := by
  intro l r h
  rw [ExceptT.run_bind] at h
  obtain ⟨l₁, l₂, a | a, rfl, h₁, h₂⟩ := Program.yields_bind.mp h
  · obtain ⟨rfl, rfl⟩ := Program.yields_pure.mp h₂
    rw [List.append_nil]
    exact (hx l₁ _ h₁).append_right
  · exact (hx l₁ _ h₁).append (hf a l₂ r h₂)

/-- A last step without a request may be left out of the account. -/
theorem inOrder_map {x : Step α} {f : α → β} (hx : InOrder requests x) :
    InOrder requests (x >>= fun a => pure (f a)) := by
  have h := inOrder_bind hx fun a => inOrder_pure (f a)
  rwa [List.append_nil] at h

/-- A last part that is done in some cases only. -/
theorem inOrder_when {c : Prop} [Decidable c] {x : Step PUnit} (hx : InOrder requests x) :
    InOrder (if c then requests else []) (if c then x else pure ⟨⟩) := by
  split
  · exact hx
  · exact inOrder_pure _

/-- A first part that is done in some cases only. -/
theorem inOrder_guard {c : Prop} [Decidable c] {x : Step PUnit} {rest : Step β}
    (hx : InOrder requests x) (hrest : InOrder requests' rest) :
    InOrder ((if c then requests else []) ++ requests')
      (if c then x >>= fun _ => rest else rest) := by
  split
  · exact inOrder_bind hx fun _ => hrest
  · exact hrest

theorem inOrder_forM {xs : List α} {f : α → Step PUnit} {order : α → List Request}
    (hf : ∀ a, InOrder (order a) (f a)) :
    InOrder (xs.flatMap order) (xs.forM f) := by
  induction xs with
  | nil => exact inOrder_pure _
  | cons a xs ih => exact inOrder_bind (hf a) fun _ => ih

/-! ### Single requests -/

/-- A command whose answer does not matter. -/
theorem inOrder_exchange (h : ∀ reply, command.task.Succeeds reply) :
    InOrder [.run host command] (exchange host command) := by
  intro l r hl
  obtain ⟨cause | reply, rfl, rfl⟩ := yields_exchange.mp hl
  · exact .stop id
  · exact .next (h reply) .nil

/-- A command whose answer is read. -/
theorem inOrder_expect {kind : ReplyKind}
    (h : ∀ reply, command.task.Succeeds reply ↔ (kind.read reply).refusal? = none) :
    InOrder [.run host command] (expect host command kind) := by
  intro l r hl
  cases r with
  | ok reading =>
    obtain ⟨reply, rfl, rfl, hnone⟩ := yields_expect_ok.mp hl
    exact .next ((h reply).mpr hnone) .nil
  | error e =>
    obtain ⟨cause, rfl, rfl⟩ | ⟨reply, reason, rfl, hrefused, rfl⟩ := yields_expect_error.mp hl
    · exact .stop id
    · refine .stop fun hsucceeds => ?_
      cases hrefused.symm.trans ((h reply).mp hsucceeds)

theorem inOrder_writeFile {path : String} {contents : ByteArray} :
    InOrder [.write host path contents] (writeFile host path contents) := by
  intro l r hl
  obtain ⟨cause | _, rfl, rfl⟩ := yields_writeFile.mp hl
  · exact .stop id
  · exact .next trivial .nil

/-- A configuration file, and its directory before. -/
theorem inOrder_writeConfigFile {daemon : Daemon} {path contents : String} :
    InOrder [.run host ⟨daemon, .makeConfigDir⟩, .write host path contents.toUTF8]
      (writeConfigFile host daemon path contents) := by
  have hdirectory : InOrder [.run host ⟨daemon, .makeConfigDir⟩]
      (exchange host ⟨daemon, .makeConfigDir⟩) := inOrder_exchange fun _ => trivial
  exact inOrder_bind hdirectory fun _ => inOrder_writeFile

/-- What a wait asks of the operator. -/
def settleRequests (delay : Duration) : List Request :=
  .cancelled :: if delay ≠ .zero then [.sleep delay] else []

theorem inOrder_settle {delay : Duration} : InOrder (settleRequests delay) (settle delay) := by
  intro l r hl
  unfold settleRequests
  obtain ⟨rfl, rfl⟩ | ⟨rfl, rfl, rfl⟩ | ⟨ended, rfl, hdelay, rfl⟩ := settle_cases hl
  · exact .stop Bool.noConfusion
  · rw [if_neg fun h => h rfl]
    exact .next rfl .nil
  · rw [if_pos hdelay]
    cases ended with
    | true => exact .next rfl (.next rfl .nil)
    | false => exact .next rfl (.stop Bool.noConfusion)

/-- A failure that is caught and worded anew is still one. -/
theorem inOrder_reworded {x : Step α} {f : Except FleetError α → Step β}
    (hx : InOrder requests x)
    (hok : ∀ a l r, (f (.ok a)).run.Yields l r → l = [] ∧ r.isOk = true)
    (herror : ∀ e l r, (f (.error e)).run.Yields l r → l = [] ∧ r.isOk = false) :
    InOrder requests (x.caught >>= f) := by
  intro l r h
  rw [ExceptT.run_bind] at h
  obtain ⟨l₁, l₂, result, rfl, h₁, h₂⟩ := Program.yields_bind.mp h
  obtain ⟨result, hresult, rfl⟩ := yields_caught.mp h₁
  have hgoes := hx l₁ result hresult
  cases result with
  | ok a =>
    obtain ⟨rfl, hr⟩ := hok a l₂ r h₂
    rw [List.append_nil, hr]
    exact hgoes
  | error e =>
    obtain ⟨rfl, hr⟩ := herror e l₂ r h₂
    rw [List.append_nil, hr]
    exact hgoes

end Rules

/-! ## Sessions -/

/-- A step that went well in a session of its own has asked everything, and all of it has
succeeded. -/
theorem InOrder.all_succeeded {α : Type} {host : Host} {requests : List Request} {step : Step α}
    {l : Log} {a : α} (hstep : InOrder requests step)
    (h : (inSession host step).run.Yields l (.ok a)) :
    ∀ r ∈ requests, ∃ e ∈ l, e.request = r ∧ e.Succeeds := by
  obtain ⟨inner, rfl, hinner⟩ := yields_inSession_ok.mp h
  obtain ⟨hasked, hsucceeded⟩ := (hstep inner _ hinner).whole_iff.mp rfl
  rintro r hr
  rw [← hasked] at hr
  obtain ⟨e, he, rfl⟩ := List.mem_map.mp hr
  exact ⟨e, mem_session.mpr (.inr (.inl he)), rfl, hsucceeded e he⟩

/-- A command or a file. -/
def Request.isAct : Request → Bool
  | .run _ _ | .write _ _ _ => true
  | _ => false

/-- The commands and the files, without the waits and the ends of the session. -/
def Log.acts (l : Log) : Log := l.filter fun e => e.request.isAct

/-- A host was to be sent commands and files in a session of its own.  They are sent in their order,
each after all before it have succeeded.  Unless the operator cancels, the result for the host is
good exactly when the session was opened and all have been sent and have succeeded; otherwise, if
the session was opened, the last that was sent did not succeed. -/
structure Performs (host : Host) (requests : List Request) (l : Log)
    (r : Except FleetError Unit) : Prop where
  session : (∃ cause, l = Log.refused host cause ∧ r = .error (.connectFailure host.name cause)) ∨
    ∃ inner, l = Log.session host inner
  order : l.acts.map Event.request <+: requests
  gated : ∀ before e after, l.acts = before ++ e :: after → ∀ e' ∈ before, e'.Succeeds
  ok_iff : Calm l → ((Report.outcomeOf host.name host.address r).ok = true ↔
    ⟨.connect host, .ok ()⟩ ∈ l ∧ l.acts.map Event.request = requests ∧ ∀ e ∈ l.acts, e.Succeeds)
  halts : Calm l → (Report.outcomeOf host.name host.address r).ok = false →
    ⟨.connect host, .ok ()⟩ ∈ l → ∃ before e, l.acts = before ++ [e] ∧ ¬ e.Succeeds

section Sessions

variable {host : Host} {requests : List Request} {l : Log} {step : Step Unit}
  {r : Except FleetError Unit}

theorem acts_session : Log.acts (Log.session host l) = Log.acts l := by
  simp [Log.acts, Log.session, Request.isAct]

theorem acts_refused {cause : RemoteError} : Log.acts (Log.refused host cause) = [] := rfl

theorem outcomeOf_isOk {name address : String} :
    (Report.outcomeOf name address r).ok = r.isOk := by
  cases r with
  | ok _ => rfl
  | error _ => rfl

/-- Waits that are not cut short go well. -/
theorem Event.IsCalm.succeeds {e : Event} (h : e.IsCalm) (hact : e.request.isAct = false) :
    e.Succeeds := by
  obtain ⟨r, answer⟩ := e
  cases r with
  | run _ _ => cases hact
  | write _ _ _ => cases hact
  | cancelled => exact h
  | sleep _ => exact h
  | _ => trivial

theorem GoesThrough.acts_order {whole : Bool} (h : GoesThrough requests l whole) :
    l.acts.map Event.request <+: requests.filter Request.isAct := by
  have hprefix := h.order.filter Request.isAct
  rwa [List.filter_map] at hprefix

theorem GoesThrough.acts_gated {whole : Bool} (h : GoesThrough requests l whole)
    {before after : Log} {e : Event} (hl : l.acts = before ++ e :: after) :
    ∀ e' ∈ before, e'.Succeeds := by
  obtain ⟨early, late, rfl, rfl, hlate⟩ := List.filter_eq_append_iff.mp hl
  obtain ⟨waits, rest, rfl, -, -, -⟩ := List.filter_eq_cons_iff.mp hlate
  have hgated := h.gated (List.append_assoc early waits (e :: rest)).symm
  exact fun e' he' => hgated e' (List.mem_append_left _ (List.mem_filter.mp he').1)

/-- What is asked in a session stands between its ends. -/
theorem session_split {before after : Log} {e : Event}
    (h : Log.session host l = before ++ e :: after) (hact : e.request.isAct = true) :
    ∃ early late, before = ⟨.connect host, .ok ()⟩ :: early ∧ l = early ++ e :: late := by
  obtain ⟨rfl, heq⟩ | ⟨early, rfl, hrest⟩ := List.cons_eq_append_iff.mp h
  · cases heq
    cases hact
  obtain ⟨mid, rfl, hclose⟩ | ⟨late, rfl, rfl⟩ := split_append hrest
  · obtain ⟨rfl, heq⟩ | ⟨_, -, hnil⟩ := List.cons_eq_append_iff.mp hclose
    · cases heq
      cases hact
    · exact absurd hnil.symm (by simp)
  · exact ⟨early, late, rfl, rfl⟩

/-- A step that goes through its requests, in a session of its own. -/
theorem performs_inSession (hstep : InOrder requests step)
    (h : (inSession host step).run.Yields l r) :
    Performs host (requests.filter Request.isAct) l r := by
  -- the session is refused, and then nothing at all is done, or it is open
  obtain ⟨cause, rfl, rfl⟩ | ⟨inner, rfl, hinner⟩ := inSession_cases h
  · have hclosed : (⟨.connect host, .ok ()⟩ : Event) ∉ Log.refused host cause := by
      intro hopen
      cases List.mem_singleton.mp hopen
    refine ⟨.inl ⟨cause, rfl, rfl⟩, List.nil_prefix, fun before e after hsplit => ?_, fun _ => ?_,
      fun _ _ hopen => absurd hopen hclosed⟩
    · exact absurd hsplit.symm (by simp [acts_refused])
    · exact iff_of_false Bool.false_ne_true fun hall => hclosed hall.1
  · have hgoes := hstep inner r hinner
    have hcommands (hcalm : Calm (Log.session host inner)) :
        GoesThrough (requests.filter Request.isAct) inner.acts r.isOk :=
      hgoes.filter fun e he => (calm_session.mp hcalm e he).succeeds
    constructor
    · exact .inr ⟨inner, rfl⟩
    · rw [acts_session]
      exact hgoes.acts_order
    · rw [acts_session]
      exact fun _ _ _ => hgoes.acts_gated
    · intro hcalm
      rw [acts_session, outcomeOf_isOk, (hcommands hcalm).whole_iff]
      exact (and_iff_right List.mem_cons_self).symm
    · intro hcalm hfails _
      rw [acts_session]
      exact (hcommands hcalm).halts (outcomeOf_isOk ▸ hfails)

end Sessions

end NodeFleet
