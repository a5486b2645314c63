import NodeFleet.Proofs.Cancelling
import NodeFleet.Proofs.Isolation
import NodeFleet.Proofs.Settling

/-!
# NodeFleet.Proofs.Looks — a sweep is one look after the other

A sweep visits one host after the other, pings it where that is asked for, and adds what it has seen
to its report.  Apart from the waits in between, that is all it asks; whatever is said of sweeps is
said of a single look first.

* `Look`: a look at a host.  `Fleet.Takes`: how one is taken.
* `Log.withoutWaits`: what is asked apart from the waits.
* `Conduct.TakesLooks`: a part of a procedure that takes looks at hosts in their order.
* `Fleet.sweep_takes`: the looks of a sweep.
-/

namespace NodeFleet

/-- A look at a host: what was asked for it, and what was seen. -/
structure Look where
  host : Host
  log : Log
  snapshot : Snapshot

/-- A look at a host as it is taken: the host is visited, and pinged where that is asked for. -/
def Fleet.Takes (fleet : Fleet) (look : Look) : Prop :=
  ∃ visited pings result seen, look.log = visited ++ pings ∧
    (fleet.visit look.host).Yields visited (result, seen) ∧
    (fleet.pinged look.host seen).Yields pings look.snapshot

instance : DecidablePred Request.IsPrompt
  | .cancelled | .sleep _ => .isFalse id
  | .connect _ | .run _ _ | .write _ _ _ | .close _ | .clock | .ping _ | .launch _ _ | .load _ =>
    .isTrue trivial

/-- A log without its waits. -/
def Log.withoutWaits (l : Log) : Log := l.filter fun e => e.request.IsPrompt

theorem withoutWaits_append {l₁ l₂ : Log} :
    Log.withoutWaits (l₁ ++ l₂) = l₁.withoutWaits ++ l₂.withoutWaits := List.filter_append _ _

namespace Conduct

variable {α β : Type} {fleet : Fleet} {hosts hosts₁ hosts₂ : List Host}

/-- A part of a procedure that takes a look at each of these hosts in order, with waits in between,
and adds what was seen; only an abort leaves hosts out. -/
def TakesLooks (fleet : Fleet) (x : Conduct α) (hosts : List Host) : Prop :=
  ∀ before l r, x.Ends before l r → ∃ looks : List Look, (∀ look ∈ looks, fleet.Takes look) ∧
    (endReport r).snapshots = before.snapshots ++ looks.map Look.snapshot ∧
    l.withoutWaits = looks.flatMap Look.log ∧ looks.map Look.host <+: hosts ∧
      ((∃ a after, r = .ok (a, after) ∧ looks.map Look.host = hosts ∧
          after.outcome = before.outcome) ∨
        ∃ last, r = .error last ∧ last.outcome ≠ .completed)

theorem takesLooks_bind {x : Conduct α} {f : α → Conduct β} (hx : x.TakesLooks fleet hosts₁)
    (hf : ∀ a, (f a).TakesLooks fleet hosts₂) : TakesLooks fleet (x >>= f) (hosts₁ ++ hosts₂) := by
  intro before l r h
  -- cut in the first part: the looks of the second are not taken
  obtain ⟨last, rfl, hfirst⟩ | ⟨l₁, l₂, a, mid, rfl, hfirst, hrest⟩ := ends_bind_cases h
  · obtain ⟨looks, htaken, hadded, hlog, hstart, ⟨_, _, heq, -⟩ | ⟨_, heq, houtcome⟩⟩ :=
      hx before l _ hfirst
    · cases heq
    · cases heq
      have hlonger := hstart.trans (List.prefix_append hosts₁ hosts₂)
      exact ⟨looks, htaken, hadded, hlog, hlonger, .inr ⟨last, rfl, houtcome⟩⟩
  · obtain ⟨looks₁, htaken₁, hadded₁, hlog₁, -, ⟨_, _, heq, rfl, hsame⟩ | ⟨_, heq, -⟩⟩ :=
      hx before l₁ _ hfirst
    rotate_left
    · cases heq
    cases heq
    obtain ⟨looks₂, htaken₂, hadded₂, hlog₂, hstart, hend⟩ := hf a mid l₂ r hrest
    refine ⟨looks₁ ++ looks₂, List.forall_mem_append.mpr ⟨htaken₁, htaken₂⟩, ?_, ?_, ?_, ?_⟩
    · rw [hadded₂, List.map_append, ← List.append_assoc]
      exact congrArg (· ++ _) hadded₁
    · rw [withoutWaits_append, hlog₁, hlog₂, List.flatMap_append]
    · rw [List.map_append]
      exact (List.prefix_append_right_inj _).mpr hstart
    · refine hend.imp (fun ⟨b, after, hr, hhosts, houtcome⟩ => ⟨b, after, hr, ?_, ?_⟩) id
      · rw [List.map_append, hhosts]
      · exact houtcome.trans hsame

theorem takesLooks_pure (a : α) : TakesLooks fleet (pure a) [] := by
  rintro before _ _ ⟨rfl, rfl⟩
  exact ⟨[], fun _ h => absurd h List.not_mem_nil, (List.append_nil _).symm, rfl, List.prefix_rfl,
    .inl ⟨a, before, rfl, rfl, rfl⟩⟩

theorem takesLooks_wait (stage : String) (delay : Duration) :
    TakesLooks fleet (need stage (settle delay)) [] := by
  have hnone {l : Log} {r : Except FleetError Unit} (h : (settle delay).run.Yields l r) :
      l.withoutWaits = [] := by
    refine List.filter_eq_nil_iff.mpr fun e he hprompt => ?_
    exact settle_isWait h e he (of_decide_eq_true hprompt)
  intro before l r h
  refine ⟨[], fun _ h => absurd h List.not_mem_nil, ?_⟩
  match r, h with
  | .ok (a, after), h =>
    obtain ⟨hwait, rfl⟩ := ends_need_ok.mp h
    exact ⟨(List.append_nil _).symm, hnone hwait, List.prefix_rfl, .inl ⟨a, after, rfl, rfl, rfl⟩⟩
  | .error last, h =>
    obtain ⟨e, hwait, rfl⟩ := ends_need_error.mp h
    refine ⟨(List.append_nil _).symm, hnone hwait, List.prefix_rfl, .inr ⟨_, rfl, ?_⟩⟩
    simp [Report.abort]

theorem takesLooks_forM {f : Host → Conduct Unit}
    (hf : ∀ host, (f host).TakesLooks fleet [host]) (hosts : List Host) :
    TakesLooks fleet (hosts.forM f) hosts := by
  induction hosts with
  | nil => exact takesLooks_pure ()
  | cons host rest ih => exact takesLooks_bind (hf host) fun _ => ih

end Conduct

namespace Fleet

variable (fleet : Fleet) {hosts : List Host} {l : Log}

theorem sweepHost_takes (host : Host) : (fleet.sweepHost host).TakesLooks fleet [host] := by
  intro before l r h
  have hprompt : l.withoutWaits = l :=
    List.filter_eq_self.mpr fun e he =>
      decide_eq_true (fleet.sweepHost_prompt host before l r h e he)
  obtain ⟨l₁, l₂, result, seen, snapshot, rfl, hvisit, hping, rfl⟩ := fleet.sweepHost_ends host h
  refine ⟨[⟨host, l₁ ++ l₂, snapshot⟩], fun look hlook => ?_, ?_, ?_, List.prefix_rfl,
    .inl ⟨_, _, rfl, rfl, ?_⟩⟩
  · obtain rfl := List.mem_singleton.mp hlook
    exact ⟨l₁, l₂, result, seen, rfl, hvisit, hping⟩
  · cases result <;> rfl
  · rw [hprompt]
    exact (List.append_nil _).symm
  · cases result <;> rfl

theorem sweepAll_takes (hosts : List Host) : (fleet.sweepAll hosts).TakesLooks fleet hosts := by
  cases hosts with
  | nil => exact Conduct.takesLooks_pure ()
  | cons host rest =>
    refine Conduct.takesLooks_bind (fleet.sweepHost_takes host) fun _ => ?_
    exact Conduct.takesLooks_forM (fun next => Conduct.takesLooks_bind
      (Conduct.takesLooks_wait _ _) fun _ => fleet.sweepHost_takes next) rest

/-- A sweep takes a look at each host up to the last one that it gets to, and asks nothing else but
the waits between; one that has completed has got to all of them. -/
theorem sweep_takes {report : Report} (h : (fleet.sweep hosts).Yields l report) :
    ∃ looks : List Look, (∀ look ∈ looks, fleet.Takes look) ∧
      report.snapshots = looks.map Look.snapshot ∧ l.withoutWaits = looks.flatMap Look.log ∧
      looks.map Look.host <+: hosts ∧
      (report.outcome = .completed → looks.map Look.host = hosts) := by
  obtain ⟨r, hends, rfl⟩ := Conduct.conclude_ends h
  obtain ⟨looks, htaken, hadded, hlog, hstart, hend⟩ := fleet.sweepAll_takes hosts _ _ _ hends
  have hsnapshots : (Conduct.finalReport r).snapshots = looks.map Look.snapshot := by
    match r, hadded with
    | .ok (_, _), hadded => exact hadded
    | .error _, hadded => exact hadded
  refine ⟨looks, htaken, hsnapshots, hlog, hstart, fun hcompleted => ?_⟩
  obtain ⟨_, _, -, hall, -⟩ | ⟨last, rfl, hne⟩ := hend
  · exact hall
  · exact absurd hcompleted hne

variable {fleet} in
/-- What is seen in a look is seen of its host. -/
theorem Takes.subject {look : Look} (h : fleet.Takes look) :
    look.snapshot.subject = (look.host.name, look.host.address) := by
  obtain ⟨_, _, _, _, -, hvisit, hping⟩ := h
  exact (fleet.pinged_subject look.host hping).trans (fleet.visit_subject look.host hvisit)

end Fleet

end NodeFleet
