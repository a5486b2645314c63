import NodeFleet.Proofs.Aligned
import NodeFleet.Proofs.Answers
import NodeFleet.Proofs.Orders
import NodeFleet.Proofs.Replying
import NodeFleet.Proofs.Rosters

/-!
# NodeFleet.Proofs.Isolation — what one host does makes no difference to the others

Where every host answers only from what it has been sent itself, and the operator does not cancel, a
host that behaves differently changes nothing for the others: they are sent the same, in the same
order, and have the same results and snapshots in the report.

* `visit_subject`, `pinged_subject`: what is noted of a host stays noted of that host.
  `sweepHost_ends`: how looking at a host can end.
* `sweepAll_alike`, `rebootAll_alike`: the loops that are written out, beside `alike_eachHost`.
* `Program.Isolated`: the runs of a procedure in two worlds do not differ but at one address.
* `Fleet.procedures_isolated`: the procedures on hosts are isolated from each host.
-/

namespace NodeFleet

/-! ## Sweeps -/

namespace Snapshot

/-- Whose snapshot it is: the host's name and address. -/
def subject (s : Snapshot) : String × String := (s.host, s.address)

@[simp] theorem notePing_subject (s : Snapshot) (alive : Bool) :
    (s.notePing alive).subject = s.subject := by
  unfold notePing
  split <;> rfl

end Snapshot

namespace Fleet

variable (fleet : Fleet) (host : Host)

theorem visit_staysAt : Leaves (Only (Request.StaysAt host.address)) (fleet.visit host) := by
  refine leaves_bind (m := Program) ?_ fun visited => ?_
  · exact withSession_staysAt (fleet.inspect_only host _)
  · split
    · exact leaves_pure _
    · exact leaves_pure _

theorem visit_subject {l : Log} {visited : Except FleetError Unit × Snapshot}
    (h : (fleet.visit host).Yields l visited) :
    visited.2.subject = (host.name, host.address) := by
  rw [(visit_cases h).1]
  rfl

theorem visit_apart :
    Program.Apart host.address (fun visited => visited.2.address = host.address)
      (fleet.visit host) :=
  Program.apart_of_leaves (fleet.visit_staysAt host) fun _ _ _ h =>
    congrArg Prod.snd (fleet.visit_subject host h)

theorem pinged_staysAt (s : Snapshot) :
    Leaves (Only (Request.StaysAt host.address)) (fleet.pinged host s) :=
  pinged_leaves s fun _ => only_singleton.mpr (.inl rfl)

theorem pinged_subject {l : Log} {s snapshot : Snapshot}
    (h : (fleet.pinged host s).Yields l snapshot) : snapshot.subject = s.subject := by
  obtain ⟨-, -, alive, -, rfl⟩ | ⟨-, -, rfl⟩ := pinged_cases h
  · exact s.notePing_subject alive
  · rfl

theorem pinged_apart {s : Snapshot} (hs : s.address = host.address) :
    Program.Apart host.address (fun snapshot => snapshot.address = host.address)
      (fleet.pinged host s) :=
  Program.apart_of_leaves (fleet.pinged_staysAt host s) fun _ _ _ h =>
    (congrArg Prod.snd (fleet.pinged_subject host h)).trans hs

/-- A host is visited, and pinged where that is asked for; the result and the snapshot are entered,
whatever they are. -/
theorem sweepHost_ends {before : Report} {l : Log} {r : Except Report (Unit × Report)}
    (h : (fleet.sweepHost host).Ends before l r) :
    ∃ l₁ l₂ result seen snapshot, l = l₁ ++ l₂ ∧
      (fleet.visit host).Yields l₁ (result, seen) ∧
      (fleet.pinged host seen).Yields l₂ snapshot ∧
      r = .ok ((), ((before.stageResult "inspect" (some host) (fun _ => some snapshot.verdict)
        result).hostResult host result).addSnapshot snapshot) := by
  obtain ⟨_, -, hvisit⟩ | ⟨l₁, l₂, ⟨result, seen⟩, mid, rfl, hvisit, hrest⟩ :=
    Conduct.ends_bind_cases h
  · cases (Conduct.ends_lift.mp hvisit).choose_spec.2
  obtain ⟨_, hvisited, heq⟩ := Conduct.ends_lift.mp hvisit
  cases heq
  obtain ⟨_, -, hpinged⟩ | ⟨l₃, l₄, snapshot, mid, rfl, hpinged, hlast⟩ :=
    Conduct.ends_bind_cases hrest
  · cases (Conduct.ends_lift.mp hpinged).choose_spec.2
  obtain ⟨_, hping, heq⟩ := Conduct.ends_lift.mp hpinged
  cases heq
  obtain ⟨rfl, rfl⟩ := Conduct.ends_enter.mp (Conduct.ends_enter_bind.mp hlast)
  rw [List.append_nil]
  exact ⟨l₁, l₃, result, seen, snapshot, rfl, hvisited, hping, rfl⟩

/-- A ping opens no session. -/
theorem pinged_opens_none {l : Log} {s snapshot : Snapshot}
    (h : (fleet.pinged host s).Yields l snapshot) : Only (fun r => ¬ r.Connects) l := by
  have haside : Request.IsAside (.ping host.address) := trivial
  exact pinged_leaves s (fun _ => only_singleton.mpr haside.not_connects) l snapshot h

theorem sweepHost_silent :
    Conduct.Silent host.address (fun _ => True) (fleet.sweepHost host) := by
  refine Conduct.silent_bind (Conduct.silent_lift (fleet.visit_apart host)) ?_
  rintro ⟨result, seen⟩ hseen
  refine Conduct.silent_bind (Conduct.silent_lift (fleet.pinged_apart host hseen)) ?_
  intro snapshot hsnapshot
  refine Conduct.silent_bind (Conduct.silent_enter fun r => ?_) fun _ _ => ?_
  · rw [Report.others_hostResult_at rfl, Report.others_stageResult]
  · exact Conduct.silent_enter fun r => Report.others_addSnapshot_at hsnapshot

variable {t : Twins} {r₁ r₂ : Report}

theorem sweepHost_alike (hne : host.address ≠ t.address)
    (hr : r₁.others t.address = r₂.others t.address) :
    Conduct.Alike t Eq r₁ (fleet.sweepHost host) r₂ (fleet.sweepHost host) := by
  have hvisit := leaves_avoids (fleet.visit_staysAt host) hne
  have hpinged (seen : Snapshot) := leaves_avoids (fleet.pinged_staysAt host seen) hne
  refine Conduct.alike_bind (Conduct.alike_lift hvisit hr) ?_
  rintro ⟨result, seen⟩ _ r₁ r₂ hr rfl
  refine Conduct.alike_bind (Conduct.alike_lift (hpinged seen) hr) ?_
  rintro snapshot _ r₁ r₂ hr rfl
  refine Conduct.alike_bind (Conduct.alike_enter ?_) fun _ _ r₁ r₂ hr _ => ?_
  · exact Report.others_hostResult_congr (by simpa using hr) result
  · exact Conduct.alike_enter (Report.others_addSnapshot_congr hr snapshot)

theorem sweepAll_alike (hosts : List Host) (hr : r₁.others t.address = r₂.others t.address) :
    Conduct.Alike t Eq r₁ (fleet.sweepAll hosts) r₂ (fleet.sweepAll hosts) := by
  have hsilent (host : Host) (hat : host.address = t.address) :
      Conduct.Silent t.address (fun _ => True) (fleet.sweepHost host) :=
    hat ▸ fleet.sweepHost_silent host
  cases hosts with
  | nil => exact Conduct.alike_pure hr rfl
  | cons host rest =>
    refine Conduct.alike_bind (R := Eq) ?_ fun _ _ r₁ r₂ hr _ => ?_
    · by_cases hat : host.address = t.address
      · exact Conduct.alike_silent (hsilent host hat) (hsilent host hat) (fun _ _ _ _ => rfl) hr
      · exact fleet.sweepHost_alike host hat hr
    · refine Conduct.alike_forM (.refl rest) (fun next hat => ?_) (fun next hne r₁ r₂ hr => ?_) hr
      · exact Conduct.silent_bind Conduct.silent_wait fun _ _ => hsilent next hat
      · refine Conduct.alike_bind (Conduct.alike_wait hr) fun _ _ r₁ r₂ hr _ => ?_
        exact fleet.sweepHost_alike next hne hr

/-! ## Rebooting -/

/-- Tells a host to reboot, and gives it if it was told. -/
def tell : Conduct (List Host) := do
  match ← Conduct.attempt (fleet.rebootHost host) with
  | .ok _ => do
    Conduct.passed "reboot" host none
    pure [host]
  | .error e => do
    Conduct.settled "reboot" host (fun _ => none) (.error e : Except FleetError Unit)
    pure []

theorem rebootAll_cons (rest : List Host) :
    fleet.rebootAll (host :: rest) = (do
      let told ← fleet.tell host
      let others ← fleet.rebootAll rest
      pure (told ++ others)) := by
  unfold tell
  rw [bind_assoc]
  refine congrArg (Conduct.attempt (fleet.rebootHost host) >>= ·) (funext fun result => ?_)
  cases result with
  | ok _ => simp only [bind_assoc, pure_bind, List.singleton_append]
  | error e => simp only [bind_assoc, pure_bind, List.nil_append, bind_pure]

theorem rebootHost_staysAt :
    Leaves (Only (Request.StaysAt host.address)) (fleet.rebootHost host) :=
  inSession_staysAt (fleet.rebootSteps_only host)

theorem tell_silent :
    Conduct.Silent host.address (fun told => ∀ g ∈ told, g.address = host.address)
      (fleet.tell host) := by
  have hattempt : Program.Apart host.address (fun _ => True) (fleet.rebootHost host).run :=
    Program.apart_of_leaves (fleet.rebootHost_staysAt host) fun _ _ _ _ => trivial
  refine Conduct.silent_bind (Conduct.silent_lift hattempt) fun result _ => ?_
  cases result with
  | ok _ =>
    refine Conduct.silent_bind (Conduct.silent_enter fun _ => rfl) fun _ _ => ?_
    exact Conduct.silent_pure (by simp)
  | error e =>
    refine Conduct.silent_bind (Conduct.silent_enter fun r => ?_) fun _ _ => ?_
    · rw [Report.others_hostResult_at rfl, Report.others_stageResult]
    · exact Conduct.silent_pure (by simp)

theorem tell_alike (hr : r₁.others t.address = r₂.others t.address) :
    Conduct.Alike t (SameElsewhere t.address) r₁ (fleet.tell host) r₂ (fleet.tell host) := by
  by_cases hat : host.address = t.address
  · have hsilent := fleet.tell_silent host
    rw [hat] at hsilent
    exact Conduct.alike_silent hsilent hsilent (fun _ _ => .of_at) hr
  · have hreboot := leaves_avoids (fleet.rebootHost_staysAt host) hat
    refine Conduct.alike_bind (Conduct.alike_lift hreboot hr) ?_
    rintro result _ r₁ r₂ hr rfl
    cases result with
    | ok _ =>
      refine Conduct.alike_bind (Conduct.alike_enter hr) fun _ _ r₁ r₂ hr _ => ?_
      exact Conduct.alike_pure hr (.refl _)
    | error e =>
      refine Conduct.alike_bind (Conduct.alike_enter ?_) fun _ _ r₁ r₂ hr _ => ?_
      · exact Report.others_hostResult_congr (by simpa using hr) _
      · exact Conduct.alike_pure hr (.refl _)

/-- The same other hosts have been told to reboot. -/
theorem rebootAll_alike (hosts : List Host) (hr : r₁.others t.address = r₂.others t.address) :
    Conduct.Alike t (SameElsewhere t.address) r₁ (fleet.rebootAll hosts) r₂
      (fleet.rebootAll hosts) := by
  induction hosts generalizing r₁ r₂ with
  | nil => exact Conduct.alike_pure hr .nil
  | cons host rest ih =>
    rw [fleet.rebootAll_cons host rest]
    refine Conduct.alike_bind (fleet.tell_alike host hr) fun told₁ told₂ r₁ r₂ hr htold => ?_
    refine Conduct.alike_bind (ih hr) fun others₁ others₂ r₁ r₂ hr hothers => ?_
    exact Conduct.alike_pure hr (htold.append hothers)

/-- What a reboot does for the hosts that were told: after a wait, it starts their daemons. -/
def startTold (told : List Host) : Conduct Unit :=
  unless told.isEmpty do
    Conduct.need "reboot-settle" (settle (.ofSeconds fleet.config.timing.rebootSettle))
    Conduct.eachHost "start" told fleet.startAgain fun _ => none

/-- The daemons of the same other hosts are started again; a run in which only hosts at the address
were told waits for them, and the other need not. -/
theorem startTold_alike {told₁ told₂ : List Host} (htold : SameElsewhere t.address told₁ told₂)
    (hr : r₁.others t.address = r₂.others t.address) :
    Conduct.Alike t Eq r₁ (fleet.startTold told₁) r₂ (fleet.startTold told₂) := by
  have hloop {r₁ r₂ : Report} (hr : r₁.others t.address = r₂.others t.address) :
      Conduct.Alike t Eq r₁ (Conduct.eachHost "start" told₁ fleet.startAgain fun _ => none) r₂
        (Conduct.eachHost "start" told₂ fleet.startAgain fun _ => none) :=
    Conduct.alike_eachHost htold (fun host => inSession_staysAt (fleet.startDaemon_only host))
      fleet.startAgain_uncancelled hr
  -- a run that has told nobody takes no step in its loop either, so the waits can be left out
  have hsecond {r₁ r₂ : Report} (hr : r₁.others t.address = r₂.others t.address) :
      Conduct.Alike t Eq r₁ (Conduct.eachHost "start" told₁ fleet.startAgain fun _ => none) r₂
        (fleet.startTold told₂) := by
    cases told₂ with
    | nil => exact hloop hr
    | cons host rest =>
      exact Conduct.alike_right Conduct.silent_wait hr fun _ _ _ hr _ => hloop hr
  cases told₁ with
  | nil => exact hsecond hr
  | cons host rest =>
    exact Conduct.alike_left Conduct.silent_wait hr fun _ _ _ hr _ => hsecond hr

end Fleet

/-! ## Every procedure on hosts -/

/-- In two worlds, everybody but the hosts at an address is asked the same by a procedure, in the
same order, and the reports have the same results and snapshots for all other hosts. -/
def Program.Isolated (address : String) (ps₁ ps₂ : Parties) (p : Program Report) : Prop :=
  others address (p.asked ps₁) = others address (p.asked ps₂) ∧
    (p.run ps₁.world []).1.others address = (p.run ps₂.world []).1.others address

theorem Program.Alike.isolated {t : Twins} {p : Program Report}
    (h : Program.Alike t (fun r₁ r₂ => r₁.others t.address = r₂.others t.address) p p) :
    p.Isolated t.address t.first t.second := ⟨h.asked, (h [] [] rfl).2⟩

namespace Fleet

variable (fleet : Fleet) {t : Twins}

theorem eachHost_isolated {α : Type} {procedure : Procedure} {stage : String}
    {step : Host → Step α} {detail : α → Option String} (hosts : List Host)
    (hstays : ∀ host, Leaves (Only (Request.StaysAt host.address)) (step host))
    (huncancelled : ∀ host, Uncancelled (step host)) :
    Program.Isolated t.address t.first t.second
      (Conduct.conclude procedure (Conduct.eachHost stage hosts step detail)) :=
  (Conduct.alike_conclude
    (Conduct.alike_eachHost (.refl hosts) hstays huncancelled rfl)).isolated

theorem sweep_isolated (hosts : List Host) :
    (fleet.sweep hosts).Isolated t.address t.first t.second :=
  (Conduct.alike_conclude (fleet.sweepAll_alike hosts rfl)).isolated

theorem stopWallets_isolated (hosts : List Host) :
    (fleet.stopWallets hosts).Isolated t.address t.first t.second :=
  eachHost_isolated hosts (fun host => inSession_staysAt (fleet.stopSteps_only host))
    fleet.stopHost_uncancelled

theorem startWallets_isolated (wiped : Bool) (hosts : List Host) :
    (fleet.startWallets wiped hosts).Isolated t.address t.first t.second :=
  eachHost_isolated hosts (fun host => inSession_staysAt (fleet.startSteps_only host wiped))
    fun host => fleet.startHost_uncancelled host wiped

theorem writeStakingConfigs_isolated (hosts : List Host) :
    (fleet.writeStakingConfigs hosts).Isolated t.address t.first t.second := by
  refine eachHost_isolated hosts (fun host => ?_) fleet.configureHost_uncancelled
  exact inSession_staysAt (leaves_bind (fleet.configureSteps_only host) fun _ => leaves_pure _)

theorem installBinaries_isolated (hosts : List Host) :
    (fleet.installBinaries hosts).Isolated t.address t.first t.second := by
  have hread : Leaves (Only (Request.Avoids t.address))
      (Conduct.need "read-binaries" (fleet.config.binaries.mapM readBinary)) := by
    refine Conduct.leaves_need (leaves_mapM fun path _ => ?_)
    unfold readBinary
    split
    · exact leaves_throw _
    · refine leaves_bind (leaves_lift_except (leaves_request fun _ => ?_)) fun loaded => ?_
      · exact only_singleton.mpr Party.noConfusion
      · split
        · exact leaves_pure _
        · exact leaves_throw _
  refine (Conduct.alike_conclude (Conduct.alike_bind (Conduct.alike_same hread _) ?_)).isolated
  rintro binaries _ r₁ r₂ hr rfl
  exact Conduct.alike_eachHost (.refl hosts)
    (fun host => inSession_staysAt (fleet.installSteps_only host binaries))
    (fun host => fleet.install_uncancelled host binaries) hr

theorem reboot_isolated (hosts : List Host) :
    (fleet.reboot hosts).Isolated t.address t.first t.second := by
  refine (Conduct.alike_conclude (Conduct.alike_bind (fleet.rebootAll_alike hosts rfl) ?_)).isolated
  exact fun told₁ told₂ r₁ r₂ hr htold => fleet.startTold_alike htold hr

/-- What a promotion does once there are masternodes: one host makes the key, with which each of
them is configured and restarted. -/
def promoteAll (staking : Host) : Conduct Unit := do
  let key ← Conduct.inSession "connect-staking" staking (fleet.makeKey staking)
  Conduct.eachHost "restart-masternode" fleet.masternodes (fleet.installMasternode staking key)
    fun _ => none

/-- The key is the same in both runs if it is made elsewhere, and then so is what is done with
it. -/
theorem promoteAll_alike {staking : Host} (hne : staking.address ≠ t.address) (r : Report) :
    Conduct.Alike t Eq r (fleet.promoteAll staking) r (fleet.promoteAll staking) := by
  have hmakes : Leaves (Only (Request.StaysAt staking.address))
      (Conduct.inSession "connect-staking" staking (fleet.makeKey staking)) :=
    Conduct.leaves_inSession fun begun => withSession_staysAt (fleet.makeKey_only staking begun)
  refine Conduct.alike_bind (Conduct.alike_same (leaves_avoids hmakes hne) r) ?_
  rintro key _ r₁ r₂ hr rfl
  exact Conduct.alike_eachHost (.refl _)
    (fun host => inSession_staysAt (fleet.promoteSteps_only host staking key))
    (fun host => fleet.installMasternode_uncancelled host staking key) hr

theorem promote_isolated {staking? : Option Host}
    (hne : (staking?.getD fleet.roster.stakingHost).address ≠ t.address) :
    (fleet.promote staking?).Isolated t.address t.first t.second := by
  refine (Conduct.alike_conclude (Conduct.alike_ite (fun _ => ?_) fun _ => ?_)).isolated
  · exact Conduct.alike_abort_bind rfl
  · exact fleet.promoteAll_alike hne _

/-- Where every host answers only from what it has been sent, and the operator does not cancel, a
host that behaves differently changes nothing for the hosts at other addresses in a sweep, in
stopping, starting, configuring and rebooting hosts and in installing binaries on them, and neither
in a promotion whose key is made elsewhere. -/
theorem procedures_isolated (fleet : Fleet) {h : Host} {ps₁ ps₂ : Parties}
    (hagree : ps₁.AgreeOff ps₂ h.address) (hcalm : ps₁.NeverCancels) :
    (∀ hosts, (fleet.sweep hosts).Isolated h.address ps₁ ps₂) ∧
    (∀ hosts, (fleet.stopWallets hosts).Isolated h.address ps₁ ps₂) ∧
    (∀ wiped hosts, (fleet.startWallets wiped hosts).Isolated h.address ps₁ ps₂) ∧
    (∀ hosts, (fleet.writeStakingConfigs hosts).Isolated h.address ps₁ ps₂) ∧
    (∀ hosts, (fleet.installBinaries hosts).Isolated h.address ps₁ ps₂) ∧
    (∀ hosts, (fleet.reboot hosts).Isolated h.address ps₁ ps₂) ∧
    ∀ staking?, (staking?.getD fleet.roster.stakingHost).address ≠ h.address →
      (fleet.promote staking?).Isolated h.address ps₁ ps₂ := by
  let t : Twins := ⟨h.address, ps₁, ps₂, hagree, hcalm⟩
  refine ⟨?_, ?_, ?_, ?_, ?_, ?_, ?_⟩
  · exact fun hosts => fleet.sweep_isolated (t := t) hosts
  · exact fun hosts => fleet.stopWallets_isolated (t := t) hosts
  · exact fun wiped hosts => fleet.startWallets_isolated (t := t) wiped hosts
  · exact fun hosts => fleet.writeStakingConfigs_isolated (t := t) hosts
  · exact fun hosts => fleet.installBinaries_isolated (t := t) hosts
  · exact fun hosts => fleet.reboot_isolated (t := t) hosts
  · exact fun staking? hne => fleet.promote_isolated (t := t) hne

end Fleet

/-! ## A host that is down -/

/-- Parties that answer as a world does that does not change. -/
def Parties.ofWorld (world : World Unit) : Parties := fun _ _ r => (world r ()).1

/-- The same parties, except that no session is opened to the hosts at an address. -/
def Parties.down (ps : Parties) (address : String) : Parties
  | p, sent, .connect host =>
    if p = .host address then .error (.connectionFailed "no route to host")
    else ps p sent (.connect host)
  | p, sent, r => ps p sent r

theorem Parties.agreeOff_down (ps : Parties) (address : String) :
    ps.AgreeOff (ps.down address) address := by
  intro p hp
  funext sent r
  cases r with
  | connect host => exact (if_neg hp).symm
  | _ => rfl

/-- Whether the masternode of the pair is down makes no difference to the main host, although more
is asked in a reboot when it is up. -/
theorem Fleet.procedures_isolated_pair :
    let up : Parties := .ofWorld (.replying fun _ => Task.agreed)
    let down : Parties := up.down Host.mn.address
    up.AgreeOff down Host.mn.address ∧ up.NeverCancels ∧
      pair.roster.stakingHost.address ≠ Host.mn.address ∧
      ((pair.reboot pair.roster.all).asked down).length <
        ((pair.reboot pair.roster.all).asked up).length ∧
      (pair.reboot pair.roster.all).Isolated Host.mn.address up down ∧
      (pair.promote none).Isolated Host.mn.address up down := by
  intro up down
  have hagree : up.AgreeOff down Host.mn.address := up.agreeOff_down Host.mn.address
  have hcalm : up.NeverCancels := ⟨fun _ => rfl, fun _ _ => rfl⟩
  have hne : pair.roster.stakingHost.address ≠ Host.mn.address := by decide +kernel
  have hisolated := procedures_isolated pair hagree hcalm
  refine ⟨hagree, hcalm, hne, by decide +kernel, ?_, ?_⟩
  · exact hisolated.2.2.2.2.2.1 pair.roster.all
  · exact hisolated.2.2.2.2.2.2 none hne

end NodeFleet
