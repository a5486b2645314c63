import NodeFleet.Proofs.Cancelling
import NodeFleet.Proofs.Phases
import NodeFleet.Proofs.Preflight
import NodeFleet.Proofs.Sequences

/-!
# NodeFleet.Proofs.Installing — all binaries are staged before any is put into its place

On each host every binary is written beside its place, in the order of the list and with what its
file holds; only when all have been taken are they put into their places, in the same order, until
one is refused.  A refused file and a refused change are failed transfers of that host, which is
never marked as down for them.

* `Fleet.installOrder`: the files and the commands, in their order.
* `Fleet.InstallFailure`: what the failure of a request is filed as.
* `Fleet.Installed`: what holds of the log of a host and of its result.
* `Fleet.install_installed`: whatever a host answers, binaries are installed like that.
* `Fleet.installs_inOrder`: so it is on every host of an order, with binaries that can be read.
-/

namespace NodeFleet

namespace Fleet

variable (fleet : Fleet) (binaries : List Binary) (host : Host)

/-! ## The order -/

/-- The request that writes a binary beside its place. -/
def stageRequest (binary : Binary) : Request :=
  .write host (stagedPath (fleet.installPath binary)) binary.contents

/-- The request that puts a binary into its place. -/
def swapRequest (binary : Binary) : Request :=
  .run host (fleet.command (.swapIn (fleet.installPath binary)))

/-- The files and the commands of installing binaries, in their order. -/
def installOrder : List Request :=
  binaries.map (fleet.stageRequest host) ++ binaries.map (fleet.swapRequest host)

/-- What is done in the session of an installation. -/
def installSteps : Step Unit := do
  binaries.forM (fleet.stageBinary host)
  binaries.forM (fleet.swapBinary host)

theorem installOrder_acts :
    (fleet.installOrder binaries host).filter Request.isAct = fleet.installOrder binaries host := by
  refine List.filter_eq_self.mpr fun r hr => ?_
  obtain hr | hr := List.mem_append.mp hr
  · obtain ⟨b, -, rfl⟩ := List.mem_map.mp hr
    rfl
  · obtain ⟨b, -, rfl⟩ := List.mem_map.mp hr
    rfl

theorem swapBinary_inOrder (binary : Binary) :
    InOrder [fleet.swapRequest host binary] (fleet.swapBinary host binary) := by
  refine inOrder_reworded (inOrder_expect fun _ => changesFiles_iff) (fun _ l r h => ?_)
    fun e l r h => ?_
  · obtain ⟨rfl, rfl⟩ := Program.yields_run_pure.mp h
    exact ⟨rfl, rfl⟩
  · obtain ⟨rfl, rfl⟩ := Program.yields_run_throw.mp h
    exact ⟨rfl, rfl⟩

/-- Installing binaries goes through its requests in their order. -/
theorem installSteps_inOrder :
    InOrder (fleet.installOrder binaries host) (fleet.installSteps binaries host) := by
  unfold installOrder
  rw [List.map_eq_flatMap, List.map_eq_flatMap]
  refine inOrder_bind (inOrder_forM fun _ => inOrder_writeFile) fun _ => ?_
  exact inOrder_forM (fleet.swapBinary_inOrder host)

/-! ## Failures -/

/-- What the failure of a request is filed as: only a broken session is none of the transfer. -/
inductive InstallFailure : Event → FleetError → Prop
  | unsent (path : String) (contents : ByteArray) (cause : RemoteError) :
    InstallFailure ⟨.write host path contents, .error cause⟩ (writeFailure host cause)
  | broken (command : Command) (cause : RemoteError) :
    InstallFailure ⟨.run host command, .error cause⟩ (.session host.name cause)
  | unchanged (command : Command) (reply : Reply) (reason : String)
    (h : (ReplyKind.fileChange.read reply).refusal? = some reason) :
    InstallFailure ⟨.run host command, .ok reply⟩ (.transferFailure host.name reason)

/-- A step that fails does so at its last request, which is filed as its failure. -/
def FailsLast (step : Step Unit) : Prop :=
  ∀ l e, step.run.Yields l (.error e) → ∃ before event, l = before ++ [event] ∧
    InstallFailure host event e

theorem failsLast_bind {x : Step Unit} {f : Unit → Step Unit} (hx : FailsLast host x)
    (hf : FailsLast host (f ())) : FailsLast host (x >>= f) := by
  intro l e h
  obtain hfirst | ⟨l₁, l₂, _, rfl, -, hrest⟩ := Program.yields_bind_error.mp h
  · exact hx l e hfirst
  · obtain ⟨before, event, rfl, hfails⟩ := hf l₂ e hrest
    exact ⟨l₁ ++ before, event, (List.append_assoc _ _ _).symm, hfails⟩

theorem failsLast_forM {step : Binary → Step Unit} (h : ∀ b, FailsLast host (step b)) :
    FailsLast host (binaries.forM step) := by
  induction binaries with
  | nil => exact fun l e hl => nomatch (Program.yields_run_pure.mp hl).2
  | cons b rest ih => exact failsLast_bind host (h b) ih

theorem stageBinary_failsLast (binary : Binary) :
    FailsLast host (fleet.stageBinary host binary) := by
  intro l e h
  obtain ⟨cause | _, rfl, heq⟩ := yields_writeFile.mp h
  · cases heq
    exact ⟨[], _, rfl, .unsent _ _ cause⟩
  · cases heq

theorem swapBinary_failsLast (binary : Binary) :
    FailsLast host (fleet.swapBinary host binary) := by
  intro l e h
  obtain hcaught | ⟨l₁, l₂, result, rfl, hcaught, hlast⟩ := Program.yields_bind_error.mp h
  · obtain ⟨_, -, heq⟩ := yields_caught.mp hcaught
    cases heq
  obtain ⟨_, hresult, heq⟩ := yields_caught.mp hcaught
  cases heq
  cases result with
  | ok _ => cases (Program.yields_run_pure.mp hlast).2
  | error cause =>
    obtain ⟨rfl, heq⟩ := Program.yields_run_throw.mp hlast
    cases heq
    obtain ⟨cause, rfl, rfl⟩ | ⟨reply, reason, rfl, hrefused, rfl⟩ := yields_expect_error.mp hresult
    · exact ⟨[], _, rfl, .broken _ cause⟩
    · exact ⟨[], _, rfl, .unchanged _ reply reason hrefused⟩

theorem installSteps_failsLast : FailsLast host (fleet.installSteps binaries host) :=
  failsLast_bind host (failsLast_forM binaries host (fleet.stageBinary_failsLast host))
    (failsLast_forM binaries host (fleet.swapBinary_failsLast host))

/-! ## One host -/

/-- Binaries are installed on a host.  Nothing is waited for, no binary is put into its place unless
all have been written, refusals are failed transfers of the host, and it is down only if no session
was opened. -/
structure Installed (l : Log) (r : Except FleetError Unit) : Prop extends
    Performs host (fleet.installOrder binaries host) l r where
  calm : Calm l
  staged_first : ∀ before e after, l = before ++ e :: after →
    (∃ b, e.request = fleet.swapRequest host b) →
      ∀ b ∈ binaries, ⟨.write host (stagedPath (fleet.installPath b)) b.contents, .ok ()⟩ ∈ before
  refused_write : ∀ path contents refused reason,
    ⟨.write host path contents, .error (.transferRefused refused reason)⟩ ∈ l →
      r = .error (.transferFailure host.name reason)
  rejected_swap : ∀ b reply reason,
    ⟨fleet.swapRequest host b, .ok reply⟩ ∈ l →
      (ReplyKind.fileChange.read reply).refusal? = some reason →
        r = .error (.transferFailure host.name reason)
  down_iff : (Report.outcomeOf host.name host.address r).hostDown = true ↔
    ∃ cause, l = Log.refused host cause

variable {fleet binaries host} {l : Log} {r : Except FleetError Unit}

/-- What does not succeed is the last that is asked, and the result is its failure. -/
theorem installSteps_fails (h : (fleet.installSteps binaries host).run.Yields l r) {e : Event}
    (he : e ∈ l) (hfails : ¬ e.Succeeds) :
    ∃ cause, r = .error cause ∧ InstallFailure host e cause := by
  have hgoes := fleet.installSteps_inOrder binaries host l r h
  cases r with
  | ok _ => exact absurd ((hgoes.whole_iff.mp rfl).2 e he) hfails
  | error cause =>
    obtain ⟨before, last, rfl, hfailure⟩ := fleet.installSteps_failsLast binaries host l cause h
    obtain he | he := List.mem_append.mp he
    · exact absurd (hgoes.gated rfl e he) hfails
    · obtain rfl := List.mem_singleton.mp he
      exact ⟨cause, rfl, hfailure⟩

/-- All binaries have been written before one is put into its place. -/
theorem installSteps_stages (h : (fleet.installSteps binaries host).run.Yields l r)
    {before after : Log} {e : Event} (hl : l = before ++ e :: after) {b : Binary}
    (hswap : e.request = fleet.swapRequest host b) :
    ∀ b ∈ binaries,
      ⟨.write host (stagedPath (fleet.installPath b)) b.contents, .ok ()⟩ ∈ before := by
  have hlate : e.request ∉ binaries.map (fleet.stageRequest host) := by
    rw [hswap]
    intro hmem
    obtain ⟨_, -, heq⟩ := List.mem_map.mp hmem
    cases heq
  intro b hb
  obtain ⟨⟨_, answer⟩, he, rfl, hsucceeds⟩ :=
    ((fleet.installSteps_inOrder binaries host) l r h).after hl hlate _ (List.mem_map_of_mem hb)
  cases answer with
  | error _ => exact absurd hsucceeds id
  | ok _ => exact he

/-- In the open session nothing shows a host to be down. -/
theorem installSteps_not_down (h : (fleet.installSteps binaries host).run.Yields l r) :
    (Report.outcomeOf host.name host.address r).hostDown = false := by
  cases r with
  | ok _ => rfl
  | error e => exact (fleet.installSteps_faults host binaries l e h).not_down

/-- Whatever a host answers, binaries are installed on it like that. -/
theorem install_installed (h : (fleet.install binaries host).run.Yields l r) :
    fleet.Installed binaries host l r := by
  have hperforms := performs_inSession (fleet.installSteps_inOrder binaries host) h
  rw [installOrder_acts] at hperforms
  have hcalm : Calm l := (fleet.install_prompt host binaries l r h).calm
  obtain ⟨cause, rfl, rfl⟩ | ⟨inner, rfl, hinner⟩ := inSession_cases h
  · have honly {e : Event} (he : e ∈ Log.refused host cause) : e = ⟨.connect host, .error cause⟩ :=
      List.mem_singleton.mp he
    refine ⟨hperforms, hcalm, ?_, ?_, ?_, iff_of_true rfl ⟨cause, rfl⟩⟩
    · rintro before e after hl ⟨b, hswap⟩
      cases honly (hl ▸ List.mem_append_right before List.mem_cons_self)
      cases hswap
    · intro path contents refused reason he
      cases honly he
    · intro b reply reason he
      cases honly he
  · have hfails {e : Event} (he : e ∈ Log.session host inner) (hact : e.request.isAct = true)
        (hnot : ¬ e.Succeeds) : ∃ cause, r = .error cause ∧ InstallFailure host e cause := by
      obtain rfl | he | rfl := mem_session.mp he
      · cases hact
      · exact installSteps_fails hinner he hnot
      · cases hact
    refine ⟨hperforms, hcalm, ?_, ?_, ?_, iff_of_false ?_ ?_⟩
    · rintro before e after hl ⟨b, hswap⟩ other hother
      obtain ⟨early, late, rfl, rfl⟩ := session_split hl (by rw [hswap]; rfl)
      exact List.mem_cons_of_mem _ (installSteps_stages hinner rfl hswap other hother)
    · intro path contents refused reason he
      obtain ⟨_, rfl, hfailure⟩ := hfails he rfl id
      cases hfailure
      rfl
    · intro b reply reason he hrefused
      obtain ⟨_, rfl, hfailure⟩ := hfails he rfl fun hsucceeds =>
        nomatch hrefused.symm.trans (changesFiles_iff.mp hsucceeds)
      cases hfailure with
      | unchanged _ _ other hother => rw [Option.some.inj (hrefused.symm.trans hother)]
    · rw [installSteps_not_down hinner]
      exact Bool.false_ne_true
    · rintro ⟨cause, heq⟩
      cases (List.cons.inj heq).1

/-! ## Every installation -/

theorem installs_calm {installs : List (Host × Except FleetError Unit)} {logs : List Log}
    (h : List.Forall₂ (fun install log => fleet.Installed binaries install.1 log install.2)
      installs logs) : Calm logs.flatten := by
  induction h with
  | nil => exact calm_nil
  | cons hone _ ih => exact calm_append.mpr ⟨hone.calm, ih⟩

/-- Where every binary can be read, each host has its turn, and on each the binaries, with what
their files hold, are all written before any is put into its place. -/
theorem installs_inOrder {σ : Type} (fleet : Fleet) (hosts : List Host) (files : LocalFiles)
    (world : World σ) (s : σ)
    (hreadable : ∀ path ∈ fleet.config.binaries, isMissing files path = false) :
    ∃ binaries reads installs logs,
      List.Forall₂ (Binary.IsReadFrom files) fleet.config.binaries binaries ∧
      Only Request.IsLoad reads ∧
      (fleet.installBinaries hosts).log (world.withFiles files) s = reads ++ logs.flatten ∧
      List.Forall₂ (fun install log => fleet.Installed binaries install.1 log install.2)
        installs logs ∧
      installs.map Prod.fst = hosts ∧
      ((fleet.installBinaries hosts).run (world.withFiles files) s).1.hosts =
        Conduct.outcomes installs := by
  have hfiles := world.withFiles_readsFrom files (fleet.installBinaries hosts) s
  obtain ⟨r, hends, hreport⟩ := Conduct.conclude_ends
    (Program.yields_log (world.withFiles files) (fleet.installBinaries hosts) s)
  obtain ⟨_, -, hread⟩ | ⟨reads, rest, binaries, mid, hlog, hread, hinstall⟩ :=
    Conduct.ends_bind_cases hends
  · obtain ⟨e, hfailed, -⟩ := Conduct.ends_need_error.mp hread
    obtain ⟨path, hpath, hmissing⟩ := List.any_eq_true.mp (readBinaries_error hfailed hfiles).1
    exact absurd hmissing (Bool.eq_false_iff.mp (hreadable path hpath))
  obtain ⟨hall, rfl⟩ := Conduct.ends_need_ok.mp hread
  have hbinaries := readBinaries_ok hall (readsFrom_append.mp (hlog ▸ hfiles)).1
  obtain ⟨installs, hvisits, -, houtcomes⟩ :=
    Conduct.eachHost_visits (fun host => fleet.install_uncancelled host binaries) hinstall
  obtain ⟨logs, rfl, hlogs⟩ := hvisits.segments
  have hinstalled :
      List.Forall₂ (fun install log => fleet.Installed binaries install.1 log install.2)
        installs logs := hlogs.imp fun _ _ => install_installed
  obtain ⟨hhosts, hresults⟩ := houtcomes (installs_calm hinstalled)
  exact ⟨binaries, reads, installs, logs, hbinaries, readBinaries_loads _ _ _ hall, hlog,
    hinstalled, hhosts, (congrArg Report.hosts hreport).trans hresults⟩

end Fleet

/-- The description of the pair, with two binaries to be installed. -/
def Config.shipping : Config := { Config.pair with binaries := ["build/coin-cli", "build/coind"] }

theorem Roster.ofConfig_shipping : Roster.ofConfig .shipping = .ok .pair :=
  Roster.ofConfig_ok (by decide +kernel) rfl rfl rfl rfl rfl

/-- The pair, with two binaries to be installed. -/
def Fleet.shipping : Fleet := ⟨.shipping, .pair, false, Roster.ofConfig_shipping⟩

namespace Fleet

/-- Two binaries go to two hosts, whose files are all there. -/
theorem installs_inOrder_shipping :
    let files : LocalFiles := fun _ => .ok .empty
    (∀ path ∈ shipping.config.binaries, isMissing files path = false) ∧
    ∃ binaries installs logs,
      List.Forall₂ (Binary.IsReadFrom files) shipping.config.binaries binaries ∧
      List.Forall₂ (fun install log => shipping.Installed binaries install.1 log install.2)
        installs logs ∧
      installs.map Prod.fst = shipping.roster.all := by
  intro files
  have hreadable : ∀ path ∈ shipping.config.binaries, isMissing files path = false := by
    decide +kernel
  obtain ⟨binaries, _, installs, logs, hbinaries, -, -, hinstalled, hhosts, -⟩ :=
    installs_inOrder shipping shipping.roster.all files (World.replying fun _ => Task.agreed) ()
      hreadable
  exact ⟨hreadable, binaries, installs, logs, hbinaries, hinstalled, hhosts⟩

end Fleet

end NodeFleet
