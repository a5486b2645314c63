import NodeFleet.Proofs.Bracketing

/-!
# NodeFleet.Proofs.DeskSessions — no order leaves a session open

What a procedure does in a session stays on the host of the session.  So the log of each procedure
is built from whole sessions, and so is the log of any orders one after the other.

* `Fleet.asks_within`: what an order may ask in a session stays in it.
* `Fleet.program_bracketed`: every procedure.
* `Desk.logs_wellBracketed`: all orders, one after the other, in any world.
-/

namespace NodeFleet

namespace Fleet

variable (fleet : Fleet)

/-- What an order asks of a host in a session stays in the session. -/
theorem asks_within {order : Order} {host : Host} {r : Request} (h : fleet.Asks order host r) :
    r.Within host := by
  -- in a session all orders stay on its host; the cases only differ in how this is written down
  cases order with
  | restart wiped =>
    obtain ⟨-, h | h⟩ := h
    all_goals exact Request.IsOn.within h
  | coldRestart wiped amount? =>
    cases h with
    | stop h => exact Request.IsOn.within h
    | start h => exact Request.IsOn.within h
    | startMasternode key hfirst h => exact Request.IsOn.within h
    | _ => exact ⟨rfl, trivial⟩
  | promote staking? =>
    obtain ⟨-, h⟩ | ⟨-, key, h⟩ := h
    all_goals exact Request.IsOn.within h
  | installBinaries targets =>
    obtain ⟨-, binaries, h⟩ := h
    exact Request.IsOn.within h
  | transfer tokens amount? =>
    obtain ⟨-, rfl⟩ | ⟨rfl, amount, destinations, h⟩ := h
    · exact ⟨rfl, trivial⟩
    · exact Request.IsOn.within h
  | awaitBalance targets amount? =>
    obtain ⟨-, rfl⟩ := h
    exact ⟨rfl, trivial⟩
  | reboot targets =>
    obtain ⟨-, h | h⟩ := h
    all_goals exact Request.IsOn.within h
  | openConsoles targets => exact absurd h id
  | _ => exact Request.IsOn.within h.2

/-- The log of every procedure is built from whole sessions. -/
theorem program_bracketed (order : Order) : Leaves Bracketed (fleet.program order) :=
  fleet.program_leaves (bracketed_holdsOfSessions fun _ _ => fleet.asks_within)

end Fleet

namespace Desk

/-- The logs of orders that are carried out one after the other, a log for each. -/
def logs {σ : Type} (world : World σ) : Desk → List Order → σ → List Log
  | _, [], _ => []
  | desk, order :: rest, s =>
    let ended := (desk.carryOut order).run world s
    (desk.carryOut order).log world s :: logs world ended.1.2 rest ended.2

/-- An order leaves its report, and the desk keeps the snapshots of a sweep. -/
theorem carryOut_cases {desk : Desk} {order : Order} {l : Log} {report : Report} {later : Desk}
    (h : (desk.carryOut order).Yields l (report, later)) :
    (desk.fleet.program order).Yields l report ∧
      ((∃ targets, order = .sweep targets) ∧ later = desk.keep report ∨
        (∀ targets, order ≠ .sweep targets) ∧ later = desk) := by
  obtain ⟨l₁, l₂, _, rfl, hprogram, hlast⟩ := Program.yields_bind.mp h
  split at hlast
  · obtain ⟨rfl, heq⟩ := Program.yields_pure.mp hlast
    cases heq
    rw [List.append_nil]
    exact ⟨hprogram, .inl ⟨⟨_, rfl⟩, rfl⟩⟩
  · rename_i hother
    obtain ⟨rfl, heq⟩ := Program.yields_pure.mp hlast
    cases heq
    rw [List.append_nil]
    exact ⟨hprogram, .inr ⟨hother, rfl⟩⟩

/-- What the log of every order of a fleet has, the log of each of several orders has. -/
theorem logs_leave {P : Log → Prop} {σ : Type} (world : World σ) (desk : Desk)
    (h : ∀ order, Leaves P (desk.fleet.program order)) (orders : List Order) (s : σ) :
    ∀ l ∈ desk.logs world orders s, P l := by
  induction orders generalizing desk s with
  | nil => exact fun l hl => absurd hl List.not_mem_nil
  | cons order rest ih =>
    obtain ⟨hprogram, hkept⟩ := carryOut_cases (Program.yields_log world (desk.carryOut order) s)
    intro l hl
    obtain rfl | hl := List.mem_cons.mp hl
    · exact h order _ _ hprogram
    · refine ih _ (fun other => ?_) _ l hl
      -- the desk of the next order is one of the same fleet
      obtain ⟨-, hlater⟩ | ⟨-, hlater⟩ := hkept
      · rw [hlater]
        exact h other
      · rw [hlater]
        exact h other

theorem logs_bracketed {σ : Type} (world : World σ) (desk : Desk) (orders : List Order) (s : σ) :
    ∀ l ∈ desk.logs world orders s, Bracketed l :=
  logs_leave world desk desk.fleet.program_bracketed orders s

/-- In any world, the log of each order, and the log of all orders together, is well bracketed. -/
theorem logs_wellBracketed {σ : Type} (world : World σ) (desk : Desk) (orders : List Order)
    (s : σ) :
    (∀ l ∈ desk.logs world orders s, l.WellBracketed) ∧
      Log.WellBracketed (desk.logs world orders s).flatten := by
  have hall := desk.logs_bracketed world orders s
  have hflat : ∀ ls : List Log, (∀ l ∈ ls, Bracketed l) → Bracketed ls.flatten := by
    intro ls hls
    induction ls with
    | nil => exact .nil
    | cons l ls ih =>
      rw [List.flatten_cons]
      refine Composes.append (hls l List.mem_cons_self) (ih fun l' hl' => ?_)
      exact hls l' (List.mem_cons_of_mem _ hl')
  exact ⟨fun l hl => (hall l hl).wellBracketed, (hflat _ hall).wellBracketed⟩

end Desk

end NodeFleet
