import NodeFleet.Proofs.Parties

/-!
# NodeFleet.Proofs.Replying — worlds in which every command is answered with one line

In such a world every session opens, every file arrives and nothing is cancelled; what a command is
answered is a matter of the host and of the task alone.  Small fleets are run in them.

* `World.replying`: the world, for a line to each host and task.
* `World.replying_calm`, `World.replying_run`: no program is cancelled in it, and every command that
  a program has run was answered with its line.
* `Task.agreed`: the lines of daemons that let everything go well.
-/

namespace NodeFleet

/-- A world without failures or cancellation, in which each command is answered with one line. -/
def World.replying (reply : Host → Task → String) : World Unit
  | .connect _, s => (.ok (), s)
  | .run host command, s => (.ok ⟨"", [reply host command.task], some 0⟩, s)
  | .write _ _ _, s => (.ok (), s)
  | .close _, s => ((), s)
  | .cancelled, s => (false, s)
  | .sleep _, s => (true, s)
  | .clock, s => (.zero, s)
  | .ping _, s => (true, s)
  | .launch _ _, s => (.ok (), s)
  | .load _, s => (.error "no such file", s)

theorem World.replying_calm {α : Type} (reply : Host → Task → String) (p : Program α) :
    Calm (p.log (.replying reply) ()) :=
  World.NeverCancels.calm ⟨fun _ => rfl, fun _ _ => rfl⟩ p ()

/-- What is answered to a command is the line for its host and its task. -/
theorem World.replying_run {α : Type} {reply : Host → Task → String} {p : Program α} {host : Host}
    {command : Command} {answer : Except RemoteError Reply}
    (h : ⟨.run host command, answer⟩ ∈ p.log (.replying reply) ()) :
    answer = .ok ⟨"", [reply host command.task], some 0⟩ := by
  induction p with
  | done a => exact absurd h List.not_mem_nil
  | ask r next ih =>
    obtain hfirst | hrest := List.mem_cons.mp h
    · cases r with
      | run _ _ =>
        cases hfirst
        rfl
      | _ => cases hfirst
    · exact ih _ hrest

/-- The line with which a daemon lets everything go well. -/
def Task.agreed : Task → String
  | .stop => "stopping"
  | .privateKey => "key"
  | .accountAddress _ => "address"
  | .pay _ _ | .outputs => "hash"
  | .startAlias _ | .startLocal => "success"
  | _ => ""

end NodeFleet
