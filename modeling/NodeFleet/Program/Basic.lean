import NodeFleet.Daemon.Command
import NodeFleet.Fleet.Host
import NodeFleet.Remote.Error
import NodeFleet.Remote.Reply

/-!
# NodeFleet.Program.Basic — a procedure as a tree of requests

A procedure touches the world only through requests: it asks one, and goes on with what is answered.
Written as a tree with a branch for every answer, it says what is done whatever the fleet, the clock
and the operator do, so that a property of every behaviour is an induction on the tree.

* `Request`, `Request.Answer`: what can be asked, and what is answered.
* `Program`: the trees, a lawful monad.
* `Program.run`: a program in a world that answers each request and changes by it.
-/

namespace NodeFleet

/-- What a program asks of the world. -/
inductive Request where
  /-- Opens a session to a host. -/
  | connect (host : Host)
  /-- Runs a command in the open session to a host. -/
  | run (host : Host) (command : Command)
  /-- Writes a file in the open session to a host. -/
  | write (host : Host) (path : String) (contents : ByteArray)
  /-- Closes the session to a host. -/
  | close (host : Host)
  /-- Asks whether the operator has cancelled. -/
  | cancelled
  /-- Waits; the answer is whether the wait came to its end, and was not cut short by a
  cancellation. -/
  | sleep (length : Duration)
  /-- Reads the clock. -/
  | clock
  /-- Asks whether an address answers a ping. -/
  | ping (address : String)
  /-- Starts a program on the operator's machine and leaves it alone. -/
  | launch (program : String) (arguments : List String)
  /-- Reads a file on the operator's machine. -/
  | load (path : String)

/-- The kind of answer that a request gets; a failure to launch or to load comes with the system's
wording. -/
def Request.Answer : Request → Type
  | connect _ => Except RemoteError Unit
  | run _ _ => Except RemoteError Reply
  | write _ _ _ => Except RemoteError Unit
  | close _ => Unit
  | cancelled => Bool
  | sleep _ => Bool
  | clock => Duration
  | ping _ => Bool
  | launch _ _ => Except String Unit
  | load _ => Except String ByteArray

/-- A result, or a request and what is done with each answer to it. -/
inductive Program (α : Type) where
  | done (result : α)
  | ask (request : Request) (next : request.Answer → Program α)

/-- A world that answers requests and changes by them. -/
def World (σ : Type) : Type := (request : Request) → σ → request.Answer × σ

namespace Program

/-- Goes on with the result. -/
def andThen : Program α → (α → Program β) → Program β
  | done a, f => f a
  | ask request next, f => ask request fun answer => (next answer).andThen f

instance : Monad Program where
  pure := done
  bind := andThen

/-- The program of one request. -/
def request (r : Request) : Program r.Answer := ask r done

/-! ## Single requests -/

/-- Opens a session to a host. -/
def connect (host : Host) : Program (Except RemoteError Unit) := request (.connect host)

/-- Runs a command in the open session to a host. -/
def send (host : Host) (command : Command) : Program (Except RemoteError Reply) :=
  request (.run host command)

/-- Writes a file in the open session to a host. -/
def write (host : Host) (path : String) (contents : ByteArray) :
    Program (Except RemoteError Unit) :=
  request (.write host path contents)

/-- Closes the session to a host. -/
def close (host : Host) : Program Unit := request (.close host)

/-- Whether the operator has cancelled. -/
def isCancelled : Program Bool := request .cancelled

/-- Waits; the answer is whether the wait came to its end. -/
def sleep (length : Duration) : Program Bool := request (.sleep length)

/-- The time on the clock. -/
def clock : Program Duration := request .clock

/-- Whether an address answers a ping. -/
def ping (address : String) : Program Bool := request (.ping address)

/-- Starts a program on the operator's machine. -/
def launch (program : String) (arguments : List String) : Program (Except String Unit) :=
  request (.launch program arguments)

/-- The contents of a file on the operator's machine. -/
def load (path : String) : Program (Except String ByteArray) := request (.load path)

/-! ## Runs -/

/-- Runs a program from a state of a world. -/
def run (world : World σ) : Program α → σ → α × σ
  | done a, s => (a, s)
  | ask r next, s =>
    let answered := world r s
    (next answered.1).run world answered.2

/-! ## Laws -/

@[simp] theorem pure_eq (a : α) : (pure a : Program α) = done a := rfl

@[simp] theorem bind_eq (p : Program α) (f : α → Program β) : p >>= f = p.andThen f := rfl

@[simp] theorem done_andThen (a : α) (f : α → Program β) : (done a).andThen f = f a := rfl

@[simp] theorem ask_andThen (r : Request) (next : r.Answer → Program α) (f : α → Program β) :
    (ask r next).andThen f = ask r fun answer => (next answer).andThen f := rfl

theorem andThen_done (p : Program α) : p.andThen done = p := by
  induction p with
  | done a => rfl
  | ask r next ih => simp only [ask_andThen, ih]

theorem andThen_assoc (p : Program α) (f : α → Program β) (g : β → Program γ) :
    (p.andThen f).andThen g = p.andThen fun a => (f a).andThen g := by
  induction p with
  | done a => rfl
  | ask r next ih => simp only [ask_andThen, ih]

instance : LawfulMonad Program :=
  LawfulMonad.mk' Program andThen_done (fun _ _ => rfl) andThen_assoc

/-- What follows runs in the state that the first part leaves. -/
theorem run_andThen (world : World σ) (p : Program α) (f : α → Program β) (s : σ) :
    (p.andThen f).run world s = (f (p.run world s).1).run world (p.run world s).2 := by
  induction p generalizing s with
  | done a => rfl
  | ask r next ih => exact ih _ _

end Program

end NodeFleet
