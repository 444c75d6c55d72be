import EventScript.Evaluation
import EventScript.Failure
import EventScript.Offline
import EventScript.Syntax.Check
import EventScript.Syntax.Parse

/-!
# Sessions

A session runs source texts one after another on the same machine. Each text is parsed and
checked; then its statements are run, and after them the event loop until nothing is queued or
pending. An error ends the statements or the task that it arises in, is reported, and keeps
nothing else from running.

What a session needs from outside is a `Hosting`, in any monad: `Hosting.nextTask` and all that
builds on it is written once. `Hosting.ofWorld` lets the world of the session carry out the jobs,
and time go on as its clock does; a shell brings a hosting of its own. Running takes a bound, as
evaluation does, and fails if the bound does not suffice.
-/

namespace EventScript

/-- Runs a computation and reports its failure. -/
def Run.reporting (run : Run Unit) (machine : Machine) : Option Machine :=
  match run machine with
  | .done () machine => some machine
  | .failed diagnostic machine => some (machine.report diagnostic)
  | .exhausted => none

/-- Parses and checks a source text. -/
def Program.accept (source : String) : Except Failure Program :=
  match Program.ofText source with
  | .error diagnostic => .error (.malformed diagnostic)
  | .ok program =>
    match program.check with
    | [] => .ok program
    | diagnostics => .error (.rejected diagnostics)

/-- A source text is accepted as what it is read as, if that breaks no rule. -/
theorem Program.accept_iff {source : String} {program : Program} :
    accept source = .ok program ↔ ofText source = .ok program ∧ program.check = [] := by
  unfold accept
  constructor
  · intro accepted
    split at accepted
    · contradiction
    · rename_i found read
      split at accepted
      · rename_i clear
        obtain rfl := Except.ok.inj accepted
        exact ⟨read, clear⟩
      · contradiction
  · rintro ⟨read, clear⟩
    simp only [read, clear]

/-- Runs the statements of a program in the global scope. -/
def Machine.runBody (bound : Nat) (program : Program) (machine : Machine) : Option Machine :=
  let body : Run Unit := do let _ ← executeAll bound program
  (body.reporting machine.toTopLevel).map Machine.toTopLevel

/-- Runs a task from the global scope. -/
def Machine.runTask (bound : Nat) (task : Task Value) (machine : Machine) : Option Machine :=
  (runAction bound task.action).reporting machine.toTopLevel

/-- Asks the event loop what to do next. -/
def Machine.ask (machine : Machine) : Poll Value × Machine :=
  let (reading, machine) := machine.readTime
  let (poll, events) := machine.events.poll reading
  (poll, { machine with events })

/-- Puts a delivery into the inbox of the event loop, if its operation is under way. -/
def Machine.deliver (machine : Machine) (delivery : Delivery) : Machine :=
  match machine.events.report? delivery.operation delivery.outcome with
  | some events => { machine with events }
  | none => machine

/-- Whether a delivery on an operation that is under way has arrived. -/
def Machine.hasArrived (machine : Machine) (delivery : Delivery) : Bool :=
  delivery.arrival ≤ machine.clock.elapsed &&
    machine.events.unreported.contains delivery.operation

/-- How a run ended before which `count` errors had been reported: it failed if there are more
now. -/
def Machine.conclusion (count : Nat) (machine : Machine) : Except Failure Unit :=
  match machine.reported.drop count with
  | [] => .ok ()
  | errors => .error (.runtime errors)

/-- A machine and what carries out its jobs. -/
structure Session where
  machine : Machine
  host : Host

/-- Puts the deliveries that have arrived into the inbox of the event loop. -/
def Session.collect (session : Session) : Session :=
  let machine := session.machine
  let arrived := session.host.deliveries.filter machine.hasArrived
  let others := session.host.deliveries.filter fun delivery => !machine.hasArrived delivery
  { machine := arrived.foldl Machine.deliver machine
    host := { session.host with deliveries := others } }

/-- What a session needs from outside: the time, somebody who carries out its jobs, and waits. -/
structure Hosting (m : Type → Type) where
  /-- Stops where the bound does not suffice. -/
  giveUp {α : Type} : m α
  /-- Finds out how late it is. -/
  look : Session → m Session
  /-- Hands on the jobs that were asked for. -/
  handOn : Session → m Session
  /-- Lets the time go on until that much has passed since the start. -/
  sleepUntil : Duration → Session → m Session
  /-- Waits for the next delivery, though not longer than until the deadline. -/
  await : Option Duration → Session → m Session

namespace Hosting

variable {m : Type → Type} [Monad m]

/-- The result of a computation that may have come to its bound. -/
@[inline] def settle {α : Type} (hosting : Hosting m) : Option α → m α
  | some result => pure result
  | none => hosting.giveUp

/-- Takes in the reports that have come, and gives the next task that is ready, after waiting for
it if there is none yet. There is no next task when nothing is queued or pending. -/
@[specialize] def nextTask (hosting : Hosting m) :
    Nat → Session → m (Option (Task Value) × Session)
  | 0, _ => hosting.giveUp
  | bound + 1, session => do
    let session := (← hosting.look session).collect
    let (poll, machine) := session.machine.ask
    let session := { session with machine }
    match poll with
    | .ready task => return (some task, session)
    | .idle => return (none, session)
    | .sleep wake => nextTask hosting bound (← hosting.sleepUntil wake session)
    | .await deadline => nextTask hosting bound (← hosting.await deadline session)

/-- Runs the event loop until nothing is queued or pending. -/
@[specialize] def drain (hosting : Hosting m) : Nat → Session → m Session
  | 0, _ => hosting.giveUp
  | bound + 1, session => do
    let (next, session) ← hosting.nextTask bound session
    match next with
    | none => return { session with machine := session.machine.toTopLevel }
    | some task =>
      let machine ← hosting.settle (session.machine.runTask bound task)
      drain hosting bound (← hosting.handOn { session with machine })

/-- Runs a program and then the event loop. The result is a failure if errors were reported. -/
@[specialize] def interpret (hosting : Hosting m) (bound : Nat) (program : Program)
    (session : Session) : m (Except Failure Unit × Session) := do
  let count := session.machine.reported.length
  let machine ← hosting.settle (session.machine.runBody bound program)
  let session ← hosting.drain bound (← hosting.handOn { session with machine })
  return (session.machine.conclusion count, session)

/-- Parses, checks and runs a source text. -/
@[specialize] def evaluate (hosting : Hosting m) (bound : Nat) (source : String)
    (session : Session) : m (Except Failure Unit × Session) :=
  match Program.accept source with
  | .error failure => return (.error failure, session)
  | .ok program => hosting.interpret bound program session

end Hosting

namespace Session

/-- Lets some time pass, if an operation is under way. -/
def look (session : Session) : Session :=
  let machine := session.machine
  if machine.events.unreported.isEmpty then session
  else { session with machine := { machine with clock := machine.clock.read.2 } }

/-- Hands the jobs that were asked for to the host. -/
def undertake (session : Session) : Session :=
  let machine := session.machine
  { machine := { machine with launched := [] }
    host := machine.launched.foldl (Host.undertake machine.clock.elapsed) session.host }

/-- Lets the time go on until that much has passed since the start. -/
def sleepUntil (wake : Duration) (session : Session) : Session :=
  let machine := session.machine
  { session with machine := { machine with clock := machine.clock.advanceTo wake } }

/-- Puts a delivery into the inbox of the event loop, when it arrives. -/
def receive (delivery : Delivery) (session : Session) : Session :=
  let session := session.sleepUntil delivery.arrival
  { session with machine := session.machine.deliver delivery }

/-- Waits for the next delivery, though not longer than until the deadline. -/
def await (deadline : Option Duration) (session : Session) : Option Session :=
  match session.host.next?, deadline with
  | none, none => none
  | none, some wake => some (session.sleepUntil wake)
  | some (delivery, host), none => some ({ session with host }.receive delivery)
  | some (delivery, host), some wake =>
    if wake < delivery.arrival then some (session.sleepUntil wake)
    else some ({ session with host }.receive delivery)

end Session

/-- The world of the session carries out its jobs, and time goes on as its clock does. -/
def Hosting.ofWorld : Hosting Option where
  giveUp := none
  look session := some session.look
  handOn session := some session.undertake
  sleepUntil wake session := some (session.sleepUntil wake)
  await deadline session := session.await deadline

namespace Session

/-- Gives the next task that is ready. -/
def nextTask (bound : Nat) (session : Session) : Option (Option (Task Value) × Session) :=
  Hosting.ofWorld.nextTask bound session

/-- Runs the event loop until nothing is queued or pending. -/
def drain (bound : Nat) (session : Session) : Option Session :=
  Hosting.ofWorld.drain bound session

/-- Runs a program and then the event loop. The result is a failure if errors were reported. -/
def interpret (bound : Nat) (program : Program) (session : Session) :
    Option (Except Failure Unit × Session) :=
  Hosting.ofWorld.interpret bound program session

/-- Parses, checks and runs a source text. -/
def evaluate (bound : Nat) (source : String) (session : Session) :
    Option (Except Failure Unit × Session) :=
  Hosting.ofWorld.evaluate bound source session

/-- Calls a value from outside the program, without running the event loop. -/
def call (bound : Nat) (callee : Value) (arguments : List Value) (session : Session) :
    Option (Except Diagnostic Value × Session) :=
  match callValue bound callee arguments default session.machine with
  | .done value machine => some (.ok value, { session with machine }.undertake)
  | .failed diagnostic machine => some (.error diagnostic, { session with machine }.undertake)
  | .exhausted => none

/-- A session that has run nothing yet. -/
def new (settings : Settings) (sink : Sink) (console : Console) (files : Files)
    (clock : WallClock) (world : World := .offline) : Session :=
  { machine := .new settings sink console clock, host := { world, files } }

end Session

end EventScript
