import EventScript.Console
import EventScript.EventLoop
import EventScript.Fault
import EventScript.Heap
import EventScript.Job

/-!
# The machine

The whole state of a running program: its heap, where in it the running code is, the calls that
are open, the event loop, and what it has printed and reported. A computation on the machine, a
`Run`, ends in one of three ways: with a value, with a diagnostic, or not at all within the bound
it was given. The last is kept apart from both others, and in the first two the machine keeps all
changes made.
-/

namespace EventScript

/-- The options of a run. -/
structure Settings where
  scriptName : Option String := none
  clock : ClockMode := .real
  requestTimeout : Duration := .ofParts 30 0
  /-- The most calls that may be open at a time. -/
  maxCallDepth : Nat := 2048
  /-- Whether a text can name the method of a request. -/
  namesMethod : String → Bool := isTokenText
deriving Inhabited

/-- Where printed text goes. -/
inductive Sink where
  /-- To the standard output, with reported errors on the standard error stream. -/
  | console
  /-- Into memory; reported errors are only collected. -/
  | captured (text : String)
deriving Inhabited

/-- An open call. -/
structure Frame where
  /-- The class whose method is running, if any. It is alive as long as the call is open, since the
  object that the method runs on is in scope and is an instance of it or of a descendant. -/
  home : Option Class

/-- The wall clock and when the program started, in nanoseconds since 1970. The clock goes on with
each reading, at any pace. -/
structure WallClock where
  started : Nat := 0
  current : Nat := 0
  /-- How many readings have been taken. -/
  readings : Nat := 0
  /-- The time between a reading and the next one. -/
  pace : Nat → Nat := fun _ => 1000
deriving Inhabited

namespace WallClock

/-- The time since the start. -/
def elapsed (clock : WallClock) : Duration := ⟨clock.current - clock.started⟩

/-- Reads the time since the start. The clock goes on. -/
def read (clock : WallClock) : Duration × WallClock :=
  (clock.elapsed,
    { clock with
      current := clock.current + clock.pace clock.readings
      readings := clock.readings + 1 })

/-- Lets the clock go on until that much time has passed since the start. -/
def advanceTo (clock : WallClock) (elapsed : Duration) : WallClock :=
  { clock with current := max clock.current (clock.started + elapsed.nanoseconds) }

end WallClock

/-- The state of a running program. -/
structure Machine where
  heap : Heap
  /-- The global scope. -/
  globals : Nat
  /-- The innermost scope of the running code. -/
  scope : Nat
  /-- The open calls, the innermost first. -/
  frames : List Frame
  events : EventLoop Value
  /-- Work asked for and not yet handed on, by operation. -/
  launched : List (Nat × Job)
  settings : Settings
  console : Console
  sink : Sink
  /-- The errors reported so far. -/
  reported : List Diagnostic
  clock : WallClock

/-- How a computation ends. -/
inductive Outcome (α : Type) where
  | done (value : α) (machine : Machine)
  | failed (diagnostic : Diagnostic) (machine : Machine)
  /-- The bound did not suffice. -/
  | exhausted

/-- A computation on the machine. -/
def Run (α : Type) : Type := Machine → Outcome α

namespace Run

variable {α β : Type}

@[inline] instance : Monad Run where
  pure value := fun machine => .done value machine
  bind first next := fun machine =>
    match first machine with
    | .done value machine => next value machine
    | .failed diagnostic machine => .failed diagnostic machine
    | .exhausted => .exhausted

/-- Computations on the machine can be regrouped, and steps that do nothing left out. -/
instance : LawfulMonad Run := LawfulMonad.mk' Run
  (by
    intro α run
    funext machine
    show (match run machine with
      | .done value later => .done value later
      | .failed diagnostic later => .failed diagnostic later
      | .exhausted => .exhausted) = run machine
    cases run machine <;> rfl)
  (fun _ _ => rfl)
  (by
    intro α β γ run next last
    funext machine
    show (match (match run machine with
        | .done value later => next value later
        | .failed diagnostic later => .failed diagnostic later
        | .exhausted => .exhausted) with
      | .done value later => last value later
      | .failed diagnostic later => .failed diagnostic later
      | .exhausted => .exhausted) =
      (match run machine with
      | .done value later => (next value >>= last) later
      | .failed diagnostic later => .failed diagnostic later
      | .exhausted => .exhausted)
    cases run machine <;> rfl)

section Bind

variable {first : Run α} {next : α → Run β} {machine later : Machine}

/-- The next computation goes on with the value that the first one gives. -/
theorem bind_done {value : α} (done : first machine = .done value later) :
    (first >>= next) machine = next value later := by
  simp only [bind, done]

/-- Nothing follows a failure. -/
theorem bind_failed {diagnostic : Diagnostic} (failed : first machine = .failed diagnostic later) :
    (first >>= next) machine = .failed diagnostic later := by
  simp only [bind, failed]

/-- Nothing follows where the bound does not suffice. -/
theorem bind_exhausted (exhausted : first machine = .exhausted) :
    (first >>= next) machine = .exhausted := by
  simp only [bind, exhausted]

end Bind

/-- Ends without a result. -/
def exhaust : Run α := fun _ => .exhausted

/-- Fails with a diagnostic. -/
def raise (diagnostic : Diagnostic) : Run α := fun machine => .failed diagnostic machine

/-- Fails with a fault that points nowhere. -/
def fault (fault : Fault) : Run α := raise fault.diagnostic

/-- Fails with a fault that points at `span`. -/
def faultAt (fault : Fault) (span : Span) : Run α := raise (fault.diagnosticAt span)

/-- Rewrites the diagnostic of a failure. -/
@[inline] def mapFailure (change : Diagnostic → Diagnostic) (run : Run α) : Run α := fun machine =>
  match run machine with
  | .done value machine => .done value machine
  | .failed diagnostic machine => .failed (change diagnostic) machine
  | .exhausted => .exhausted

/-- Points failures at `span`, wherever they pointed. -/
@[inline] def withSpan (span : Span) (run : Run α) : Run α :=
  run.mapFailure fun diagnostic => diagnostic.withSpan span

/-- Points failures at `span` that point nowhere. -/
@[inline] def orSpan (span : Span) (run : Run α) : Run α :=
  run.mapFailure fun diagnostic => diagnostic.orSpan span

/-- The state of the machine. -/
def machine : Run Machine := fun machine => .done machine machine

/-- The heap. -/
def heap : Run Heap := fun machine => .done machine.heap machine

/-- Changes the state of the machine. -/
def modify (change : Machine → Machine) : Run Unit := fun machine => .done () (change machine)

/-- Creates something on the heap. -/
def create (new : Heap → α × Heap) : Run α := fun machine =>
  let (value, heap) := new machine.heap
  .done value { machine with heap }

/-- Changes the heap. -/
def modifyHeap (change : Heap → Heap) : Run Unit := fun machine =>
  .done () { machine with heap := change machine.heap }

end Run

namespace Machine

/-- Binds the global functions in the global scope. -/
def installBuiltins (heap : Heap) (globals : Nat) : Heap :=
  Builtin.globals.foldl (fun heap builtin =>
    let (value, heap) := heap.newBuiltin builtin none
    heap.define globals builtin.name value) heap

/-- A machine that has run nothing yet. -/
def new (settings : Settings) (sink : Sink) (console : Console) (clock : WallClock) : Machine :=
  let (globals, heap) := ({} : Heap).newScope none
  { heap := installBuiltins heap globals
    globals
    scope := globals
    frames := []
    events := { clock := settings.clock }
    launched := []
    settings
    console
    sink
    reported := []
    clock }

/-- Prints a line. -/
def print (machine : Machine) (text : String) : Machine :=
  match machine.sink with
  | .console => { machine with console := machine.console.write (text ++ "\n") }
  | .captured before => { machine with sink := .captured (before ++ text ++ "\n") }

/-- Reports an error. -/
def report (machine : Machine) (diagnostic : Diagnostic) : Machine :=
  let machine := { machine with reported := machine.reported ++ [diagnostic] }
  match machine.sink with
  | .console => { machine with console := machine.console.writeError (diagnostic.text ++ "\n") }
  | .captured _ => machine

/-- The text printed into memory. -/
def captured (machine : Machine) : String :=
  match machine.sink with
  | .console => ""
  | .captured text => text

/-- Forgets the text printed into memory. -/
def clearCaptured (machine : Machine) : Machine :=
  match machine.sink with
  | .console => machine
  | .captured _ => { machine with sink := .captured "" }

/-- Reads the time since the start, as far as the event loop goes by it: on the virtual clock there
is nothing to read. -/
def readTime (machine : Machine) : Duration × Machine :=
  match machine.events.clock with
  | .virtual => (.zero, machine)
  | .real =>
    let (elapsed, clock) := machine.clock.read
    (elapsed, { machine with clock })

/-- Leaves all calls and goes back to the global scope. -/
def toTopLevel (machine : Machine) : Machine :=
  { machine with scope := machine.globals, frames := [] }

end Machine

end EventScript
