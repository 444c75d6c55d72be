import EventScript.Proofs.Evaluation.Trace
import EventScript.Proofs.Session.Waiting

/-!
# What sessions reach

`Session.Reachable` is every state of a session between its steps: after the body of a source text,
after a turn of the event loop, and after anything that happens from outside, in whatever order they
follow one another. So an operation may end at any time and in any way. All that running source
texts one after another comes through is among these states, in every world
(`Session.evaluate_reachable`). `Session.Runs` is the code that comes to be run from such a state
on, in the body of an accepted source text or in a task that is ready, each piece with the machine
it is run on.
-/

namespace EventScript

/-- Giving up the value of a computation does not change the machine. -/
theorem Run.discard_leaves {α : Type} {property : Machine → Prop} {run : Run α} {machine : Machine}
    (leaves : (run machine).Leaves property) :
    ((do let _ ← run : Run Unit) machine).Leaves property := by
  cases ended : run machine with
  | done value later =>
    rw [ended] at leaves
    rw [Run.bind_done ended]
    exact leaves
  | failed diagnostic later =>
    rw [ended] at leaves
    rw [Run.bind_failed ended]
    exact leaves
  | exhausted =>
    rw [Run.bind_exhausted ended]
    trivial

/-- What a computation leaves behind has a property that reporting its failure does not change. -/
theorem Run.reporting_leaves {property : Machine → Prop} {run : Run Unit} {machine later : Machine}
    (leaves : (run machine).Leaves property)
    (report : ∀ machine diagnostic, property machine → property (machine.report diagnostic))
    (ran : run.reporting machine = some later) : property later := by
  unfold Run.reporting at ran
  cases ended : run machine with
  | exhausted =>
    rw [ended] at ran
    contradiction
  | done value ending =>
    rw [ended] at ran leaves
    exact Option.some.inj ran ▸ leaves
  | failed diagnostic ending =>
    rw [ended] at ran leaves
    exact Option.some.inj ran ▸ report ending diagnostic leaves

/-- The call that an action makes, and the machine it makes it on. -/
inductive Action.Calls (machine : Machine) :
    Action Value → Value → List Value → Machine → Prop where
  | call (callee : Value) (arguments : List Value) :
      Calls machine (.call callee arguments) callee arguments machine
  | deliver {result : Payload} {arguments : List Value} {later : Machine} (callback : Value)
      (made : result.arguments machine = .done arguments later) :
      Calls machine (.deliver callback result) callback arguments later

/-- A turn of the event loop: it is asked what to do next, and the task that is ready is run, if
there is one. -/
def Machine.turn (bound : Nat) (machine : Machine) : Option (Poll Value × Machine) :=
  match machine.ask with
  | (.ready task, started) => (started.runTask bound task).map fun ended => (.ready task, ended)
  | (poll, asked) => some (poll, asked)

section Turn

variable {machine asked : Machine}

/-- Where the event loop has no answer yet, a turn is no more than the question. -/
theorem Machine.turn_of_waits {poll : Poll Value} (asks : machine.ask = (poll, asked))
    (waits : poll.Waits) (bound : Nat) : machine.turn bound = some (poll, asked) := by
  unfold turn
  rw [asks]
  cases poll with
  | sleep | await => rfl
  | ready | idle => exact waits.elim

/-- Where the event loop has nothing to do any more, a turn is no more than the question. -/
theorem Machine.turn_of_idle (asks : machine.ask = (.idle, asked)) (bound : Nat) :
    machine.turn bound = some (.idle, asked) := by
  unfold turn
  rw [asks]

/-- Where a task is ready, a turn runs it. -/
theorem Machine.turn_of_ready {bound : Nat} {task : Task Value} {ended : Machine}
    (asks : machine.ask = (.ready task, asked)) (ran : asked.runTask bound task = some ended) :
    machine.turn bound = some (.ready task, ended) := by
  unfold turn
  rw [asks]
  dsimp only
  rw [ran]
  rfl

end Turn

namespace Session

/-- The states of a session between its steps. -/
inductive Reachable : Session → Prop where
  | new (settings : Settings) (sink : Sink) (console : Console) (clock : WallClock) (host : Host) :
      Reachable { machine := .new settings sink console clock, host }
  /-- The statements of an accepted source text are run. -/
  | body {session : Session} {source : String} {program : Program} {bound : Nat} {machine : Machine}
      (reached : Reachable session) (accepted : Program.accept source = .ok program)
      (ran : session.machine.runBody bound program = some machine) :
      Reachable { session with machine }
  /-- The event loop takes a turn. -/
  | turn {session : Session} {bound : Nat} {poll : Poll Value} {machine : Machine}
      (reached : Reachable session) (turned : session.machine.turn bound = some (poll, machine)) :
      Reachable { session with machine }
  /-- Something happens from outside. -/
  | outside {session later : Session} (reached : Reachable session)
      (happens : session.machine.Happens later.machine) : Reachable later
  /-- The event loop has ended. -/
  | finish {session : Session} (reached : Reachable session) :
      Reachable { session with machine := session.machine.toTopLevel }
  /-- Somebody reads what was printed, or provides input. -/
  | exchange {session : Session} (reached : Reachable session) (console : Console) (sink : Sink) :
      Reachable { session with machine := { session.machine with console, sink } }

/-- The code that comes to be run from a state of a session on, and the machine it is run on. -/
inductive Runs (session : Session) : {kind : ResultKind} → Code kind → Machine → Prop where
  /-- In the statements of an accepted source text. -/
  | body {source : String} {program : Program} {bound : Nat} {kind : ResultKind} {code : Code kind}
      {machine : Machine} (accepted : Program.accept source = .ok program)
      (visits : Code.Visits bound (.stmts program) session.machine.toTopLevel code machine) :
      Runs session code machine
  /-- In the task that is ready at a turn of the event loop. -/
  | task {reading : Duration} {timed : Machine} {events : EventLoop Value} {task : Task Value}
      {callee : Value} {arguments : List Value} {started : Machine} {bound : Nat}
      {kind : ResultKind}
      {code : Code kind} {machine : Machine} (read : session.machine.readTime = (reading, timed))
      (polled : timed.events.poll reading = (.ready task, events))
      (calls : task.action.Calls { timed with events }.toTopLevel callee arguments started)
      (visits : Code.Visits bound (.call callee arguments default) started code machine) :
      Runs session code machine

/-- The code that the statements of a source text come to, if the source text is accepted. -/
def trace (bound : Nat) (source : String) (session : Session) : List Occasion :=
  match Program.accept source with
  | .ok program => (Code.stmts program).trace bound session.machine.toTopLevel
  | .error _ => []

/-- What the trace of a source text lists the session runs. -/
theorem Runs.of_mem_trace {session : Session} {bound : Nat} {source : String} {occasion : Occasion}
    (member : occasion ∈ session.trace bound source) :
    session.Runs occasion.code occasion.machine := by
  unfold trace at member
  split at member
  · rename_i program accepted
    exact .body accepted (Code.mem_trace.mp member)
  · contradiction

/-- An expression that the trace of a source text lists is one that the session runs. -/
theorem Runs.of_trace (session : Session) (bound : Nat) (source : String) (wanted : Expr → Bool)
    (listed : (session.trace bound source).any (fun occasion => occasion.expr?.any wanted) = true) :
    ∃ form machine, wanted form = true ∧ session.Runs (.expr form) machine := by
  obtain ⟨form, machine, isForm, member⟩ := Occasion.exists_of_any listed
  exact ⟨form, machine, isForm, .of_mem_trace member⟩

section Steps

variable {session later : Session} {bound : Nat}

/-- What a session comes through while it lingers are states of it. -/
theorem Reachable.lingers (reached : session.Reachable)
    (lingers : Relation.ReflTransGen Lingers session later) : later.Reachable := by
  induction lingers with
  | refl => exact reached
  | tail _ step ih =>
    cases step with
    | outside happens => exact ih.outside happens
    | again asks waits => exact ih.turn (Machine.turn_of_waits asks waits 0)

/-- What a session undergoes are states of it. -/
theorem Reachable.undergoes (reached : session.Reachable) (undergoes : session.Undergoes later) :
    later.Reachable :=
  reached.lingers undergoes.lingers

/-- Running the event loop comes to states of the session only. -/
theorem drain_reachable (reached : session.Reachable)
    (drained : drain bound session = some later) : later.Reachable := by
  induction bound generalizing session with
  | zero => contradiction
  | succ bound ih =>
    rcases drain_cases drained with
      ⟨between, called, rfl⟩ | ⟨task, between, machine, called, ran, onward⟩
    · obtain ⟨before, asked, lingers, replies, rfl⟩ := nextTask_cases called
      cases replies with
      | idle asks =>
        have turned := Machine.turn_of_idle asks 0
        exact ((reached.lingers lingers).turn turned).finish
    · obtain ⟨before, asked, lingers, replies, rfl⟩ := nextTask_cases called
      cases replies with
      | ready asks =>
        have turned := Machine.turn_of_ready asks ran
        have again := (reached.lingers lingers).turn turned
        exact ih (again.undergoes (.undertake _)) onward

/-- Running a source text comes to states of the session only. -/
theorem evaluate_reachable {source : String} {result : Except Failure Unit}
    (reached : session.Reachable)
    (evaluated : session.evaluate bound source = some (result, later)) : later.Reachable := by
  rw [evaluate_eq] at evaluated
  split at evaluated
  · obtain ⟨-, rfl⟩ := Prod.mk.inj (Option.some.inj evaluated)
    exact reached
  · rename_i program accepted
    obtain ⟨machine, ran, draining, -⟩ := interpret_eq_some.mp evaluated
    exact drain_reachable ((reached.body accepted ran).undergoes (.undertake _)) draining

end Steps

end Session

end EventScript
