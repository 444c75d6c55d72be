import EventScript.Proofs.Session.Steps

/-!
# The history of a session

`Session.Recorded` says of a state of a session what was run on the way to it, from the first piece
of code to the last, and `Session.Episode` what may be run next: the statements of an accepted
source text, or what a turn of the event loop comes to. Every state has such a record
(`Session.Reachable.recorded`), and all code that a session runs is in an episode
(`Session.Runs.episode`).
-/

namespace EventScript

variable {bound : Nat}

/-- The code that an action comes to, in the call that it makes. -/
def Action.trace (bound : Nat) (action : Action Value) (machine : Machine) : List Occasion :=
  match action with
  | .call callee arguments => (Code.call callee arguments default).trace bound machine
  | .deliver callback result =>
    match result.arguments machine with
    | .done arguments later => (Code.call callback arguments default).trace bound later
    | _ => []
  | .fail _ => []

/-- The code that a turn of the event loop comes to. -/
def Machine.turnTrace (bound : Nat) (machine : Machine) : List Occasion :=
  let (reading, timed) := machine.readTime
  let (poll, events) := timed.events.poll reading
  match poll with
  | .ready task => task.action.trace bound { timed with events }.toTopLevel
  | _ => []

section Calls

variable {machine started : Machine} {callee : Value} {arguments : List Value}

/-- An action that makes a call comes to what the call comes to. -/
theorem Action.Calls.trace_eq {action : Action Value}
    (calls : action.Calls machine callee arguments started) :
    action.trace bound machine = (Code.call callee arguments default).trace bound started := by
  cases calls with
  | call => rfl
  | deliver callback made => simp only [Action.trace, made]

/-- An action comes to nothing or makes a call. -/
theorem Action.trace_cases (bound : Nat) (action : Action Value) (machine : Machine) :
    action.trace bound machine = [] ∨
      ∃ callee arguments started, action.Calls machine callee arguments started := by
  cases action with
  | call callee arguments => exact .inr ⟨callee, arguments, machine, .call ..⟩
  | deliver callback result =>
    cases made : result.arguments machine with
    | done arguments later => exact .inr ⟨callback, arguments, later, .deliver callback made⟩
    | failed | exhausted => exact .inl (by simp only [Action.trace, made])
  | fail diagnostic => exact .inl rfl

/-- A turn in which a call is made comes to what the call comes to. -/
theorem Machine.TurnCalls.trace_eq (calls : machine.TurnCalls callee arguments started) :
    machine.turnTrace bound = (Code.call callee arguments default).trace bound started := by
  cases calls with
  | intro read polled calls =>
    simp only [Machine.turnTrace, read, polled]
    exact calls.trace_eq

/-- A turn comes to nothing, or a call is made in it. -/
theorem Machine.turnTrace_cases (bound : Nat) (machine : Machine) :
    machine.turnTrace bound = [] ∨
      ∃ callee arguments started, machine.TurnCalls callee arguments started := by
  rcases read : machine.readTime with ⟨reading, timed⟩
  rcases polled : timed.events.poll reading with ⟨poll, events⟩
  cases poll with
  | ready task =>
    rcases task.action.trace_cases bound { timed with events }.toTopLevel with nothing | calls
    · left
      simp only [turnTrace, read, polled]
      exact nothing
    · obtain ⟨callee, arguments, started, calls⟩ := calls
      exact .inr ⟨callee, arguments, started, .intro read polled calls⟩
  | idle | sleep | await => exact .inl (by simp only [turnTrace, read, polled])

/-- A turn that makes no call comes to no code. -/
theorem Machine.turnTrace_of_idle
    (idle : ∀ callee arguments started, ¬machine.TurnCalls callee arguments started) :
    machine.turnTrace bound = [] := by
  rcases machine.turnTrace_cases bound with nothing | ⟨callee, arguments, started, calls⟩
  · exact nothing
  · exact absurd calls (idle callee arguments started)

end Calls

namespace Session

/-- The states of a session between its steps, each with all that was run before. -/
inductive Recorded : Session → List Occasion → Prop where
  | new (settings : Settings) (sink : Sink) (console : Console) (clock : WallClock) (host : Host) :
      Recorded { machine := .new settings sink console clock, host } []
  /-- The statements of an accepted source text are run. -/
  | body {session : Session} {past : List Occasion} {source : String} {program : Program}
      {bound : Nat}
      {machine : Machine} (recorded : Recorded session past)
      (accepted : Program.accept source = .ok program)
      (ran : session.machine.runBody bound program = some machine) :
      Recorded { session with machine }
        (past ++ (Code.stmts program).trace bound session.machine.toTopLevel)
  /-- The event loop takes a turn. -/
  | turn {session : Session} {past : List Occasion} {bound : Nat} {poll : Poll Value}
      {machine : Machine} (recorded : Recorded session past)
      (turned : session.machine.turn bound = some (poll, machine)) :
      Recorded { session with machine } (past ++ session.machine.turnTrace bound)
  /-- Something happens from outside. -/
  | outside {session later : Session} {past : List Occasion} (recorded : Recorded session past)
      (happens : session.machine.Happens later.machine) : Recorded later past
  /-- The event loop has ended. -/
  | finish {session : Session} {past : List Occasion} (recorded : Recorded session past) :
      Recorded { session with machine := session.machine.toTopLevel } past
  /-- Somebody reads what was printed, or provides input. -/
  | exchange {session : Session} {past : List Occasion} (recorded : Recorded session past)
      (console : Console) (sink : Sink) :
      Recorded { session with machine := { session.machine with console, sink } } past

/-- What may be run from a state of a session on, until it ends or the bound does not suffice. -/
inductive Episode (session : Session) : List Occasion → Prop where
  /-- The statements of an accepted source text. -/
  | body {source : String} {program : Program} (bound : Nat)
      (accepted : Program.accept source = .ok program) :
      Episode session ((Code.stmts program).trace bound session.machine.toTopLevel)
  /-- A turn of the event loop. -/
  | turn (bound : Nat) : Episode session (session.machine.turnTrace bound)

variable {session : Session}

/-- Every state of a session has a record. -/
theorem Reachable.recorded (reached : session.Reachable) : ∃ past, session.Recorded past := by
  induction reached with
  | new settings sink console clock host => exact ⟨[], .new ..⟩
  | body _ accepted ran ih => exact ih.imp' _ fun _ recorded => .body recorded accepted ran
  | turn _ turned ih => exact ih.imp' _ fun _ recorded => .turn recorded turned
  | outside _ happens ih => exact ih.imp fun _ recorded => .outside recorded happens
  | finish _ ih => exact ih.imp fun _ recorded => .finish recorded
  | exchange _ console sink ih => exact ih.imp fun _ recorded => .exchange recorded console sink

/-- Only states of a session have one. -/
theorem Recorded.reachable {past : List Occasion} (recorded : session.Recorded past) :
    session.Reachable := by
  induction recorded with
  | new settings sink console clock host => exact .new ..
  | body _ accepted ran ih => exact .body ih accepted ran
  | turn _ turned ih => exact .turn ih turned
  | outside _ happens ih => exact .outside ih happens
  | finish _ ih => exact .finish ih
  | exchange _ console sink ih => exact .exchange ih console sink

/-- What a session runs is in an episode. -/
theorem Runs.episode {kind : ResultKind} {code : Code kind} {machine : Machine}
    (runs : session.Runs code machine) :
    ∃ episode, session.Episode episode ∧ ⟨code, machine⟩ ∈ episode := by
  cases runs with
  | @body _ _ bound _ _ _ accepted visits =>
    exact ⟨_, .body bound accepted, Code.mem_trace.mpr visits⟩
  | @task _ _ _ _ _ _ _ bound _ _ _ read polled calls visits =>
    have turn : session.machine.TurnCalls _ _ _ := .intro read polled calls
    exact ⟨_, .turn bound, turn.trace_eq ▸ Code.mem_trace.mpr visits⟩

/-- A source text that comes to anything is accepted. -/
theorem Episode.of_source (session : Session) (bound : Nat) (source : String)
    (comes : session.trace bound source ≠ []) : session.Episode (session.trace bound source) := by
  unfold trace at comes ⊢
  split at comes
  · exact .body bound ‹_›
  · contradiction

/-- An expression that the trace of a source text lists is one of an episode. -/
theorem Episode.of_trace (session : Session) (bound : Nat) (source : String) (wanted : Expr → Bool)
    (listed : (session.trace bound source).any (fun occasion => occasion.expr?.any wanted) = true) :
    ∃ episode form machine, session.Episode episode ∧ wanted form = true ∧
      ⟨.expr form, machine⟩ ∈ episode := by
  obtain ⟨form, machine, isForm, member⟩ := Occasion.exists_of_any listed
  exact ⟨_, form, machine, .of_source session bound source (List.ne_nil_of_mem member),
    isForm, member⟩

end Session

end EventScript
