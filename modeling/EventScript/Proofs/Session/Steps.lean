import EventScript.Proofs.Evaluation.Contents
import EventScript.Proofs.Session.Reached

/-!
# The steps of a session

What the steps of a session do to a machine: the body of a program and a task leave what the code
run in them leaves, up to reports, and what happens from outside changes the clock or the event loop
at most. Values get into the event loop only from the machine itself.
-/

namespace EventScript

variable {machine later : Machine} {bound : Nat}

/-- What is done around evaluation does not change whether a machine has the property: that depends
on the heap and the event loop only, and making the arguments of a callback keeps it. -/
structure Machine.Lasting (property : Machine → Prop) : Prop where
  same : ∀ machine : Machine, property machine → ∀ later : Machine,
    later.heap = machine.heap → later.events = machine.events → property later
  arguments : ∀ (payload : Payload) (machine : Machine), property machine →
    (payload.arguments machine).Leaves property

/-- The call that a machine makes at a turn of the event loop, in the task that is ready. -/
inductive Machine.TurnCalls (machine : Machine) : Value → List Value → Machine → Prop where
  | intro {reading : Duration} {timed started : Machine} {events : EventLoop Value}
      {task : Task Value} {callee : Value} {arguments : List Value}
      (read : machine.readTime = (reading, timed))
      (polled : timed.events.poll reading = (.ready task, events))
      (calls : task.action.Calls { timed with events }.toTopLevel callee arguments started) :
      TurnCalls machine callee arguments started

/-- The call at a turn is that of the task that is ready. -/
theorem Machine.TurnCalls.ready {reading : Duration} {timed started : Machine} {poll : Poll Value}
    {events : EventLoop Value} {callee : Value} {arguments : List Value}
    (calls : machine.TurnCalls callee arguments started)
    (read : machine.readTime = (reading, timed))
    (polled : timed.events.poll reading = (poll, events)) :
    ∃ task, poll = .ready task ∧
      task.action.Calls { timed with events }.toTopLevel callee arguments started := by
  cases calls with
  | intro read' polled' calls =>
    rw [read] at read'
    obtain ⟨rfl, rfl⟩ := Prod.mk.inj read'
    rw [polled] at polled'
    obtain ⟨rfl, rfl⟩ := Prod.mk.inj polled'
    exact ⟨_, rfl, calls⟩

/-- What the event loop is asked is decided by its state and the time. -/
theorem Machine.ask_cases {poll : Poll Value} {asked : Machine}
    (asks : machine.ask = (poll, asked)) :
    ∃ reading timed events, machine.readTime = (reading, timed) ∧
      timed.events.poll reading = (poll, events) ∧ asked = { timed with events } := by
  unfold ask at asks
  rcases read : machine.readTime with ⟨reading, timed⟩
  rcases polled : timed.events.poll reading with ⟨answer, events⟩
  simp only [read, polled] at asks
  obtain ⟨rfl, rfl⟩ := Prod.mk.inj asks
  exact ⟨reading, timed, events, rfl, polled, rfl⟩

/-- A turn asks the event loop what to do next, and runs the task that is ready, if there is one. -/
theorem Machine.turn_cases {poll : Poll Value} (turned : machine.turn bound = some (poll, later)) :
    ∃ reading timed events, machine.readTime = (reading, timed) ∧
      timed.events.poll reading = (poll, events) ∧
      ((∀ task, poll ≠ .ready task) ∧ later = { timed with events } ∨
        ∃ task, poll = .ready task ∧
          Machine.runTask bound task { timed with events } = some later) := by
  unfold Machine.turn at turned
  rcases asks : machine.ask with ⟨answer, asked⟩
  rw [asks] at turned
  obtain ⟨reading, timed, events, read, polled, rfl⟩ := Machine.ask_cases asks
  cases answer with
  | ready task =>
    obtain ⟨ended, ran, same⟩ := Option.map_eq_some_iff.mp turned
    obtain ⟨rfl, rfl⟩ := Prod.mk.inj same
    exact ⟨reading, timed, events, read, polled, .inr ⟨task, rfl, ran⟩⟩
  | idle | sleep | await =>
    obtain ⟨rfl, rfl⟩ := Prod.mk.inj (Option.some.inj turned)
    exact ⟨reading, timed, events, read, polled, .inl ⟨nofun, rfl⟩⟩

section Leaves

variable {property : Machine → Prop}

/-- Reporting an error changes neither the heap nor the event loop. -/
theorem Machine.Lasting.report (lasting : Lasting property) (diagnostic : Diagnostic)
    (holds : property machine) : property (machine.report diagnostic) := by
  unfold Machine.report
  dsimp only
  split <;> exact lasting.same machine holds _ rfl rfl

/-- The body of a program leaves what its statements leave. -/
theorem Machine.Lasting.runBody {program : Program} (lasting : Lasting property)
    (leaves : ((Code.stmts program).run bound machine.toTopLevel).Leaves property)
    (ran : machine.runBody bound program = some later) : property later := by
  obtain ⟨ended, reporting, rfl⟩ := Option.map_eq_some_iff.mp ran
  have discarded := @Run.discard_leaves _ _ (executeAll bound program) _ leaves
  have reported : property ended := Run.reporting_leaves discarded
    (fun _ diagnostic holds => lasting.report diagnostic holds) reporting
  exact lasting.same ended reported _ rfl rfl

/-- A task leaves what the call in it leaves, if it makes one. -/
theorem Machine.Lasting.runTask {task : Task Value} (lasting : Lasting property)
    (idle : (∀ callee arguments started,
      ¬task.action.Calls machine.toTopLevel callee arguments started) → property machine)
    (called : ∀ {callee : Value} {arguments : List Value} {started : Machine},
      task.action.Calls machine.toTopLevel callee arguments started →
      ((Code.call callee arguments default).run bound started).Leaves property)
    (ran : machine.runTask bound task = some later) : property later := by
  refine Run.reporting_leaves ?_ (fun _ diagnostic holds => lasting.report diagnostic holds) ran
  have topLevel : (∀ callee arguments started,
      ¬task.action.Calls machine.toTopLevel callee arguments started) →
      property machine.toTopLevel :=
    fun none => lasting.same machine (idle none) _ rfl rfl
  have call : ∀ {callee : Value} {arguments : List Value} {started : Machine},
      task.action.Calls machine.toTopLevel callee arguments started →
      ((do let _ ← callValue bound callee arguments default : Run Unit) started).Leaves property :=
    fun calls => @Run.discard_leaves _ _ (callValue bound _ _ default) _ (called calls)
  cases action : task.action with
  | fail diagnostic =>
    refine topLevel fun callee arguments started calls => ?_
    rw [action] at calls
    cases calls
  | call callee arguments => exact call (by rw [action]; exact .call callee arguments)
  | deliver callback result =>
    unfold runAction
    cases made : result.arguments machine.toTopLevel with
    | done arguments started =>
      have next := call (by rw [action]; exact .deliver callback made)
      simpa only [bind, made] using next
    | failed diagnostic ended =>
      -- Without arguments there is no call, so what holds is what held before.
      have holds : property machine.toTopLevel := by
        refine topLevel fun callee arguments started calls => ?_
        rw [action] at calls
        cases calls with
        | deliver _ done =>
          rw [made] at done
          contradiction
      have left := lasting.arguments result _ holds
      rw [made] at left
      simp only [bind, made]
      exact left
    | exhausted =>
      simp only [bind, made]
      trivial

/-- A turn leaves what the call in it leaves, if it makes one. -/
theorem Machine.Lasting.turn {poll : Poll Value} (lasting : Lasting property)
    (idle : ∀ {reading : Duration} {timed : Machine} {poll : Poll Value} {events : EventLoop Value},
      machine.readTime = (reading, timed) → timed.events.poll reading = (poll, events) →
      (∀ callee arguments started, ¬machine.TurnCalls callee arguments started) →
      property { timed with events })
    (called : ∀ {callee : Value} {arguments : List Value} {started : Machine},
      machine.TurnCalls callee arguments started →
      ((Code.call callee arguments default).run bound started).Leaves property)
    (turned : machine.turn bound = some (poll, later)) : property later := by
  rcases Machine.turn_cases turned with
    ⟨reading, timed, events, read, polled, ⟨unready, rfl⟩ | ⟨task, rfl, ran⟩⟩
  · refine idle read polled fun callee arguments started calls => ?_
    obtain ⟨task, ready, -⟩ := calls.ready read polled
    exact unready task ready
  · refine lasting.runTask (fun none => ?_) (fun calls => called (.intro read polled calls)) ran
    refine idle read polled fun callee arguments started calls => ?_
    obtain ⟨_, same, made⟩ := calls.ready read polled
    obtain rfl := Poll.ready.inj same
    exact none callee arguments started made

end Leaves

/-- Reading the time changes the clock at most. -/
theorem Machine.readTime_same {reading : Duration} (read : machine.readTime = (reading, later)) :
    later.heap = machine.heap ∧ later.events = machine.events := by
  unfold Machine.readTime at read
  split at read
  · obtain ⟨-, rfl⟩ := Prod.mk.inj read
    exact ⟨rfl, rfl⟩
  · obtain ⟨-, rfl⟩ := Prod.mk.inj read
    exact ⟨rfl, rfl⟩

section Values

variable {property : Value → Prop}

/-- What a machine holds depends on its heap and its event loop only. -/
theorem Machine.All.of_same (all : machine.All property) (heap : later.heap = machine.heap)
    (events : later.events = machine.events) : later.All property :=
  ⟨heap ▸ all.heap, events ▸ all.events⟩

/-- Asking the event loop what to do next gives only values that the machine holds. -/
theorem Machine.All.poll {reading : Duration} {poll : Poll Value} {events : EventLoop Value}
    (all : machine.All property) (read : machine.readTime = (reading, later))
    (polled : later.events.poll reading = (poll, events)) :
    Machine.All property { later with events } ∧
      ∀ task, poll = .ready task → task.action.All property := by
  obtain ⟨heap, same⟩ := Machine.readTime_same read
  have timed := all.of_same heap same
  obtain ⟨onward, ready⟩ := timed.events.poll polled
  exact ⟨⟨timed.heap, onward⟩, ready⟩

/-- A machine that has run nothing holds only built-in functions. -/
theorem Machine.all_new
    (good : ∀ {identity : Nat} {builtin : Builtin}, Builtin.globals[identity]? = some builtin →
      property (.builtin identity builtin none))
    (settings : Settings) (sink : Sink) (console : Console) (clock : WallClock) :
    (Machine.new settings sink console clock).All property := by
  have install : ∀ (globals : Nat) (builtins : List Builtin) (heap : Heap),
      (∀ (place : Nat) (builtin : Builtin), builtins[place]? = some builtin →
        property (.builtin (heap.nextIdentity + place) builtin none)) → heap.All property →
      (builtins.foldl (fun heap builtin => (heap.newBuiltin builtin none).2.define globals
        builtin.name (heap.newBuiltin builtin none).1) heap).All property := by
    intro globals builtins
    induction builtins with
    | nil => exact fun _ _ all => all
    | cons first rest ih =>
      intro heap good all
      have bound := all.newIdentity.define globals first.name (good 0 first rfl)
      refine ih _ (fun place builtin listed => ?_) bound
      have next : heap.nextIdentity + 1 + place = heap.nextIdentity + (place + 1) := by omega
      exact next ▸ good (place + 1) builtin listed
  have empty : ({} : Heap).All property :=
    ⟨Store.all_empty, Store.all_empty, Store.all_empty, Store.all_empty⟩
  have listed : ∀ (place : Nat) (builtin : Builtin), Builtin.globals[place]? = some builtin →
      property (.builtin (0 + place) builtin none) := fun place _ listed =>
    (Nat.zero_add place).symm ▸ good listed
  exact ⟨install _ Builtin.globals _ listed (empty.newScope none), nofun, nofun⟩

end Values

namespace Machine.Happens

/-- What happens from outside does not change the heap. -/
theorem heap (happens : machine.Happens later) : later.heap = machine.heap := by
  cases happens <;> rfl

/-- What happens from outside does not change where the code is. -/
theorem place (happens : machine.Happens later) :
    later.globals = machine.globals ∧ later.scope = machine.scope ∧
    later.frames = machine.frames := by
  cases happens <;> exact ⟨rfl, rfl, rfl⟩

/-- What happens from outside brings no values into the event loop. -/
theorem events {property : Value → Prop} (happens : machine.Happens later)
    (all : machine.events.All property) : later.events.All property := by
  cases happens with
  | time | handOn => exact all
  | report reported => exact all.report? reported

/-- What happens from outside brings no values. -/
theorem all {property : Value → Prop} (happens : machine.Happens later)
    (all : machine.All property) : later.All property :=
  ⟨happens.heap ▸ all.heap, happens.events all.events⟩

end Machine.Happens

end EventScript
