import EventScript.Proofs.EventLoop.HandingOn
import EventScript.Proofs.EventLoop.TaskOrder
import EventScript.Proofs.Evaluation.Stable
import EventScript.Proofs.Session.Ending
import EventScript.Proofs.Session.History

/-!
# The event loop of a session

What a session does with its event loop is what an owner among collaborators can do with one: the
program queues calls and begins operations, a turn of the event loop is a call for the next task,
and deliveries report on operations. So what holds of all such systems holds of the event loops of
sessions (`Machine.Tracked`), as long as the clock shows a duration.
-/

namespace EventScript

/-- What a task does ends as the passage says, if its call begins operations at the sites only. -/
theorem Machine.Passage.runAction {sites : Span → Prop} {starts : Machine → Prop}
    {ends : Machine → Machine → Prop} (passage : Passage sites starts ends) {machine : Machine}
    {bound : Nat} {action : Action Value} (begins : BeginsAt sites (action.trace bound machine))
    (holds : starts machine) : (runAction bound action machine).Leaves (ends machine) := by
  have call : ∀ {callee : Value} {arguments : List Value} {machine : Machine},
      BeginsAt sites ((Code.call callee arguments default).trace bound machine) → starts machine →
      ((callValue bound callee arguments default >>= fun _ => pure () : Run Unit) machine).Leaves
        (ends machine) := fun {callee arguments machine} begins holds =>
    have leaves : ((Code.call callee arguments default).run bound machine).Leaves (ends machine) :=
      passage.leaves begins holds
    Run.bind_leaves leaves fun _ _ ended => ended
  cases action with
  | call callee arguments => exact call begins holds
  | fail diagnostic => exact passage.refl holds
  | deliver callback result =>
    have acts := result.arguments_acts sites (fun _ => False) machine
    show ((result.arguments >>= fun arguments =>
      callValue bound callback arguments default >>= fun _ => pure () : Run Unit) machine).Leaves _
    cases ended : result.arguments machine with
    | exhausted =>
      rw [Run.bind_exhausted ended]
      trivial
    | failed diagnostic later =>
      rw [ended] at acts
      exact acts.2.points.elim
    | done arguments later =>
      rw [ended] at acts
      have between := passage.acts acts (passage.refl holds)
      have begins' : BeginsAt sites ((Code.call callback arguments default).trace bound later) := by
        rwa [(Action.Calls.deliver callback ended).trace_eq] at begins
      rw [Run.bind_done ended]
      exact (call begins' (passage.enter .here between)).imp fun _ after =>
        passage.leave .here between after

/-- The property does not depend on where the code is or what is reported, and acts keep it. -/
structure Machine.Enduring (property : Machine → Prop) : Prop extends Stable property where
  report : ∀ {machine : Machine} (diagnostic : Diagnostic), property machine →
    property (machine.report diagnostic)

namespace Machine.Enduring

variable {property : Machine → Prop} {machine later : Machine} {bound : Nat}

/-- The body of a program keeps the property. -/
theorem runBody (enduring : Enduring property) {program : Program} (holds : property machine)
    (ran : machine.runBody bound program = some later) : property later := by
  rw [Machine.runBody_eq] at ran
  obtain ⟨ended, settled, rfl⟩ := Option.map_eq_some_iff.mp ran
  have leaves := enduring.leaves bound (.stmts program) (enduring.moved machine.globals [] holds)
  have reported :=
    leaves.settled (fun _ diagnostic holds => enduring.report diagnostic holds) settled
  exact enduring.moved ended.globals [] reported

/-- A task keeps the property. -/
theorem runTask (enduring : Enduring property) {task : Task Value} (holds : property machine)
    (ran : machine.runTask bound task = some later) : property later := by
  have leaves := enduring.passage.runAction (beginsAt_anywhere (task.action.trace bound _))
    (enduring.moved machine.globals [] holds)
  exact Run.reporting_leaves leaves (fun _ diagnostic holds => enduring.report diagnostic holds) ran

end Machine.Enduring

namespace Machine

variable {machine later : Machine} {bound : Nat}

/-- The time that the event loop goes by, when the clock is read next. -/
def shownTime (machine : Machine) : Duration := machine.readTime.1

/-- What the event loop goes by is its way to tell the time and the clock. -/
theorem shownTime_eq (machine : Machine) :
    machine.shownTime =
      match machine.events.clock with
      | .virtual => .zero
      | .real => machine.clock.elapsed := by
  unfold shownTime readTime
  cases machine.events.clock <;> rfl

/-- The time goes on while the way to tell it stays, if the clock goes on. -/
theorem shownTime_le (mode : later.events.clock = machine.events.clock)
    (clock : machine.clock.elapsed ≤ later.clock.elapsed) :
    machine.shownTime ≤ later.shownTime := by
  rw [shownTime_eq, shownTime_eq, mode]
  cases machine.events.clock with
  | virtual => exact Duration.le_refl _
  | real => exact clock

/-- The clock does not go back, and neither does the way to tell the time change. -/
structure Onward (machine later : Machine) : Prop where
  mode : later.events.clock = machine.events.clock
  clock : machine.clock.elapsed ≤ later.clock.elapsed

namespace Onward

variable {last : Machine}

/-- Time does not go back where nothing happens. -/
theorem refl (machine : Machine) : machine.Onward machine := ⟨rfl, Duration.le_refl _⟩

/-- Time that twice does not go back does not go back. -/
theorem trans (first : machine.Onward later) (second : later.Onward last) : machine.Onward last :=
  ⟨second.mode.trans first.mode, Duration.le_trans first.clock second.clock⟩

/-- The time that the event loop goes by does not go back. -/
theorem shownTime_le (onward : machine.Onward later) : machine.shownTime ≤ later.shownTime :=
  Machine.shownTime_le onward.mode onward.clock

/-- What leaves the clock alone does not set it back. -/
theorem of_same (mode : later.events.clock = machine.events.clock)
    (clock : later.clock = machine.clock) : machine.Onward later :=
  ⟨mode, clock ▸ Duration.le_refl _⟩

end Onward

/-- Reading the time does not set it back. -/
theorem onward_readTime (machine : Machine) : machine.Onward machine.readTime.2 := by
  unfold readTime
  cases machine.events.clock with
  | virtual => exact .refl machine
  | real => exact ⟨rfl, machine.clock.elapsed_le_read⟩

/-- Reporting an error does not set the time back. -/
theorem onward_report (machine : Machine) (diagnostic : Diagnostic) :
    machine.Onward (machine.report diagnostic) := by
  unfold report
  dsimp only
  split <;> exact .of_same rfl rfl

/-- No act sets the time back. -/
theorem onward_act {sites : Span → Prop} (act : machine.Act sites later) :
    machine.Onward later := by
  cases act with
  | print text =>
    unfold print
    split <;> exact .of_same rfl rfl
  | tick => exact ⟨rfl, machine.clock.elapsed_le_read⟩
  | schedule wait callback => exact machine.onward_readTime.trans (.of_same rfl rfl)
  | heap | prompt | takeLine | launch => exact .of_same rfl rfl

/-- Time goes on from where it was, whatever is run. -/
theorem enduring_onward (start : Machine) : Enduring start.Onward where
  act holds act := holds.trans (onward_act act)
  moved _ _ holds := holds.trans (.of_same rfl rfl)
  report _ holds := holds.trans (onward_report _ _)

/-- The event loop is that of a system at the stage which has returned these tasks, and whose clock
shows no later time than that of the machine. -/
def Tracked (machine : Machine) (stage : Stage) (returned : List (Task Value)) : Prop :=
  ∃ system : LoopSystem Value, system.Reachable machine.events.clock ∧
    system.loop = machine.events ∧ system.reading ≤ machine.shownTime ∧
    system.stage = stage ∧ system.returned = returned

namespace Tracked

variable {stage : Stage} {returned : List (Task Value)}

/-- A loop that nothing has happened to is one of a system. -/
theorem new (settings : Settings) (sink : Sink) (console : Console) (clock : WallClock) :
    (Machine.new settings sink console clock).Tracked .running [] :=
  ⟨.fresh settings.clock, .fresh, rfl, Nat.zero_le _, rfl, rfl⟩

/-- Only the event loop and the clock matter. -/
theorem of_same (tracked : machine.Tracked stage returned) (events : later.events = machine.events)
    (onward : machine.Onward later) : later.Tracked stage returned := by
  obtain ⟨system, reached, loop, reading, stands, same⟩ := tracked
  exact ⟨system, events ▸ reached, loop.trans events.symm,
    Duration.le_trans reading onward.shownTime_le, stands, same⟩

/-- Only the event loop and the clock matter, and the clock does not go back. -/
theorem of_holds (holds : machine.shownTime ≤ .longest → machine.Tracked stage returned)
    (events : later.events = machine.events) (onward : machine.Onward later)
    (fits : later.shownTime ≤ .longest) : later.Tracked stage returned :=
  (holds (Duration.le_trans onward.shownTime_le fits)).of_same events onward

/-- The system may have read the clock just now. -/
theorem read (tracked : machine.Tracked stage returned) (fits : machine.shownTime ≤ .longest) :
    ∃ system : LoopSystem Value, system.Reachable machine.events.clock ∧
      system.loop = machine.events ∧ system.reading = machine.shownTime ∧
      system.stage = stage ∧ system.returned = returned := by
  obtain ⟨system, reached, loop, reading, stands, same⟩ := tracked
  exact ⟨_, reached.step (.tick machine.shownTime reading fits), loop, rfl, stands, same⟩

/-- Each act of the program is a step of the owner of the loop. -/
theorem act {sites : Span → Prop} (tracked : machine.Tracked .running returned)
    (act : machine.Act sites later) (fits : later.shownTime ≤ .longest) :
    later.Tracked .running returned := by
  have onward := onward_act act
  cases act with
  | heap | prompt | takeLine | tick => exact tracked.of_same rfl onward
  | print text =>
    refine tracked.of_same ?_ onward
    unfold print
    split <;> rfl
  | schedule wait callback =>
    obtain ⟨system, reached, loop, reading, stands, same⟩ :=
      tracked.read (Duration.le_trans onward.shownTime_le fits)
    have events : machine.readTime.2.events = machine.events := (readTime_same rfl).2
    have scheduled := reached.step (.schedule stands wait callback [])
    rw [← onward.mode] at scheduled
    refine ⟨_, scheduled, ?_, ?_, stands, same⟩
    · show system.loop.schedule system.reading wait callback [] =
        machine.readTime.2.events.schedule machine.shownTime wait callback []
      rw [loop, reading, events]
    · exact Duration.le_trans (reading ▸ Duration.le_refl _) onward.shownTime_le
  | @launch label span site callback job =>
    obtain ⟨system, reached, loop, reading, stands, same⟩ := tracked
    have begun := reached.step (.begin stands label span callback)
    refine ⟨_, begun, ?_, ?_, stands, same⟩
    · show (system.loop.begin label span callback).2 = (machine.events.begin label span callback).2
      rw [loop]
    · exact Duration.le_trans reading onward.shownTime_le

/-- Evaluation keeps track of the event loop, while the clock shows a duration. -/
theorem enduring (returned : List (Task Value)) :
    Enduring fun machine => machine.shownTime ≤ .longest → machine.Tracked .running returned where
  act holds act fits :=
    (holds (Duration.le_trans (onward_act act).shownTime_le fits)).act act fits
  moved _ _ holds fits := of_holds holds rfl (.of_same rfl rfl) fits
  report := by
    intro machine diagnostic holds fits
    refine of_holds holds ?_ (machine.onward_report diagnostic) fits
    unfold Machine.report
    dsimp only
    split <;> rfl

end Tracked

end Machine

namespace Poll

variable {κ : Type}

/-- Where a call for the next task stands after it is answered: it has ended, or will start over. -/
def rest : Poll κ → Stage
  | ready _ | idle => .running
  | sleep _ | await _ => .receiving

/-- Where there is no answer yet, no task is ready. -/
theorem Waits.tasks_eq {poll : Poll κ} (waits : poll.Waits) : poll.tasks = [] := by
  cases poll with
  | sleep | await => rfl
  | ready | idle => exact waits.elim

/-- Where there is no answer yet, the call will start over. -/
theorem Waits.rest_eq {poll : Poll κ} (waits : poll.Waits) : poll.rest = .receiving := by
  cases poll with
  | sleep | await => rfl
  | ready | idle => exact waits.elim

end Poll

/-- A call for the next task takes in the reports. If that does not end it, it goes on from
there. -/
theorem LoopSystem.Reachable.polled {κ : Type} {clock : ClockMode} {system : LoopSystem κ}
    (reached : system.Reachable clock) (receiving : system.stage = .receiving) {poll : Poll κ}
    {events : EventLoop κ} (polled : system.loop.poll system.reading = (poll, events)) :
    ∃ later : LoopSystem κ, later.Reachable clock ∧ later.loop = events ∧
      later.reading = system.reading ∧ later.stage = poll.rest ∧
      later.returned = system.returned ++ poll.tasks := by
  obtain ⟨taken, takenReached, stage, loop, empty, reading, answers⟩ :=
    receiveAll_reachable reached receiving
  have selected : taken.loop.select taken.reading = (poll, events) := by
    rw [loop, reading]
    exact polled
  have returned : taken.returned = system.returned := by rw [LoopSystem.returned, answers]; rfl
  have decided := (takenReached.step (.exhaust stage empty)).step (.select rfl selected)
  cases EventLoop.decision_of_select selected with
  | idle | due | jump =>
    refine ⟨_, decided, rfl, reading, rfl, ?_⟩
    exact List.filterMap_append.trans (congrArg (· ++ _) returned)
  | await | awaitUntil | sleep =>
    exact ⟨taken, takenReached, rfl, reading, stage, returned.trans (List.append_nil _).symm⟩

/-- Taking in a report does not change how the time is told. -/
theorem EventLoop.accept_clock {κ : Type} (loop : EventLoop κ) (reading : Duration)
    (report : Report) :
    (loop.accept reading report).clock = loop.clock := by
  rw [accept_eq]
  cases loop.actionOf? report <;> rfl

/-- Asking what to do next does not change how the time is told. -/
theorem EventLoop.poll_clock {κ : Type} {loop events : EventLoop κ} {reading : Duration}
    {poll : Poll κ} (polled : loop.poll reading = (poll, events)) : events.clock = loop.clock := by
  have received : (loop.receiveAll reading).clock = loop.clock := by
    unfold receiveAll
    suffices ∀ (reports : List Report) (loop : EventLoop κ),
        (reports.foldl (fun loop report => loop.accept reading report) loop).clock = loop.clock from
      this _ _
    intro reports
    induction reports with
    | nil => exact fun _ => rfl
    | cons report rest ih => exact fun loop => (ih _).trans (loop.accept_clock reading report)
  rw [← received]
  cases decision_of_select polled <;> rfl

namespace Machine

variable {machine asked : Machine} {stage : Stage} {returned : List (Task Value)}
    {poll : Poll Value}

/-- What is asked is the loop, at the time shown, and only the loop and the clock change. -/
theorem ask_eq (asks : machine.ask = (poll, asked)) :
    ∃ events, machine.events.poll machine.shownTime = (poll, events) ∧
      asked = { machine.readTime.2 with events } := by
  have same : machine.readTime.2.events = machine.events := (readTime_same rfl).2
  rcases polled : machine.events.poll machine.shownTime with ⟨poll', events⟩
  have answer : machine.ask = (poll', { machine.readTime.2 with events }) := by
    show ((machine.readTime.2.events.poll machine.shownTime).1, { machine.readTime.2 with
      events := (machine.readTime.2.events.poll machine.shownTime).2 }) = _
    rw [same, polled]
  rw [asks] at answer
  obtain ⟨rfl, rfl⟩ := Prod.mk.inj answer
  exact ⟨events, rfl, rfl⟩

/-- Asking what to do next does not set the time back. -/
theorem onward_ask (asks : machine.ask = (poll, asked)) : machine.Onward asked := by
  obtain ⟨events, polled, rfl⟩ := ask_eq asks
  exact ⟨EventLoop.poll_clock polled, machine.onward_readTime.clock⟩

/-- Between tasks the owner calls for the next one, or starts over with a call. -/
def BetweenTasks (stage : Stage) : Prop := stage = .running ∨ stage = .receiving

/-- To ask the event loop what to do next is a call for the next task. -/
theorem Tracked.ask (holds : machine.shownTime ≤ .longest → machine.Tracked stage returned)
    (between : BetweenTasks stage) (asks : machine.ask = (poll, asked))
    (fits : asked.shownTime ≤ .longest) : asked.Tracked poll.rest (returned ++ poll.tasks) := by
  have onward := onward_ask asks
  have early := Duration.le_trans onward.shownTime_le fits
  obtain ⟨system, reached, loop, shown, stands, same⟩ := (holds early).read early
  -- A call that is not yet under way begins.
  obtain ⟨begun, begunReached, receiving, begunLoop, begunReading, begunReturned⟩ :
      ∃ begun : LoopSystem Value, begun.Reachable machine.events.clock ∧ begun.stage = .receiving ∧
        begun.loop = system.loop ∧ begun.reading = system.reading ∧
        begun.returned = system.returned := by
    rcases between with running | receiving
    · exact ⟨_, reached.step (.ask (stands.trans running)), rfl, rfl, rfl, rfl⟩
    · exact ⟨system, reached, stands.trans receiving, rfl, rfl, rfl⟩
  obtain ⟨events, polled, rfl⟩ := ask_eq asks
  have answer : begun.loop.poll begun.reading = (poll, events) := by
    rw [begunLoop, begunReading, loop, shown]
    exact polled
  obtain ⟨last, lastReached, lastLoop, lastReading, lastStage, lastReturned⟩ :=
    begunReached.polled receiving answer
  rw [← onward.mode] at lastReached
  refine ⟨last, lastReached, lastLoop, ?_, lastStage, ?_⟩
  · rw [lastReading, begunReading, shown]
    exact onward.shownTime_le
  · rw [lastReturned, begunReturned, same]

end Machine

end EventScript
