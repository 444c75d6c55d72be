import EventScript.Proofs.Evaluation.CallSites
import EventScript.Proofs.Session.Arises
import Mathlib.Data.List.Forall2

/-!
# Run to completion

The statements of a program run to their end before any task does, and each task runs to its end
before the next: while code runs, the event loop only grows and no call is made but by call
expressions (`Code.undisturbed`). What is queued or pending when the statements or a task end is run
later, however they end (`Session.Unwinds.answered`). `Session.run_to_completion` puts the whole
course together.
-/

namespace EventScript

section Printing

/-- What the program has printed so far. -/
def Machine.printed (machine : Machine) : String :=
  match machine.sink with
  | .console => machine.console.output
  | .captured text => text

/-- The text was printed to where the machine prints to, and nothing else. -/
def Machine.Prints (machine : Machine) (text : String) (later : Machine) : Prop :=
  match machine.sink with
  | .console => later.sink = .console ∧ later.console.output = machine.console.output ++ text
  | .captured before => later.sink = .captured (before ++ text)

namespace Machine.Prints

variable {machine later last : Machine} {text more : String}

/-- What a machine prints to the console is what is added to the output. -/
theorem iff_console (into : machine.sink = .console) :
    machine.Prints text later ↔
      later.sink = .console ∧ later.console.output = machine.console.output ++ text := by
  unfold Prints
  rw [into]

/-- What a machine prints into memory is what is added there. -/
theorem iff_captured {before : String} (into : machine.sink = .captured before) :
    machine.Prints text later ↔ later.sink = .captured (before ++ text) := by
  unfold Prints
  rw [into]

/-- Nothing is printed where neither the standard output nor the collected text change. -/
theorem of_same (sink : later.sink = machine.sink)
    (output : later.console.output = machine.console.output) : machine.Prints "" later := by
  cases into : machine.sink with
  | console => exact (iff_console into).mpr ⟨sink.trans into, by rw [output, String.append_empty]⟩
  | captured before => exact (iff_captured into).mpr (by rw [sink, into, String.append_empty])

/-- What is printed in two steps is printed. -/
theorem trans (first : machine.Prints text later) (second : later.Prints more last) :
    machine.Prints (text ++ more) last := by
  cases into : machine.sink with
  | console =>
    obtain ⟨same, output⟩ := (iff_console into).mp first
    obtain ⟨same', output'⟩ := (iff_console same).mp second
    exact (iff_console into).mpr ⟨same', by rw [output', output, String.append_assoc]⟩
  | captured before =>
    have collected := (iff_captured into).mp first
    have collected' := (iff_captured collected).mp second
    exact (iff_captured into).mpr (by rw [collected', String.append_assoc])

/-- Nothing is printed on the way. -/
theorem silent (first : machine.Prints "" later) (second : later.Prints text last) :
    machine.Prints text last := by
  have both := first.trans second
  rwa [String.empty_append] at both

/-- What was printed before is followed by the text. -/
theorem printed (prints : machine.Prints text later) : later.printed = machine.printed ++ text := by
  unfold Machine.printed
  cases into : machine.sink with
  | console =>
    obtain ⟨same, output⟩ := (iff_console into).mp prints
    rw [same]
    exact output
  | captured before => rw [(iff_captured into).mp prints]

/-- Every act prints some text, which may be empty. -/
theorem of_act {sites : Span → Prop} (act : machine.Act sites later) :
    ∃ text, machine.Prints text later := by
  cases act with
  | heap | tick | launch => exact ⟨"", .of_same rfl rfl⟩
  | print text =>
    refine ⟨text ++ "\n", ?_⟩
    unfold Machine.print
    split
    · rename_i into
      exact (iff_console into).mpr ⟨into, rfl⟩
    · rename_i before into
      exact (iff_captured into).mpr (congrArg Sink.captured String.append_assoc)
  | prompt text =>
    cases into : machine.sink with
    | console => exact ⟨text, (iff_console into).mpr ⟨rfl, rfl⟩⟩
    | captured before => exact ⟨"", (iff_captured into).mpr (by rw [String.append_empty])⟩
  | takeLine =>
    refine ⟨"", .of_same rfl ?_⟩
    unfold Console.takeLine
    split <;> rfl
  | schedule =>
    refine ⟨"", ?_⟩
    unfold Machine.readTime
    split <;> exact .of_same rfl rfl

/-- Reporting prints nothing. -/
theorem of_report (machine : Machine) (diagnostic : Diagnostic) :
    machine.Prints "" (machine.report diagnostic) := by
  unfold Machine.report
  dsimp only
  split <;> exact .of_same rfl rfl

/-- Whatever is run, what it prints follows what was printed before. -/
theorem enduring (start : Machine) : Enduring fun machine => ∃ text, start.Prints text machine where
  act := fun ⟨text, prints⟩ act =>
    have ⟨more, onward⟩ := of_act act
    ⟨text ++ more, prints.trans onward⟩
  moved := fun _ _ ⟨text, prints⟩ => ⟨text ++ "", prints.trans (.of_same rfl rfl)⟩
  report := fun diagnostic ⟨text, prints⟩ => ⟨text ++ "", prints.trans (.of_report _ diagnostic)⟩

/-- Asking what to do next prints nothing. -/
theorem of_ask {asked : Machine} {poll : Poll Value} (asks : machine.ask = (poll, asked)) :
    machine.Prints "" asked := by
  obtain ⟨events, -, rfl⟩ := ask_eq asks
  unfold Machine.readTime
  split <;> exact .of_same rfl rfl

end Machine.Prints

end Printing

/-- While the code runs from the machine on, the event loop only grows, every call is one that a
call expression makes, except where the code itself is a call, and in the end the machine is in the
scope and has the calls open that it had. -/
structure Code.Undisturbed {kind : ResultKind} (code : Code kind) (start : Machine) : Prop where
  grows : ∀ {bound : Nat} {kind' : ResultKind} {code' : Code kind'} {reached : Machine},
    Code.Visits bound code start code' reached → start.events.Grows reached.events
  written : ∀ {bound : Nat} {kind' : ResultKind} {code' : Code kind'} {reached : Machine},
    Code.Visits bound code start code' reached →
      (⟨code', reached⟩ : Occasion) = ⟨code, start⟩ ∨
        code'.Written (fun form before => Code.Visits bound code start (.expr form) before) reached
  leaves : ∀ bound, (code.run bound start).Leaves fun later =>
    start.events.Grows later.events ∧ start.SamePlace later

/-- Every act lets the event loop grow at most. -/
theorem Machine.grows_act {machine later : Machine} {sites : Span → Prop}
    (act : machine.Act sites later) : machine.events.Grows later.events := by
  cases act with
  | heap | prompt | takeLine | tick => exact .refl _
  | print =>
    unfold print
    split <;> exact .refl _
  | schedule wait callback =>
    have same : machine.readTime.2.events = machine.events := (readTime_same rfl).2
    have grows := machine.events.grows_schedule machine.shownTime wait callback []
    rwa [← same] at grows ⊢
  | launch => exact EventLoop.grows_begin ..

/-- Whatever is run, the event loop grows at most. -/
theorem Machine.enduring_grows (events : EventLoop Value) :
    Enduring fun machine => events.Grows machine.events where
  act grows act := grows.trans (grows_act act)
  moved _ _ grows := grows
  report := by
    intro machine diagnostic grows
    unfold Machine.report
    dsimp only
    split <;> exact grows

/-- No code is disturbed while it runs. -/
theorem Code.undisturbed {kind : ResultKind} (code : Code kind) (start : Machine) :
    code.Undisturbed start where
  grows visits := (Machine.enduring_grows start.events).visited (.refl _) visits
  written visits := visits.written
  leaves := by
    intro bound
    have grows := (Machine.enduring_grows start.events).leaves bound code (.refl _)
    have restores := code.restores bound start
    cases ended : code.run bound start with
    | exhausted => trivial
    | failed diagnostic later | done value later =>
      rw [ended] at grows restores
      exact ⟨grows, restores⟩

/-- No call is open, and the machine is in the global scope. -/
structure Machine.AtTopLevel (machine : Machine) : Prop where
  scope : machine.scope = machine.globals
  frames : machine.frames = []

namespace TaskRun

/-- The task was run to its end from top level. -/
def Runs (run : TaskRun) : Prop :=
  ∃ bound, run.started.runTask bound run.task = some run.ended

/-- From where the task was started the event loop has only grown when its call is made, and the
call is not disturbed. -/
structure Undisturbed (run : TaskRun) : Prop where
  calls : ∀ {callee : Value} {arguments : List Value} {started : Machine},
    run.task.action.Calls run.started.toTopLevel callee arguments started →
      run.started.events.Grows started.events ∧
        (Code.call callee arguments default).Undisturbed started
  grows : run.started.events.Grows run.ended.events
  topLevel : run.ended.AtTopLevel

/-- No task is disturbed while it runs. -/
theorem Runs.undisturbed {run : TaskRun} (runs : run.Runs) : run.Undisturbed := by
  obtain ⟨task, started, ended⟩ := run
  obtain ⟨bound, ran⟩ : ∃ bound, started.runTask bound task = some ended := runs
  refine ⟨fun {callee arguments begun} calls => ⟨?_, Code.undisturbed _ _⟩, ?_, ?_⟩
  · show started.events.Grows begun.events
    obtain ⟨due, seq, action⟩ := task
    cases calls with
    | call => exact .refl _
    | @deliver result _ _ callback made =>
      have acts := result.arguments_acts (fun _ => True) (fun _ => True) started.toTopLevel
      rw [made] at acts
      exact (Machine.enduring_grows started.events).acts acts (.refl _)
  · exact (Machine.enduring_grows started.events).runTask (.refl _) ran
  · have back : (runAction bound task.action started.toTopLevel).Leaves
        started.toTopLevel.SamePlace := Machine.SamePlace.passage.runAction
          (beginsAt_anywhere _) trivial
    have topLevel := back.imp fun later same =>
      (⟨same.scope.trans same.globals.symm, same.frames⟩ : later.AtTopLevel)
    refine Run.reporting_leaves topLevel (fun later diagnostic kept => ?_) ran
    unfold Machine.report
    dsimp only
    split <;> exact ⟨kept.scope, kept.frames⟩

end TaskRun

/-- All that the event loop holds is run: each queued task, and each action that the end of a
pending operation gives rise to. -/
structure EventLoop.AnsweredBy (events : EventLoop Value) (runs : List TaskRun) : Prop where
  tasks : ∀ task ∈ events.queue, ∃ run ∈ runs, run.task = task
  operations : ∀ operation ∈ events.pending, ∃ outcome, ∀ action,
    EventLoop.consequence operation outcome = some action → ∃ run ∈ runs, run.task.action = action

namespace EventLoop.AnsweredBy

variable {events : EventLoop Value} {runs : List TaskRun}

/-- An idle event loop has nothing to be answered. -/
theorem of_isIdle (idle : events.isIdle = true) (runs : List TaskRun) : events.AnsweredBy runs := by
  obtain ⟨queue, pending⟩ := Bool.and_eq_true_iff.mp idle
  constructor
  · rw [List.isEmpty_iff.mp queue]
    exact List.forall_mem_nil _
  · rw [List.isEmpty_iff.mp pending]
    exact List.forall_mem_nil _

/-- What is answered is answered by more runs. -/
theorem cons (answered : events.AnsweredBy runs) (run : TaskRun) :
    events.AnsweredBy (run :: runs) where
  tasks task member := by
    obtain ⟨found, inRuns, same⟩ := answered.tasks task member
    exact ⟨found, List.mem_cons_of_mem _ inRuns, same⟩
  operations operation member := by
    obtain ⟨outcome, gives⟩ := answered.operations operation member
    refine ⟨outcome, fun action gave => ?_⟩
    obtain ⟨found, inRuns, same⟩ := gives action gave
    exact ⟨found, List.mem_cons_of_mem _ inRuns, same⟩

end EventLoop.AnsweredBy

/-- What an event loop hands on is answered where it is held next. -/
theorem EventLoop.HandsOn.answeredBy {before after : EventLoop Value} {runs : List TaskRun}
    (handsOn : before.HandsOn after) (answered : after.AnsweredBy runs) :
    before.AnsweredBy runs where
  tasks task member := answered.tasks task (handsOn.queue member)
  operations operation member := by
    rcases handsOn.pending operation member with still | ⟨outcome, gives⟩
    · exact answered.operations operation still
    · refine ⟨outcome, fun action gave => ?_⟩
      obtain ⟨task, queued, rfl⟩ := gives action gave
      obtain ⟨run, inRuns, rfl⟩ := answered.tasks task queued
      exact ⟨run, inRuns, rfl⟩

namespace Machine

variable {machine asked : Machine} {poll : Poll Value} {stage : Stage}
    {returned : List (Task Value)}

/-- In a loop that can be tracked the pending operations have different numbers. -/
theorem Tracked.distinct (tracked : machine.Tracked stage returned) : machine.events.Distinct := by
  obtain ⟨system, reached, loop, -⟩ := tracked
  exact loop ▸ reached.matched.pending_distinct

/-- The tasks returned are in the strict order of their due times and, among equals, of queueing. -/
theorem Tracked.ordered (tracked : machine.Tracked stage returned) :
    returned.Pairwise Task.before := by
  obtain ⟨system, reached, -, -, -, rfl⟩ := tracked
  exact (List.pairwise_append.mp reached.inOrder.ordered).1

/-- Where nothing is queued, every task queued so far has been returned once. -/
theorem Tracked.numbers (tracked : machine.Tracked stage returned)
    (idle : machine.events.isIdle = true) :
    (returned.map Task.seq).Perm (List.range machine.events.nextSeq) := by
  obtain ⟨system, reached, loop, -, -, rfl⟩ := tracked
  have conserved := reached.inOrder.conserved
  have queue := List.isEmpty_iff.mp (Bool.and_eq_true_iff.mp idle).1
  rw [loop, queue, List.append_nil] at conserved
  rw [← loop, ← reached.inOrder.numbered]
  exact conserved.map _

/-- Asking the event loop hands on all but the task that is ready. -/
theorem Tracked.handsOn_ask (tracked : machine.Tracked stage returned)
    (asks : machine.ask = (poll, asked)) :
    ∃ received, machine.events.HandsOn received ∧
      received.queue = poll.tasks ++ asked.events.queue ∧
      received.pending = asked.events.pending := by
  obtain ⟨events, polled, rfl⟩ := ask_eq asks
  obtain ⟨queue, pending⟩ := (EventLoop.decision_of_select polled).queue_eq
  exact ⟨_, tracked.distinct.handsOn_receiveAll _, queue, pending.symm⟩

end Machine

namespace Session

variable {session later : Session} {runs : List TaskRun} {stage : Stage}
    {returned : List (Task Value)}

/-- Where the event loop is asked and what is left then is answered, all is answered, if the task
that is ready is run too. -/
theorem answeredBy_of_ask {machine asked : Machine} {poll : Poll Value}
    (tracked : machine.Tracked stage returned) (asks : machine.ask = (poll, asked))
    (ready : ∀ task ∈ poll.tasks, ∃ run ∈ runs, run.task = task)
    (answered : asked.events.AnsweredBy runs) : machine.events.AnsweredBy runs := by
  obtain ⟨received, handsOn, queue, pending⟩ := tracked.handsOn_ask asks
  refine handsOn.answeredBy ⟨fun task member => ?_, fun operation member => ?_⟩
  · rw [queue] at member
    rcases List.mem_append.mp member with first | behind
    · exact ready task first
    · exact answered.tasks task behind
  · exact answered.operations operation (pending ▸ member)

/-- While a session waits its event loop hands on all that it holds. -/
theorem Lingers.handsOn {between : Session} (lingers : session.Lingers between)
    (tracked : session.machine.Tracked stage returned) :
    session.machine.events.HandsOn between.machine.events := by
  cases lingers with
  | outside happens =>
    generalize between.machine = after at happens ⊢
    cases happens with
    | time | handOn => exact .refl _
    | report reported =>
      obtain ⟨_, rfl⟩ := EventLoop.eq_of_report? reported
      exact .of_same rfl rfl
  | @again poll asked asks waits =>
    obtain ⟨received, handsOn, queue, pending⟩ := tracked.handsOn_ask asks
    rw [waits.tasks_eq, List.nil_append] at queue
    exact handsOn.trans (.of_same queue.symm pending.symm)

/-- What the event loop holds is run on its course: from where that starts, and after each task,
however it ended. -/
theorem Unwinds.answered (unwinds : Unwinds session runs later)
    (between : Machine.BetweenTasks stage)
    (holds : session.machine.shownTime ≤ .longest → session.machine.Tracked stage returned)
    (fits : later.machine.shownTime ≤ .longest) :
    session.machine.events.AnsweredBy runs ∧
      ∀ first run rest, runs = first ++ run :: rest → run.ended.events.AnsweredBy rest := by
  have tracked := holds (Duration.le_trans unwinds.onward.shownTime_le fits)
  induction unwinds generalizing stage returned with
  | @idle session asked asks =>
    obtain ⟨events, polled, rfl⟩ := Machine.ask_eq asks
    have idle := (EventLoop.decision_of_select polled).isIdle
    refine ⟨answeredBy_of_ask tracked asks (List.forall_mem_nil _) (.of_isIdle idle []), ?_⟩
    intro first run rest same
    exact absurd same.symm (List.append_ne_nil_of_right_ne_nil _ (List.cons_ne_nil _ _))
  | @task session later task started ended bound rest asks ran onward ih =>
    have onwards := tracked_task between holds asks ran
    obtain ⟨answered, others⟩ := ih (.inl rfl) onwards fits
      (onwards (Duration.le_trans onward.onward.shownTime_le fits))
    have grows := (Machine.enduring_grows started.events).runTask (.refl _) ran
    have started' := ((EventLoop.HandsOn.of_grows grows).answeredBy answered).cons
      ⟨task, started, ended⟩
    refine ⟨answeredBy_of_ask tracked asks ?_ started', ?_⟩
    · intro other member
      obtain rfl := List.mem_singleton.mp member
      exact ⟨_, List.mem_cons_self, rfl⟩
    · intro first run rest' same
      cases first with
      | nil =>
        obtain ⟨rfl, rfl⟩ := List.cons.inj same
        exact answered
      | cons head first => exact others first run rest' (List.cons.inj same).2
  | @linger session between' later rest lingers onward ih =>
    obtain ⟨stage, still, holds⟩ := lingers.tracked between holds
    obtain ⟨answered, others⟩ := ih still holds fits
      (holds (Duration.le_trans onward.onward.shownTime_le fits))
    exact ⟨(lingers.handsOn tracked).answeredBy answered, others⟩

/-- Nothing is printed while a session waits. -/
theorem Lingers.prints {between : Session} (lingers : session.Lingers between) :
    session.machine.Prints "" between.machine := by
  cases lingers with
  | outside happens =>
    generalize between.machine = after at happens ⊢
    cases happens <;> exact .of_same rfl rfl
  | again asks waits => exact .of_ask asks

/-- What the event loop prints on its course is what the tasks print, one after another. -/
theorem Unwinds.prints (unwinds : Unwinds session runs later) :
    ∃ texts, List.Forall₂ (fun run text => run.started.Prints text run.ended) runs texts ∧
      session.machine.Prints (String.join texts) later.machine := by
  induction unwinds with
  | idle asks => exact ⟨[], .nil, (Machine.Prints.of_ask asks).silent (.of_same rfl rfl)⟩
  | @task session later task started ended bound rest asks ran onward ih =>
    obtain ⟨texts, all, prints⟩ := ih
    obtain ⟨text, printed⟩ := (Machine.Prints.enduring started).runTask ⟨"", .of_same rfl rfl⟩ ran
    refine ⟨text :: texts, .cons printed all, ?_⟩
    rw [String.join_cons]
    exact (Machine.Prints.of_ask asks).silent (printed.trans prints)
  | linger lingers onward ih =>
    obtain ⟨texts, all, prints⟩ := ih
    exact ⟨texts, all, lingers.prints.silent prints⟩

/-- Each task on the course was run to its end. -/
theorem Unwinds.forall_runs (unwinds : Unwinds session runs later) : ∀ run ∈ runs, run.Runs := by
  induction unwinds with
  | idle => exact List.forall_mem_nil _
  | task _ ran _ ih => exact List.forall_mem_cons.mpr ⟨⟨_, ran⟩, ih⟩
  | linger _ _ ih => exact ih

/-- In the end the event loop is idle and the machine at top level. -/
theorem Unwinds.settled (unwinds : Unwinds session runs later) :
    later.machine.events.isIdle = true ∧ later.machine.AtTopLevel := by
  induction unwinds with
  | idle asks =>
    obtain ⟨events, polled, rfl⟩ := Machine.ask_eq asks
    exact ⟨(EventLoop.decision_of_select polled).isIdle, rfl, rfl⟩
  | task _ _ _ ih => exact ih
  | linger _ _ ih => exact ih

/-- The course of running a program: its statements leave the machine `body`, and then these tasks
are run, until the session is the later one. -/
structure Completes (program : Program) (session : Session) (body : Machine) (runs : List TaskRun)
    (later : Session) : Prop where
  /-- The statements come first, and then the tasks that the event loop returns, one after
  another. -/
  statements : Machine.BodyEnds program session.machine body
  eventLoop : Unwinds { session with machine := body } runs later
  /-- What is printed is what the statements print and then what each task prints. -/
  printed : ∃ text texts, body.printed = session.machine.printed ++ text ∧
    List.Forall₂ (fun run text => run.ended.printed = run.started.printed ++ text) runs texts ∧
    later.machine.printed = session.machine.printed ++ text ++ String.join texts
  /-- The tasks come in the strict order of their due times and, among equals, of queueing. -/
  ordered : (runs.map TaskRun.task).Pairwise fun first second =>
    first.due < second.due ∨ first.due = second.due ∧ first.seq < second.seq
  /-- Each task queued meanwhile is run once, and no other. -/
  once : (runs.map fun run => run.task.seq).Perm
    (List.range' session.machine.events.nextSeq
      (later.machine.events.nextSeq - session.machine.events.nextSeq))
  /-- While the statements run, the event loop only grows, and all calls are those of call
  expressions. -/
  undisturbed : (Code.stmts program).Undisturbed session.machine.toTopLevel
  /-- The same holds while a task runs, but for the call of the task itself. -/
  undisturbedTasks : ∀ run ∈ runs, run.Undisturbed
  /-- However the statements end, all that is queued or pending then is run. -/
  answered : body.events.AnsweredBy runs
  /-- However a task ends, all that is queued or pending then is run after it. -/
  answeredTasks : ∀ first run rest, runs = first ++ run :: rest → run.ended.events.AnsweredBy rest
  /-- In the end nothing is queued or pending, and the machine is at top level. -/
  idle : later.machine.events.isIdle = true
  topLevel : later.machine.AtTopLevel

/-- Between two idle states of the event loop, the tasks queued in between are returned, each
once. -/
theorem once_of_tracked {machine last : Machine} {more : List (Task Value)}
    (tracked : machine.Tracked .running returned) (idle : machine.events.isIdle = true)
    (tracked' : last.Tracked .running (returned ++ more)) (idle' : last.events.isIdle = true) :
    (more.map Task.seq).Perm
      (List.range' machine.events.nextSeq (last.events.nextSeq - machine.events.nextSeq)) := by
  have early := tracked.numbers idle
  have all := tracked'.numbers idle'
  rw [List.map_append] at all
  have count : machine.events.nextSeq ≤ last.events.nextSeq := by
    have lengths := all.length_eq
    rw [List.length_append, early.length_eq, List.length_range, List.length_range] at lengths
    omega
  have split : List.range last.events.nextSeq = List.range machine.events.nextSeq ++
      List.range' machine.events.nextSeq (last.events.nextSeq - machine.events.nextSeq) := by
    have parts := @List.range'_append 0 machine.events.nextSeq
      (last.events.nextSeq - machine.events.nextSeq) 1
    rw [Nat.zero_add, Nat.one_mul, Nat.add_sub_cancel' count] at parts
    rw [List.range_eq_range', List.range_eq_range', parts]
  rw [split] at all
  exact (List.perm_append_left_iff _).mp ((early.symm.append_right _).trans all)

/-- Where the event loop of a session is idle and a program is run, its statements are run to their
end, and then tasks are, each to its end, in the order of their due times and, among equals, of
queueing, until the event loop is idle again. What is printed is what each of them prints, in this
order. While one of them runs, nothing is taken off the event loop, and no calls are made but by
call expressions. However one of them ends, all that is queued or pending is run in the end. The
clock has to show a duration, as clocks do. -/
theorem run_to_completion {session later : Session} {program : Program} {bound : Nat}
    {result : Except Failure Unit} (arises : session.Arises)
    (idle : session.machine.events.isIdle = true)
    (interpreted : session.interpret bound program = some (result, later))
    (fits : later.machine.shownTime ≤ .longest) :
    ∃ body runs, Completes program session body runs later := by
  obtain ⟨body, ran, draining, -⟩ := interpret_eq_some.mp interpreted
  obtain ⟨runs, handed⟩ := unwinds_of_drain draining
  have unwinds : Unwinds { session with machine := body } runs later :=
    .undergone (.undertake { session with machine := body }) handed
  obtain ⟨returned, holds⟩ := arises.tracked
  have onward := (Machine.enduring_onward session.machine).runBody (.refl _) ran
  have startFits := Duration.le_trans (onward.trans unwinds.onward).shownTime_le fits
  have holds' := (Machine.Tracked.enduring returned).runBody holds ran
  have tracked := unwinds.tracked (.inl rfl) holds' fits
  obtain ⟨isIdle, topLevel⟩ := unwinds.settled
  obtain ⟨answered, answeredTasks⟩ := unwinds.answered (.inl rfl) holds' fits
  have printing := Machine.Prints.enduring session.machine
  obtain ⟨text, prints⟩ := printing.runBody ⟨"", .of_same rfl rfl⟩ ran
  obtain ⟨texts, all, onwardPrints⟩ := unwinds.prints
  have printedByTasks := all.imp fun _ _ prints => prints.printed
  have printed := (prints.trans onwardPrints).printed
  rw [← String.append_assoc] at printed
  obtain ⟨-, ordered, -⟩ := List.pairwise_append.mp tracked.ordered
  have once := once_of_tracked (holds startFits) idle tracked isIdle
  rw [List.map_map] at once
  exact ⟨body, runs,
    { statements := ⟨bound, ran⟩
      eventLoop := unwinds
      printed := ⟨text, texts, prints.printed, printedByTasks, printed⟩
      ordered
      once
      undisturbed := Code.undisturbed _ _
      undisturbedTasks := fun run member => (unwinds.forall_runs run member).undisturbed
      answered
      answeredTasks
      idle := isIdle
      topLevel }⟩

/-- A program whose statements fail in the end polls without delay until the answer to its request
has come. -/
theorem run_to_completion_polling :
    ∃ (source : String) (program : Program) (session : Session) (body : Machine)
      (runs : List TaskRun) (later : Session), Program.accept source = .ok program ∧
        Completes program session body runs later ∧ later.machine.printed = "answer\ndone\n" ∧
        later.machine.reported.length = 1 := by
  let source := "let a;fun got(r)\x7ba=r;print \"answer\";\x7d" ++
    "fun poll()\x7bif(!a)delay(0,poll);else print \"done\";\x7d" ++
    "request(\"u\",nil,nil,\"get\",got);poll();missing;"
  let world : World := .answering { status := 200, headers := [], body := "hello" } ⟨2500⟩
  let session : Session := .new { clock := .virtual } (.captured "") {} {} {} world
  have arises : session.Arises := .new ..
  have idle : session.machine.events.isIdle = true := rfl
  have accepts : (Program.accept source).isOk = true := by decide +kernel
  have ended : (session.evaluate 64 source).any (fun ended =>
      decide (ended.2.machine.shownTime ≤ .longest) &&
        ended.2.machine.printed == "answer\ndone\n" &&
        ended.2.machine.reported.length == 1) = true := by
    decide +kernel
  clear_value session source
  obtain ⟨program, accepted⟩ := exists_accepted accepts
  obtain ⟨⟨result, later⟩, evaluated, facts⟩ := (Option.any_eq_true _ _).mp ended
  simp only [Bool.and_eq_true, decide_eq_true_eq, beq_iff_eq] at facts
  obtain ⟨⟨fits, printed⟩, count⟩ := facts
  rw [evaluate_eq, accepted] at evaluated
  obtain ⟨body, runs, completes⟩ := run_to_completion arises idle evaluated fits
  exact ⟨source, program, session, body, runs, later, accepted, completes, printed, count⟩

end Session

end EventScript
