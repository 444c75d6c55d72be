import EventScript.Proofs.Evaluation.Failing
import EventScript.Proofs.Session.Disciplined
import EventScript.Proofs.Session.Splitting

/-!
# Where the failures of tasks point

The event loop keeps where operations were begun, and says so in the errors that it queues. If only
spans with a property are to be found in the code that is run, then there are only such spans in the
event loop (`Machine.Sited.passage`), and a task that is run reports one error at most, which points
at such a span, unless the call of the task itself is refused (`TaskRun.OwnSpans.reported`).
-/

namespace EventScript

open Run

variable {property : Span → Prop} {machine later : Machine} {bound : Nat}

/-- What is queued calls something with one argument at most, or reports an error that points at a
span with the property. -/
def Action.Sited (property : Span → Prop) : Action Value → Prop
  | .call _ arguments => arguments.length ≤ 1
  | .deliver .. => True
  | .fail diagnostic => diagnostic.Raised (Pointed property)

/-- The event loop holds spans with the property only. -/
def Machine.Sited (property : Span → Prop) (machine : Machine) : Prop :=
  machine.events.Holds (Action.Sited property) fun operation => property operation.span

section Events

/-- The failure of an operation points where it was begun. -/
theorem continues_sited : EventLoop.Continues (Action.Sited property) fun operation =>
    property operation.span := by
  intro operation outcome action site consequence
  unfold EventLoop.consequence at consequence
  split at consequence
  · obtain ⟨callback, -, rfl⟩ := Option.map_eq_some_iff.mp consequence
    trivial
  · obtain rfl := Option.some.inj consequence
    exact ⟨⟨.native, rfl⟩, rfl, operation.span, rfl, site⟩

namespace Machine.Sited

/-- A machine that has run nothing has begun nothing anywhere. -/
theorem new (settings : Settings) (sink : Sink) (console : Console) (clock : WallClock) :
    (Machine.new settings sink console clock).Sited property :=
  ⟨List.forall_mem_nil _, List.forall_mem_nil _⟩

/-- Only the event loop matters. -/
theorem of_same (sited : machine.Sited property) (events : later.events = machine.events) :
    later.Sited property := by
  unfold Machine.Sited
  rw [events]
  exact sited

/-- Operations are begun at spans with the property only. -/
theorem act (sited : machine.Sited property) (act : machine.Act property later) :
    later.Sited property := by
  cases act with
  | heap | prompt | takeLine | tick => exact sited
  | print text =>
    unfold Machine.print
    split <;> exact sited
  | schedule wait callback =>
    have timed : machine.readTime.2.Sited property := sited.of_same (readTime_same rfl).2
    exact EventLoop.Holds.push timed _ (Nat.zero_le 1)
  | launch label site callback job => exact EventLoop.Holds.begin sited label _ callback site

/-- To hold in the end is how it passes. -/
theorem passage :
    Passage property (Machine.Sited property) fun _ later => later.Sited property where
  refl sited := sited
  act := act
  enter setting sited := by cases setting <;> exact sited
  leave setting _ sited := by cases setting <;> exact sited

/-- Reporting an error begins nothing. -/
theorem report (sited : machine.Sited property) (diagnostic : Diagnostic) :
    (machine.report diagnostic).Sited property := by
  unfold Machine.report
  dsimp only
  split <;> exact sited

/-- Asking what to do next gives only what was queued, or what ended operations give rise to. -/
theorem ask {asked : Machine} {poll : Poll Value} (sited : machine.Sited property)
    (asks : machine.ask = (poll, asked)) :
    asked.Sited property ∧ ∀ task, poll = .ready task → task.action.Sited property := by
  obtain ⟨events, polled, rfl⟩ := Machine.ask_eq asks
  exact EventLoop.Holds.poll sited continues_sited polled

end Machine.Sited

end Events

/-- The result of an operation comes as one argument at most. -/
theorem Payload.length_arguments {payload : Payload} {arguments : List Value}
    (made : payload.arguments machine = .done arguments later) : arguments.length ≤ 1 := by
  cases payload with
  | unit =>
    obtain ⟨rfl, -⟩ := Outcome.done.inj made
    exact Nat.zero_le 1
  | text content =>
    obtain ⟨rfl, -⟩ := Outcome.done.inj made
    exact Nat.le_refl 1
  | response status headers body =>
    obtain ⟨identity, first, -, made⟩ := exists_of_bind made
    obtain ⟨state, second, -, made⟩ := exists_of_bind made
    obtain ⟨body, third, -, made⟩ := exists_of_bind made
    obtain ⟨pairs, fourth, -, made⟩ := exists_of_bind made
    obtain ⟨map, fifth, -, made⟩ := exists_of_bind made
    obtain ⟨response, sixth, -, made⟩ := exists_of_bind made
    obtain ⟨rfl, -⟩ := Outcome.done.inj made
    exact Nat.le_refl 1

namespace Action.Calls

variable {action : Action Value} {callee other : Value} {arguments others : List Value}
variable {started begun : Machine}

/-- The calls of tasks have one argument at most. -/
theorem length_arguments (calls : action.Calls machine callee arguments started)
    (sited : action.Sited property) : arguments.length ≤ 1 := by
  cases calls with
  | call => exact sited
  | deliver callback made => exact Payload.length_arguments made

/-- An action makes one call at most. -/
theorem unique (calls : action.Calls machine callee arguments started)
    (also : action.Calls machine other others begun) :
    other = callee ∧ others = arguments ∧ begun = started := by
  cases calls with
  | call =>
    cases also with
    | call => exact ⟨rfl, rfl, rfl⟩
  | deliver callback made =>
    cases also with
    | deliver _ made' =>
      obtain ⟨rfl, rfl⟩ := Outcome.done.inj (made.symm.trans made')
      exact ⟨rfl, rfl, rfl⟩

/-- Before the call is made, nothing is reported. -/
theorem reported_eq (calls : action.Calls machine callee arguments started) :
    started.reported = machine.reported := by
  cases calls with
  | call => rfl
  | @deliver result _ _ callback made =>
    have acts := result.arguments_acts (fun _ => True) (fun _ => True) machine
    rw [made] at acts
    exact ((Machine.stable_unreached machine).acts acts (.refl _)).reported

end Action.Calls

/-- What a task does is to report its error, or it ends as its call does. -/
theorem Action.ends_cases {action : Action Value}
    (ran : (runAction bound action).reporting machine = some later) :
    (∃ diagnostic, action = .fail diagnostic ∧ later = machine.report diagnostic) ∨
      ∃ callee arguments started, action.Calls machine callee arguments started ∧
        ((Code.call callee arguments default).run bound started).settled = some later := by
  have call : ∀ {callee : Value} {arguments : List Value} {started : Machine},
      (callValue bound callee arguments default >>= fun _ => pure () : Run Unit).reporting started =
        ((Code.call callee arguments default).run bound started).settled := by
    intro callee arguments started
    show _ = (callValue bound callee arguments default started).settled
    unfold Run.reporting
    cases ended : callValue bound callee arguments default started with
    | done value later => rw [bind_done ended]; rfl
    | failed diagnostic later => rw [bind_failed ended]; rfl
    | exhausted => rw [bind_exhausted ended]; rfl
  cases action with
  | fail diagnostic => exact .inl ⟨diagnostic, rfl, (Option.some.inj ran).symm⟩
  | call callee arguments =>
    exact .inr ⟨callee, arguments, machine, .call .., call.symm.trans ran⟩
  | deliver callback result =>
    right
    have acts := result.arguments_acts (fun _ => True) (fun _ => False) machine
    cases made : result.arguments machine with
    | exhausted =>
      unfold Run.reporting runAction at ran
      simp only [bind_exhausted made] at ran
      contradiction
    | failed diagnostic ended =>
      rw [made] at acts
      exact acts.2.points.elim
    | done arguments started =>
      unfold Run.reporting runAction at ran
      simp only [bind_done made] at ran
      exact ⟨callback, arguments, started, .deliver callback made, call.symm.trans ran⟩

/-- Code reports nothing itself. If it fails, its failure is what is reported. -/
theorem Code.settled_reported {kind : ResultKind} {code : Code kind}
    (settled : (code.run bound machine).settled = some later) :
    ∃ error : Option Diagnostic, later.reported = machine.reported ++ error.toList ∧
      ∀ diagnostic, diagnostic ∈ error ↔ ∃ ended,
        code.run bound machine = .failed diagnostic ended := by
  have unreached := (Machine.stable_unreached machine).leaves bound code (.refl _)
  cases ended : code.run bound machine with
  | exhausted =>
    rw [ended] at settled
    contradiction
  | done result last =>
    rw [ended] at settled unreached
    obtain rfl := Option.some.inj settled
    refine ⟨none, ?_, ?_⟩
    · rw [unreached.reported, Option.toList_none, List.append_nil]
    · intro diagnostic
      have notFailed : ¬∃ ended, Outcome.done result last = .failed diagnostic ended := nofun
      exact iff_of_false (Option.not_mem_none _) notFailed
  | failed raised last =>
    rw [ended] at settled unreached
    obtain rfl := Option.some.inj settled
    refine ⟨some raised, ?_, ?_⟩
    · rw [Machine.report_reported, unreached.reported, Option.toList_some]
    · intro diagnostic
      constructor
      · rintro ⟨⟩
        exact ⟨last, rfl⟩
      · rintro ⟨_, same⟩
        exact congrArg some (Outcome.failed.inj same).1

namespace Machine

variable {program : Program}

/-- The body of a program begins operations at spans with the property only. -/
theorem Sited.runBody (sited : machine.Sited property)
    (own : ∀ occasion ∈ (Code.stmts program).trace bound machine.toTopLevel,
      occasion.code.OwnSpans property)
    (ran : machine.runBody bound program = some later) : later.Sited property := by
  rw [runBody_eq] at ran
  obtain ⟨ended, settled, rfl⟩ := Option.map_eq_some_iff.mp ran
  have begins := beginsAt_of_ownSpans own fun _ none => none.elim
  have sited' : machine.toTopLevel.Sited property := sited
  have leaves := passage.leaves begins sited'
  have left : ended.Sited property :=
    leaves.settled (fun _ diagnostic sited => sited.report diagnostic) settled
  exact left

/-- The body of a program reports one error at most, which points at a span with the property. -/
theorem runBody_reported
    (own : ∀ occasion ∈ (Code.stmts program).trace bound machine.toTopLevel,
      occasion.code.OwnSpans property)
    (ran : machine.runBody bound program = some later) :
    ∃ error : Option Diagnostic, later.reported = machine.reported ++ error.toList ∧
      ∀ diagnostic ∈ error, diagnostic.Raised (Pointed property) := by
  rw [runBody_eq] at ran
  obtain ⟨ended, settled, rfl⟩ := Option.map_eq_some_iff.mp ran
  obtain ⟨error, reported, failed⟩ := Code.settled_reported settled
  refine ⟨error, reported, fun diagnostic member => ?_⟩
  obtain ⟨last, failed⟩ := (failed diagnostic).mp member
  apply (Code.run_raised own failed).mono
  rintro place (⟨-, pointed⟩ | ⟨outside, -⟩)
  · exact pointed
  · exact absurd trivial outside

end Machine

/-- The error points nowhere, or at the default span, as calls do that no call expression makes. -/
def Diagnostic.Unplaced (diagnostic : Diagnostic) : Prop :=
  diagnostic.span = none ∨ diagnostic.span = some default

namespace TaskRun

variable {run : TaskRun}

/-- The call of the task gets into no function of the program. -/
def Refused (run : TaskRun) : Prop :=
  ∃ callee arguments started,
    run.task.action.Calls run.started.toTopLevel callee arguments started ∧
      ¬callee.Enters started arguments.length

/-- The task reports the error. -/
def Reports (run : TaskRun) (diagnostic : Diagnostic) : Prop :=
  run.ended.reported = run.started.reported ++ [diagnostic]

/-- Where an error of the task points: at a span with the property, unless the call of the task
itself is refused. -/
def Places (property : Span → Prop) (run : TaskRun) (diagnostic : Diagnostic) : Prop :=
  ¬run.Refused ∧ diagnostic.Raised (Pointed property) ∨ run.Refused ∧ diagnostic.Unplaced

/-- The code that the task comes to goes by spans with the property only. -/
def OwnSpans (property : Span → Prop) (bound : Nat) (run : TaskRun) : Prop :=
  ∀ callee arguments started,
    run.task.action.Calls run.started.toTopLevel callee arguments started →
    ∀ occasion ∈ (Code.call callee arguments default).trace bound started,
      occasion.code.OwnSpans property

/-- A task begins operations at spans with the property only. -/
theorem OwnSpans.sited (own : run.OwnSpans property bound) (sited : run.started.Sited property)
    (action : run.task.action.Sited property)
    (ran : run.started.runTask bound run.task = some run.ended) : run.ended.Sited property := by
  have begins : BeginsAt property (run.task.action.trace bound run.started.toTopLevel) := by
    rcases run.task.action.trace_cases bound run.started.toTopLevel with
      nothing | ⟨callee, arguments, started, calls⟩
    · rw [nothing]
      exact List.forall_mem_nil _
    · rw [calls.trace_eq]
      apply beginsAt_of_ownSpans (own callee arguments started calls)
      rintro span ⟨enough, -⟩
      have few := calls.length_arguments action
      omega
  have sited' : run.started.toTopLevel.Sited property := sited
  have leaves := Machine.Sited.passage.runAction begins sited'
  exact Run.reporting_leaves leaves (fun _ diagnostic sited => sited.report diagnostic) ran

/-- A task reports one error at most. -/
theorem OwnSpans.reported (own : run.OwnSpans property bound)
    (action : run.task.action.Sited property)
    (ran : run.started.runTask bound run.task = some run.ended) :
    ∃ error : Option Diagnostic, run.ended.reported = run.started.reported ++ error.toList ∧
      ∀ diagnostic ∈ error, run.Places property diagnostic := by
  rcases Action.ends_cases ran with ⟨diagnostic, fails, reported⟩ |
      ⟨callee, arguments, started, calls, settled⟩
  · have callsNothing : ¬run.Refused := by
      rintro ⟨callee, arguments, started, calls, -⟩
      rw [fails] at calls
      cases calls
    rw [fails] at action
    refine ⟨some diagnostic, ?_, ?_⟩
    · rw [reported, Machine.report_reported]
      rfl
    · rintro _ ⟨⟩
      exact .inl ⟨callsNothing, action⟩
  · obtain ⟨error, reported, failed⟩ := Code.settled_reported settled
    rw [calls.reported_eq] at reported
    refine ⟨error, reported, fun diagnostic member => ?_⟩
    obtain ⟨last, failed⟩ := (failed diagnostic).mp member
    have raised := Code.run_raised (own callee arguments started calls) failed
    rcases raised.points with ⟨enters, pointed⟩ | ⟨refuses, nowhere⟩
    · refine .inl ⟨?_, { raised with points := pointed }⟩
      rintro ⟨other, others, begun, also, refuses⟩
      obtain ⟨rfl, rfl, rfl⟩ := calls.unique also
      exact refuses enters
    · exact .inr ⟨⟨callee, arguments, started, calls, refuses⟩, nowhere⟩

end TaskRun

end EventScript
