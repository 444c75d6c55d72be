import EventScript.Proofs.Session.Pointing
import EventScript.Proofs.Syntax.Located

/-!
# The errors that a session reports

`Session.Course` is what a session comes through when it evaluates source texts one after another,
with the texts and the tasks that were run on the way. All errors that are reported meanwhile point
at a part of one of the texts, but for those of tasks whose call is refused: no call expression says
where such a call stands, so these point nowhere (`Session.reported_located`).
-/

namespace EventScript

/-- The span is that of a part of a program that one of the texts forms, and lies in this text. -/
def Span.OfTexts (sources : List String) (span : Span) : Prop :=
  ∃ source ∈ sources, ∃ program, Program.accept source = .ok program ∧ program.HasSpan span ∧
    span.LiesIn source

/-- All spans of the programs that the texts form are theirs. -/
theorem Program.allSpans_ofTexts {sources : List String} {source : String} {program : Program}
    (member : source ∈ sources) (accepted : accept source = .ok program) :
    ∀ stmt ∈ program, stmt.AllSpans (Span.OfTexts sources) := fun stmt inProgram =>
  (lies_of_ofText (accept_iff.mp accepted).1 stmt inProgram).mono fun _ ⟨lies, has⟩ =>
    ⟨source, member, program, accepted, has, lies⟩

namespace Diagnostic

variable {sources : List String} {diagnostic : Diagnostic}

/-- The error points at a part of one of the texts, and is shown with the line on which that
starts. -/
def LocatedIn (sources : List String) (diagnostic : Diagnostic) : Prop :=
  ∃ span, span.OfTexts sources ∧ 1 ≤ span.line ∧ diagnostic.span = some span ∧
    diagnostic.text = "[line " ++ toString span.line ++ "] " ++ diagnostic.message

/-- A diagnostic that points into one of the texts is located in them. -/
theorem Raised.locatedIn (raised : diagnostic.Raised (Pointed (Span.OfTexts sources))) :
    diagnostic.LocatedIn sources := by
  obtain ⟨⟨kind, running⟩, notes, span, there, found⟩ := raised
  have line : 1 ≤ span.line := by
    obtain ⟨source, -, program, -, -, lies⟩ := found
    exact lies.line_pos
  refine ⟨span, found, line, there, ?_⟩
  have place : diagnostic.span = some span := there
  rw [text, place, running, notes]
  simp only [label, List.map_nil, String.join_nil, String.append_empty]

/-- Neither nowhere nor the default span is a place in a text. -/
theorem Unplaced.not_locatedIn (unplaced : diagnostic.Unplaced) :
    ¬diagnostic.LocatedIn sources := by
  rintro ⟨span, -, line, there, -⟩
  rcases unplaced with none | same
  · rw [none] at there
    contradiction
  · obtain rfl := Option.some.inj (same.symm.trans there)
    exact absurd line (by decide)

end Diagnostic

namespace Machine

variable {machine started : Machine}

/-- The call of a task that is ready is the one made at the turn. -/
theorem TurnCalls.of_ask {task : Task Value} {callee : Value} {arguments : List Value}
    {begun : Machine}
    (asks : machine.ask = (.ready task, started))
    (calls : task.action.Calls started.toTopLevel callee arguments begun) :
    machine.TurnCalls callee arguments begun := by
  unfold ask at asks
  rcases read : machine.readTime with ⟨reading, timed⟩
  rcases polled : timed.events.poll reading with ⟨poll, events⟩
  simp only [read, polled] at asks
  obtain ⟨rfl, rfl⟩ := Prod.mk.inj asks
  exact .intro read polled calls

/-- Asking what to do next reports nothing. -/
theorem ask_reported {poll : Poll Value} (asks : machine.ask = (poll, started)) :
    started.reported = machine.reported := by
  obtain ⟨events, -, rfl⟩ := ask_eq asks
  unfold readTime
  split <;> rfl

end Machine

namespace Session

/-- The course of a session that evaluates source texts, with the texts that it was given and the
tasks that were run so far. -/
inductive Course : List String → List TaskRun → Session → Prop where
  | new (settings : Settings) (sink : Sink) (console : Console) (clock : WallClock) (host : Host) :
      Course [] [] { machine := .new settings sink console clock, host }
  /-- A source text that is not accepted is not run. -/
  | rejected {sources : List String} {runs : List TaskRun} {session : Session} {source : String}
      {failure : Failure} (course : Course sources runs session)
      (rejected : Program.accept source = .error failure) :
      Course (sources ++ [source]) runs session
  /-- The statements of an accepted source text are run. -/
  | body {sources : List String} {runs : List TaskRun} {session : Session} {source : String}
      {program : Program} {bound : Nat} {machine : Machine} (course : Course sources runs session)
      (accepted : Program.accept source = .ok program)
      (ran : session.machine.runBody bound program = some machine) :
      Course (sources ++ [source]) runs { session with machine }
  /-- The event loop takes a turn, and runs the task that is ready, if there is one. -/
  | turn {sources : List String} {runs : List TaskRun} {session : Session} {bound : Nat}
      {poll : Poll Value} {machine : Machine} (course : Course sources runs session)
      (turned : session.machine.turn bound = some (poll, machine)) :
      Course sources (runs ++ poll.tasks.map fun task => ⟨task, session.machine.ask.2, machine⟩)
        { session with machine }
  /-- Something happens from outside. -/
  | outside {sources : List String} {runs : List TaskRun} {session later : Session}
      (course : Course sources runs session) (happens : session.machine.Happens later.machine) :
      Course sources runs later
  /-- The event loop has ended. -/
  | finish {sources : List String} {runs : List TaskRun} {session : Session}
      (course : Course sources runs session) :
      Course sources runs { session with machine := session.machine.toTopLevel }
  /-- Somebody reads what was printed, or provides input. -/
  | exchange {sources : List String} {runs : List TaskRun} {session : Session}
      (course : Course sources runs session) (console : Console) (sink : Sink) :
      Course sources runs { session with machine := { session.machine with console, sink } }

namespace Course

variable {sources : List String} {runs : List TaskRun} {session later : Session} {bound : Nat}

/-- Running the event loop goes on with the course. -/
theorem unwinds {more : List TaskRun} (course : Course sources runs session)
    (unwinds : Unwinds session more later) : Course sources (runs ++ more) later := by
  induction unwinds generalizing runs with
  | @idle session asked asks =>
    exact (course.turn (Machine.turn_of_idle asks 0)).finish
  | @task session later task started ended bound rest asks ran onward ih =>
    have next := ih (course.turn (Machine.turn_of_ready asks ran))
    rw [asks, List.append_assoc] at next
    exact next
  | @linger session between later rest lingers onward ih =>
    refine ih ?_
    cases lingers with
    | outside happens => exact course.outside happens
    | @again poll asked asks waits =>
      have next := course.turn (Machine.turn_of_waits asks waits 0)
      rwa [waits.tasks_eq, List.map_nil, List.append_nil] at next

/-- Evaluating a source text goes on with the course. -/
theorem evaluate {source : String} {result : Except Failure Unit}
    (course : Course sources runs session)
    (evaluated : session.evaluate bound source = some (result, later)) :
    ∃ more, Course (sources ++ [source]) (runs ++ more) later := by
  rw [evaluate_eq] at evaluated
  split at evaluated
  · rename_i failure rejected
    obtain ⟨-, rfl⟩ := Prod.mk.inj (Option.some.inj evaluated)
    exact ⟨[], (List.append_nil runs).symm ▸ course.rejected rejected⟩
  · rename_i program accepted
    obtain ⟨machine, ran, draining, -⟩ := interpret_eq_some.mp evaluated
    obtain ⟨more, unwinds⟩ := unwinds_of_drain draining
    have handedOn : Unwinds { session with machine } more later := .undergone (.undertake _) unwinds
    exact ⟨more, (course.body accepted ran).unwinds handedOn⟩

end Course

/-- Where a session points: all that it may run and all that its event loop holds goes by spans with
the property, and so do the errors reported so far, but for those of tasks whose call was
refused. -/
structure Points (property : Span → Prop) (runs : List TaskRun) (session : Session) : Prop where
  good : (spanDiscipline property).Good session.machine
  sited : session.machine.Sited property
  reported : ∀ diagnostic ∈ session.machine.reported, diagnostic.Raised (Pointed property) ∨
    diagnostic.Unplaced ∧ ∃ run ∈ runs, run.Refused ∧ run.Reports diagnostic
  tasks : ∀ run ∈ runs, ∀ diagnostic, run.Reports diagnostic →
    diagnostic ∈ session.machine.reported ∧ run.Places property diagnostic

namespace Points

variable {property : Span → Prop} {runs : List TaskRun} {session later : Session} {bound : Nat}
variable {machine : Machine}

/-- Code that may be run goes by spans with the property only. -/
theorem ownSpans {kind : ResultKind} {code : Code kind}
    (before : (spanDiscipline property).contract.before code machine) :
    ∀ occasion ∈ code.trace bound machine, occasion.code.OwnSpans property := by
  intro occasion member
  have valid := (spanDiscipline_lawful property).validOn
    fun other (_ : other ∈ code.trace bound machine) => trivial
  exact ownSpans_of_fits (valid.visited (List.Subset.refl _) before (Code.mem_trace.mp member)).2

/-- A machine that has run nothing has pointed nowhere. -/
theorem new (settings : Settings) (sink : Sink) (console : Console) (clock : WallClock)
    (host : Host) :
    Points property [] { machine := .new settings sink console clock, host } where
  good := (spanDiscipline_lawful property).good_new settings sink console clock
  sited := .new settings sink console clock
  reported := List.forall_mem_nil _
  tasks := List.forall_mem_nil _

/-- What is reported meanwhile has to point where it may. -/
theorem grow (points : Points property runs session)
    (good : (spanDiscipline property).Good later.machine) (sited : later.machine.Sited property)
    {more : List TaskRun} {errors : List Diagnostic}
    (reported : later.machine.reported = session.machine.reported ++ errors)
    (raised : ∀ diagnostic ∈ errors, diagnostic.Raised (Pointed property) ∨
      diagnostic.Unplaced ∧ ∃ run ∈ more, run.Refused ∧ run.Reports diagnostic)
    (tasks : ∀ run ∈ more, ∀ diagnostic, run.Reports diagnostic →
      diagnostic ∈ errors ∧ run.Places property diagnostic) :
    Points property (runs ++ more) later where
  good := good
  sited := sited
  reported := by
    rw [reported]
    intro diagnostic member
    rcases List.mem_append.mp member with before | now
    · rcases points.reported diagnostic before with placed | ⟨unplaced, run, inRuns, refused⟩
      · exact .inl placed
      · have inAll : run ∈ runs ++ more := List.mem_append_left _ inRuns
        exact .inr ⟨unplaced, run, inAll, refused⟩
    · rcases raised diagnostic now with placed | ⟨unplaced, run, inMore, refused⟩
      · exact .inl placed
      · have inAll : run ∈ runs ++ more := List.mem_append_right _ inMore
        exact .inr ⟨unplaced, run, inAll, refused⟩
  tasks := by
    rw [reported]
    intro run member diagnostic reports
    rcases List.mem_append.mp member with before | now
    · obtain ⟨earlier, places⟩ := points.tasks run before diagnostic reports
      exact ⟨List.mem_append_left _ earlier, places⟩
    · obtain ⟨later, places⟩ := tasks run now diagnostic reports
      exact ⟨List.mem_append_right _ later, places⟩

/-- Without a task, what is reported meanwhile has to point at spans with the property. -/
theorem goOn (points : Points property runs session)
    (good : (spanDiscipline property).Good later.machine) (sited : later.machine.Sited property)
    {errors : List Diagnostic}
    (reported : later.machine.reported = session.machine.reported ++ errors)
    (raised : ∀ diagnostic ∈ errors, diagnostic.Raised (Pointed property)) :
    Points property runs later := by
  rw [← List.append_nil runs]
  exact points.grow good sited reported (fun diagnostic member => .inl (raised diagnostic member))
    (List.forall_mem_nil _)

/-- Changes to the clock and to the world do not matter. -/
theorem of_same (points : Points property runs session)
    (heap : later.machine.heap = session.machine.heap)
    (events : later.machine.events = session.machine.events)
    (reported : later.machine.reported = session.machine.reported) :
    Points property runs later := by
  have good := (spanDiscipline_lawful property).lasting.same _ points.good _ heap events
  have sited := points.sited.of_same events
  have none : later.machine.reported = session.machine.reported ++ [] := by
    rw [reported, List.append_nil]
  exact points.goOn good sited none (List.forall_mem_nil _)

/-- The body of a program whose spans have the property reports no error but one with such a
span. -/
theorem body (points : Points property runs session) {program : Program}
    (all : ∀ stmt ∈ program, stmt.AllSpans property)
    (ran : session.machine.runBody bound program = some machine) :
    Points property runs { session with machine } := by
  have before :
    (spanDiscipline property).contract.before (.stmts program) session.machine.toTopLevel :=
    ⟨⟨points.good.heap, points.good.events⟩, (),
      fun _ member => absurd member (Option.not_mem_none _), all⟩
  have good := (spanDiscipline_lawful property).good_runBody before (fun _ _ => trivial) ran
  have sited := points.sited.runBody (ownSpans before) ran
  obtain ⟨error, reported, raised⟩ := Machine.runBody_reported (ownSpans before) ran
  exact points.goOn good sited reported fun diagnostic member =>
    raised diagnostic (Option.mem_toList.mp member)

/-- A turn of the event loop reports no error but one of the task that is run. -/
theorem turn (points : Points property runs session) {poll : Poll Value}
    (turned : session.machine.turn bound = some (poll, machine)) :
    Points property (runs ++ poll.tasks.map fun task => ⟨task, session.machine.ask.2, machine⟩)
      { session with machine } := by
  have lawful := spanDiscipline_lawful property
  have good := lawful.good_turn points.good (fun _ _ => trivial) turned
  unfold Machine.turn at turned
  rcases asks : session.machine.ask with ⟨asked, started⟩
  obtain ⟨sited, ready⟩ := points.sited.ask asks
  have before := Machine.ask_reported asks
  rw [asks] at turned
  cases asked with
  | ready task =>
    obtain ⟨ended, ran, same⟩ := Option.map_eq_some_iff.mp turned
    obtain ⟨rfl, rfl⟩ := Prod.mk.inj same
    let run : TaskRun := ⟨task, started, ended⟩
    have action : run.task.action.Sited property := ready task rfl
    have own : run.OwnSpans property bound := fun callee arguments begun calls =>
      ownSpans (lawful.turn_before points.good (.of_ask asks calls))
    obtain ⟨error, reported, places⟩ := own.reported action ran
    have reports : ∀ diagnostic, run.Reports diagnostic ↔ diagnostic ∈ error := by
      intro diagnostic
      unfold TaskRun.Reports
      rw [reported, List.append_cancel_left_eq]
      exact Option.toList_eq_singleton_iff
    have after : ended.reported = session.machine.reported ++ error.toList :=
      reported.trans (congrArg (· ++ error.toList) before)
    refine points.grow good (own.sited sited action ran) after ?_ ?_
    · intro diagnostic member
      have inError := Option.mem_toList.mp member
      rcases places diagnostic inError with ⟨-, raised⟩ | ⟨refused, unplaced⟩
      · exact .inl raised
      · have itsOwn : run.Reports diagnostic := (reports diagnostic).mpr inError
        exact .inr ⟨unplaced, run, List.mem_singleton_self run, refused, itsOwn⟩
    · intro other only diagnostic given
      obtain rfl : other = run := List.mem_singleton.mp only
      have inError := (reports diagnostic).mp given
      exact ⟨Option.mem_toList.mpr inError, places diagnostic inError⟩
  | idle | sleep | await =>
    obtain ⟨rfl, rfl⟩ := Prod.mk.inj (Option.some.inj turned)
    show Points property (runs ++ []) _
    rw [List.append_nil]
    exact points.goOn good sited (before.trans (List.append_nil _).symm) (List.forall_mem_nil _)

end Points

section Course

variable {sources : List String} {runs : List TaskRun} {session : Session}

/-- A session points at spans with a property only, if all spans in the programs run have it. -/
theorem Course.points {property : Span → Prop} (course : Course sources runs session)
    (all : ∀ source ∈ sources, ∀ program, Program.accept source = .ok program →
      ∀ stmt ∈ program, stmt.AllSpans property) : Points property runs session := by
  induction course with
  | new settings sink console clock host => exact .new settings sink console clock host
  | rejected _ _ ih => exact ih fun source member => all source (List.mem_append_left _ member)
  | body _ accepted ran ih =>
    have before := ih fun source member => all source (List.mem_append_left _ member)
    have here := all _ (List.mem_append_right _ List.mem_cons_self) _ accepted
    exact before.body here ran
  | turn _ turned ih => exact (ih all).turn turned
  | @outside _ _ _ later _ happens ih =>
    have before := ih all
    have good := (spanDiscipline_lawful property).good_happens before.good happens
    obtain ⟨machine, host⟩ := later
    cases happens with
    | time | handOn => exact before.of_same rfl rfl rfl
    | report reported =>
      exact before.goOn good (EventLoop.Holds.report? before.sited reported)
        (List.append_nil _).symm (List.forall_mem_nil _)
  | finish _ ih | exchange _ _ _ ih => exact (ih all).of_same rfl rfl rfl

/-- All errors reported while source texts are evaluated point at a part of one of these texts, and
are shown with the line on which it starts, but for those of tasks whose call is refused. These are
reported too, and point at no part of a text. -/
theorem reported_located (course : Course sources runs session) :
    (∀ diagnostic ∈ session.machine.reported, diagnostic.LocatedIn sources ∨
      diagnostic.Unplaced ∧ ∃ run ∈ runs, run.Refused ∧ run.Reports diagnostic) ∧
    ∀ run ∈ runs, ∀ diagnostic, run.Reports diagnostic →
      diagnostic ∈ session.machine.reported ∧ (run.Refused ↔ ¬diagnostic.LocatedIn sources) := by
  have points := course.points fun source member program accepted =>
    Program.allSpans_ofTexts member accepted
  constructor
  · intro diagnostic member
    exact (points.reported diagnostic member).imp_left Diagnostic.Raised.locatedIn
  · intro run member diagnostic reports
    obtain ⟨found, places⟩ := points.tasks run member diagnostic reports
    refine ⟨found, ?_⟩
    rcases places with ⟨enters, raised⟩ | ⟨refused, unplaced⟩
    · have located := raised.locatedIn
      exact iff_of_false enters (not_not_intro located)
    · exact iff_of_true refused unplaced.not_locatedIn

end Course

/-- The statements fail at the name on the third line, and the call of the callback is refused. -/
theorem reported_located_callback :
    ∃ runs session first second, Course ["fun f(a) {}\ndelay(0, f);\nmissing;"] runs session ∧
      session.machine.reported = [first, second] ∧
      first.span = some ⟨25, 32, 3⟩ ∧
      first.LocatedIn ["fun f(a) {}\ndelay(0, f);\nmissing;"] ∧
      ¬second.LocatedIn ["fun f(a) {}\ndelay(0, f);\nmissing;"] ∧
      ∃ run ∈ runs, run.Refused ∧ run.Reports second := by
  have ended : ((new { clock := .virtual } (.captured "") {} {} {}).evaluate 64
      "fun f(a) {}\ndelay(0, f);\nmissing;").any (fun ended =>
        ended.2.machine.reported.map Diagnostic.span == [some ⟨25, 32, 3⟩, none]) = true := by
    decide +kernel
  obtain ⟨⟨result, session⟩, evaluated, spans⟩ := (Option.any_eq_true _ _).mp ended
  have fresh : Course [] [] (Session.new { clock := .virtual } (.captured "") {} {} {}) := .new ..
  obtain ⟨runs, course⟩ := fresh.evaluate evaluated
  obtain ⟨first, rest, reported, here, others⟩ := List.map_eq_cons_iff.mp (eq_of_beq spans)
  obtain ⟨second, last, rfl, nowhere, end_⟩ := List.map_eq_cons_iff.mp others
  obtain rfl := List.map_eq_nil_iff.mp end_
  obtain ⟨all, -⟩ := reported_located course
  rw [reported] at all
  have away : ¬second.LocatedIn ["fun f(a) {}\ndelay(0, f);\nmissing;"] :=
    Diagnostic.Unplaced.not_locatedIn (.inl nowhere)
  refine ⟨_, session, first, second, course, reported, here, ?_, ?_, ?_⟩
  · rcases all first List.mem_cons_self with located | ⟨unplaced, -⟩
    · exact located
    · have placed : ¬first.Unplaced := by
        rw [Diagnostic.Unplaced, here]
        decide
      exact absurd unplaced placed
  · exact away
  · rcases all second (List.mem_cons_of_mem _ List.mem_cons_self) with located | ⟨-, refused⟩
    · exact absurd located away
    · exact refused

/-- The error of a callback whose call is refused has no place in the text. -/
theorem callback_unlocated :
    ∃ result session,
      (new { clock := .virtual } (.captured "") {} {} {}).evaluate 64 "fun f(a) {}\ndelay(0, f);" =
        some (result, session) ∧
      ∃ diagnostic ∈ session.machine.reported,
        diagnostic.message = "Expected 1 arguments but got 0." ∧ diagnostic.span = none ∧
          ¬diagnostic.LocatedIn ["fun f(a) {}\ndelay(0, f);"] := by
  have ended : ((new { clock := .virtual } (.captured "") {} {} {}).evaluate 64
      "fun f(a) {}\ndelay(0, f);").any (fun ended =>
        ended.2.machine.reported.any fun diagnostic =>
          diagnostic.message == "Expected 1 arguments but got 0." && diagnostic.span == none) =
            true := by
    decide +kernel
  obtain ⟨⟨result, session⟩, evaluated, found⟩ := (Option.any_eq_true _ _).mp ended
  obtain ⟨diagnostic, member, found⟩ := List.any_eq_true.mp found
  obtain ⟨message, nowhere⟩ := Bool.and_eq_true_iff.mp found
  have text := eq_of_beq message
  have none := eq_of_beq nowhere
  have away : ¬diagnostic.LocatedIn ["fun f(a) {}\ndelay(0, f);"] :=
    Diagnostic.Unplaced.not_locatedIn (.inl none)
  exact ⟨result, session, evaluated, diagnostic, member, text, none, away⟩

end Session

end EventScript
