import EventScript.Proofs.Evaluation.Ending
import EventScript.Proofs.Session.Steps

/-!
# How the running of a program ends

A larger bound changes nothing in a session either, once the bound suffices
(`Session.interpret_mono`): so running a program from a state of a session ends in one way at most
(`Session.Interprets`).
-/

namespace EventScript

/-- Wherever the one computation ends, the other ends so too. -/
def Run.EndsAs {α : Type} (larger run : Run α) : Prop :=
  ∀ machine, run machine ≠ .exhausted → larger machine = run machine

namespace Run

variable {α β : Type} {run larger : Run α}

/-- A computation ends as itself. -/
theorem endsAs_refl (run : Run α) : run.EndsAs run := fun _ _ => rfl

/-- One computation after another ends as both do. -/
theorem EndsAs.bind {next onward : α → Run β} (first : larger.EndsAs run)
    (rest : ∀ value, (onward value).EndsAs (next value)) :
    (larger >>= onward).EndsAs (run >>= next) := by
  intro machine ends
  cases ended : run machine with
  | exhausted => exact absurd (bind_exhausted ended) ends
  | failed diagnostic later =>
    rw [bind_failed ended, bind_failed ((first machine (by rw [ended]; nofun)).trans ended)]
  | done value later =>
    rw [bind_done ended] at ends
    rw [bind_done ended, bind_done ((first machine (by rw [ended]; nofun)).trans ended)]
    exact rest value later ends

/-- What is reported does not depend on the bound. -/
theorem EndsAs.reporting {run larger : Run Unit} (same : larger.EndsAs run)
    {machine later : Machine} (ran : run.reporting machine = some later) :
    larger.reporting machine = some later := by
  have ends : run machine ≠ .exhausted := by
    intro exhausted
    simp only [Run.reporting, exhausted] at ran
    contradiction
  unfold Run.reporting at ran ⊢
  rw [same machine ends]
  exact ran

end Run

/-- The machine after the outcome has been reported, if it is a failure. -/
def Outcome.settled {α : Type} : Outcome α → Option Machine
  | .done _ later => some later
  | .failed diagnostic later => some (later.report diagnostic)
  | .exhausted => none

variable {bound larger : Nat} {machine later : Machine}

/-- What is reported comes after what was reported before. -/
theorem Machine.report_reported (machine : Machine) (diagnostic : Diagnostic) :
    (machine.report diagnostic).reported = machine.reported ++ [diagnostic] := by
  unfold report
  dsimp only
  split <;> rfl

/-- What an outcome leaves still holds after it has been reported, if a report does not change
it. -/
theorem Outcome.Leaves.settled {α : Type} {outcome : Outcome α} {property : Machine → Prop}
    (leaves : outcome.Leaves property)
    (report : ∀ machine diagnostic, property machine → property (machine.report diagnostic))
    (settled : outcome.settled = some later) : property later := by
  cases outcome with
  | done value ended => exact Option.some.inj settled ▸ leaves
  | failed diagnostic ended => exact Option.some.inj settled ▸ report ended diagnostic leaves
  | exhausted => contradiction

/-- The body of a program leaves what its statements leave, back at top level. -/
theorem Machine.runBody_eq (bound : Nat) (program : Program) (machine : Machine) :
    machine.runBody bound program =
      ((Code.stmts program).run bound machine.toTopLevel).settled.map Machine.toTopLevel := by
  show (Run.reporting (executeAll bound program >>= fun _ => pure ()) machine.toTopLevel).map
    Machine.toTopLevel = (executeAll bound program machine.toTopLevel).settled.map
      Machine.toTopLevel
  unfold Run.reporting
  cases ended : executeAll bound program machine.toTopLevel with
  | done flow later => rw [Run.bind_done ended]; rfl
  | failed diagnostic later => rw [Run.bind_failed ended]; rfl
  | exhausted => rw [Run.bind_exhausted ended]; rfl

namespace Machine

variable {program : Program}

/-- Within every large enough bound, running the statements of the program ends on the other
machine. -/
def BodyEnds (program : Program) (machine later : Machine) : Prop :=
  ∃ bound, machine.runBody bound program = some later

/-- The body of a program ends as its statements do at top level. -/
theorem bodyEnds_iff :
    BodyEnds program machine later ↔
      ∃ outcome, (Code.stmts program).Ends machine.toTopLevel outcome ∧
        outcome.settled.map toTopLevel = some later := by
  constructor
  · rintro ⟨bound, ran⟩
    rw [runBody_eq] at ran
    refine ⟨_, .of_run rfl fun exhausted => ?_, ran⟩
    rw [exhausted] at ran
    contradiction
  · rintro ⟨outcome, ⟨-, bound, ran⟩, settled⟩
    refine ⟨bound, ?_⟩
    rw [runBody_eq, ran]
    exact settled

end Machine

/-- Calls end within a larger bound as they do within a smaller one. -/
theorem callValue_endsAs (le : bound ≤ larger) (callee : Value) (arguments : List Value)
    (span : Span) :
    (callValue larger callee arguments span).EndsAs (callValue bound callee arguments span) :=
  fun _ ends => (Code.call callee arguments span).run_mono le ends

/-- With a larger bound an action ends as before. -/
theorem runAction_endsAs (le : bound ≤ larger) (action : Action Value) :
    (runAction larger action).EndsAs (runAction bound action) := by
  cases action with
  | call callee arguments =>
    have calls := callValue_endsAs le callee arguments default
    exact calls.bind fun _ => Run.endsAs_refl _
  | deliver callback result =>
    apply (Run.endsAs_refl _).bind
    intro arguments
    have calls := callValue_endsAs le callback arguments default
    exact calls.bind fun _ => Run.endsAs_refl _
  | fail diagnostic => exact Run.endsAs_refl _

/-- With a larger bound the statements of a program end as before. -/
theorem Machine.runBody_mono (le : bound ≤ larger) {program : Program}
    (ran : machine.runBody bound program = some later) :
    machine.runBody larger program = some later := by
  rw [runBody_eq] at ran ⊢
  have ends : (Code.stmts program).run bound machine.toTopLevel ≠ .exhausted := by
    intro exhausted
    rw [exhausted] at ran
    contradiction
  rwa [Code.run_mono le ends]

/-- With a larger bound a task ends as before. -/
theorem Machine.runTask_mono (le : bound ≤ larger) {task : Task Value}
    (ran : machine.runTask bound task = some later) : machine.runTask larger task = some later :=
  (runAction_endsAs le task.action).reporting ran

namespace Session

variable {session ended : Session}

/-- With a larger bound the next task is the same. -/
theorem nextTask_mono (le : bound ≤ larger) {next : Option (Task Value)}
    (called : session.nextTask bound = some (next, ended)) :
    session.nextTask larger = some (next, ended) := by
  induction bound generalizing session larger with
  | zero => contradiction
  | succ bound ih =>
    obtain ⟨larger, rfl⟩ : ∃ less, larger = less + 1 := ⟨larger - 1, by omega⟩
    have le := Nat.le_of_succ_le_succ le
    rw [nextTask_succ] at called ⊢
    rcases asks : session.look.collect.machine.ask with ⟨poll, machine⟩
    rw [asks] at called
    cases poll with
    | ready | idle => exact called
    | sleep wake => exact ih le called
    | await deadline =>
      obtain ⟨waited, awaited, further⟩ := Option.bind_eq_some_iff.mp called
      exact Option.bind_eq_some_iff.mpr ⟨waited, awaited, ih le further⟩

/-- With a larger bound the event loop ends as before. -/
theorem drain_mono (le : bound ≤ larger) (drained : drain bound session = some ended) :
    drain larger session = some ended := by
  induction bound generalizing session larger with
  | zero => contradiction
  | succ bound ih =>
    obtain ⟨larger, rfl⟩ : ∃ less, larger = less + 1 := ⟨larger - 1, by omega⟩
    have le := Nat.le_of_succ_le_succ le
    rw [drain_succ]
    rcases drain_cases drained with
      ⟨between, called, rfl⟩ | ⟨task, between, machine, called, ran, onward⟩
    · rw [nextTask_mono le called]
      rfl
    · rw [nextTask_mono le called, Option.bind_some]
      show (between.machine.runTask larger task).bind _ = _
      rw [Machine.runTask_mono le ran]
      exact ih le onward

/-- With a larger bound a program ends as before. -/
theorem interpret_mono (le : bound ≤ larger) {program : Program} {result : Except Failure Unit}
    (interpreted : session.interpret bound program = some (result, ended)) :
    session.interpret larger program = some (result, ended) := by
  obtain ⟨machine, ran, draining, same⟩ := interpret_eq_some.mp interpreted
  have ran' := Machine.runBody_mono le ran
  have draining' := drain_mono le draining
  exact interpret_eq_some.mpr ⟨machine, ran', draining', same⟩

/-- Running the program from the first session on ends in the other with this result, within every
large enough bound. -/
def Interprets (program : Program) (session : Session) (result : Except Failure Unit)
    (ended : Session) : Prop :=
  ∃ bound, session.interpret bound program = some (result, ended)

/-- Running a program ends in one way at most. -/
theorem Interprets.unique {program : Program} {result other : Except Failure Unit}
    {ended' : Session}
    (interprets : Interprets program session result ended)
    (interprets' : Interprets program session other ended') : result = other ∧ ended = ended' := by
  obtain ⟨bound, interpreted⟩ := interprets
  obtain ⟨bound', interpreted'⟩ := interprets'
  have first := interpret_mono (Nat.le_max_left bound bound') interpreted
  rw [interpret_mono (Nat.le_max_right bound bound') interpreted'] at first
  obtain ⟨same, rfl⟩ := Prod.mk.inj (Option.some.inj first)
  exact ⟨same.symm, rfl⟩

end Session

end EventScript
