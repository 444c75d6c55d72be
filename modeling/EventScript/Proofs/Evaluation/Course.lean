import EventScript.Proofs.Evaluation.Stable

/-!
# The course of an evaluation

`Code.course` lists what happens while code runs, in order: the pieces of code that evaluation comes
to, the steps that they take, and the failures, each with the machine that it leaves. The code that
it lists is that of the trace (`Code.occasions_course`). A failure that points somewhere is the last
thing that happens: it is passed on through all the code around it with the same diagnostic, and
nothing is run or changed on the way out (`Code.failure_passes_through`). The steps themselves lose
no place either: those that point failures at their code have only failures that point nowhere
(`Run.withSpan_binary`, `Run.withSpan_property`), which all acts of evaluation rest on
(`Code.plan_acts`).
-/

namespace EventScript

open Run Plan

/-- What happens while code runs. -/
inductive Moment where
  /-- Evaluation comes to a piece of code. -/
  | comes (occasion : Occasion)
  /-- A piece of code has taken a step of its own. -/
  | steps (before after : Machine)
  /-- A step has failed, or a piece of code has. -/
  | fails (diagnostic : Diagnostic) (machine : Machine)

namespace Moment

/-- The piece of code that evaluation comes to, if it does. -/
def occasion? : Moment → Option Occasion
  | comes occasion => some occasion
  | _ => none

/-- The diagnostic of a failure. -/
def diagnostic? : Moment → Option Diagnostic
  | fails diagnostic _ => some diagnostic
  | _ => none

/-- A failure is passed on: with the same diagnostic, and with nothing changed but where the code
is. -/
def PassesOn (diagnostic : Diagnostic) (failing : Machine) (moment : Moment) : Prop :=
  ∃ scope frames, moment = fails diagnostic { failing with scope, frames }

end Moment

/-- What is listed of the end of some code: its failure. -/
def Outcome.failure {α : Type} : Outcome α → List Moment
  | .failed diagnostic later => [.fails diagnostic later]
  | _ => []

/-- What happens while a plan is carried out, where `inner` says what happens in inner code. -/
def Plan.course {α : Type} (runner : Runner)
    (inner : (kind : ResultKind) → Code kind → Machine → List Moment) :
    Plan α → Machine → List Moment
  | give _, _ => []
  | perform run next, machine =>
    match run machine with
    | .done value later => .steps machine later :: (next value).course runner inner later
    | .failed diagnostic later => [.fails diagnostic later]
    | .exhausted => []
  | @visit _ kind setting code next, machine =>
    inner kind code (setting.enter machine) ++
      match runner kind code (setting.enter machine) with
      | .done result later => (next result).course runner inner (setting.leave machine later)
      | _ => []

/-- What happens while code is run within a bound. -/
def Code.course : Nat → {kind : ResultKind} → Code kind → Machine → List Moment
  | 0, _, code, machine => [.comes ⟨code, machine⟩]
  | bound + 1, _, code, machine =>
    .comes ⟨code, machine⟩ ::
      (code.plan.course (.within bound) (fun _ code => Code.course bound code) machine ++
        (code.run (bound + 1) machine).failure)

section Occasions

variable {α : Type} {runner : Runner}

/-- A failure comes to no code. -/
theorem Outcome.occasions_failure (outcome : Outcome α) :
    outcome.failure.filterMap Moment.occasion? = [] := by
  cases outcome <;> rfl

/-- The code that a plan comes to, and what that comes to, are those of its course. -/
theorem Plan.occasions_course
    {inner : (kind : ResultKind) → Code kind → Machine → List Moment}
    {visited : Occasion → List Occasion}
    (lists : ∀ (kind : ResultKind) (code : Code kind) (machine : Machine),
      (inner kind code machine).filterMap Moment.occasion? = visited ⟨code, machine⟩)
    (plan : Plan α) (machine : Machine) :
    (plan.course runner inner machine).filterMap Moment.occasion? =
      (plan.trace runner machine).flatMap visited := by
  induction plan generalizing machine with
  | give value => rfl
  | perform run next ih =>
    simp only [course, trace]
    cases run machine with
    | done value later => exact ih value later
    | failed | exhausted => rfl
  | @visit kind setting code next ih =>
    simp only [course, trace, List.filterMap_append, List.flatMap_cons, lists]
    congr 1
    cases runner kind code (setting.enter machine) with
    | done result later => exact ih result _
    | failed | exhausted => rfl

/-- The course leaves out no code that evaluation comes to. -/
theorem Code.occasions_course (bound : Nat) {kind : ResultKind} (code : Code kind)
    (machine : Machine) :
    (code.course bound machine).filterMap Moment.occasion? = code.trace bound machine := by
  induction bound generalizing kind machine with
  | zero => rfl
  | succ bound ih =>
    have inside : (code.plan.course (.within bound) (fun _ code => code.course bound)
        machine).filterMap Moment.occasion? =
          (code.plan.trace (.within bound) machine).flatMap fun inner =>
            inner.code.trace bound inner.machine :=
      Plan.occasions_course (fun _ code machine => ih code machine) code.plan machine
    simp only [course, trace, List.filterMap_cons, Moment.occasion?, List.filterMap_append, inside,
      Outcome.occasions_failure, List.append_nil]

end Occasions

/-- Where the course lists a failure that points somewhere, nothing but the passing on of this
failure follows, and the outcome is the failure. -/
structure Outcome.Closes {α : Type} (course : List Moment) (outcome : Outcome α) : Prop where
  passed : ∀ {early late : List Moment} {diagnostic : Diagnostic} {failing : Machine} {span : Span},
    course = early ++ .fails diagnostic failing :: late → diagnostic.span = some span →
      (∀ moment ∈ late, moment.PassesOn diagnostic failing) ∧
        ∃ scope frames, outcome = .failed diagnostic { failing with scope, frames }

namespace Outcome.Closes

variable {α : Type} {outcome : Outcome α}

/-- What stands after a place in two lists, one after the other. -/
theorem split_append {first second early late : List Moment} {moment : Moment}
    (same : first ++ second = early ++ moment :: late) :
    (∃ middle, first = early ++ moment :: middle ∧ late = middle ++ second) ∨
      ∃ middle, second = middle ++ moment :: late := by
  rcases List.append_eq_append_iff.mp same with ⟨middle, -, rest⟩ | ⟨middle, front, rest⟩
  · exact .inr ⟨middle, rest⟩
  · rcases List.cons_eq_append_iff.mp rest with ⟨-, back⟩ | ⟨more, here, back⟩
    · exact .inr ⟨[], back⟩
    · subst here
      exact .inl ⟨more, front, back⟩

/-- Nothing has failed where nothing has happened. -/
theorem nil : outcome.Closes [] where
  passed same := by simp at same

/-- What is no failure may come before. -/
theorem cons {moment : Moment} {course : List Moment} (closes : outcome.Closes course)
    (other : moment.diagnostic? = none) : outcome.Closes (moment :: course) where
  passed {early _ _ _ _} same points := by
    cases early with
    | nil =>
      have here := (List.cons.inj same).1
      rw [here] at other
      contradiction
    | cons first early => exact closes.passed (List.cons.inj same).2 points

/-- A failure that comes alone is the outcome. -/
theorem single (diagnostic : Diagnostic) (later : Machine) :
    (Outcome.failed diagnostic later : Outcome α).Closes [.fails diagnostic later] where
  passed {early late other failing _} same _ := by
    cases early with
    | nil =>
      obtain ⟨here, rfl⟩ := List.cons.inj same
      obtain ⟨rfl, rfl⟩ := Moment.fails.inj here
      exact ⟨List.forall_mem_nil _, later.scope, later.frames, rfl⟩
    | cons first early => simp at same

/-- The outcome of some code is listed after what has happened in it. -/
theorem append_failure {course : List Moment} (closes : outcome.Closes course) :
    outcome.Closes (course ++ outcome.failure) where
  passed {early late diagnostic failing _} same points := by
    rcases split_append same with ⟨middle, front, rfl⟩ | ⟨middle, back⟩
    · -- The failure comes from inside, and the code itself passes it on last.
      obtain ⟨passed, scope, frames, rfl⟩ := closes.passed front points
      refine ⟨fun moment member => ?_, scope, frames, rfl⟩
      rcases List.mem_append.mp member with inside | last
      · exact passed moment inside
      · exact ⟨scope, frames, List.mem_singleton.mp last⟩
    · cases outcome with
      | done | exhausted => simp [Outcome.failure] at back
      | failed other later => exact (single other later).passed back points

/-- What happens next may follow inner code that has ended well. -/
theorem append {β : Type} {result : β} {later : Machine} {first second : List Moment}
    (closes : (Outcome.done result later).Closes first) (onward : outcome.Closes second) :
    outcome.Closes (first ++ second) where
  passed same points := by
    rcases split_append same with ⟨middle, front, -⟩ | ⟨middle, back⟩
    · obtain ⟨-, scope, frames, failed⟩ := closes.passed front points
      contradiction
    · exact onward.passed back points

/-- Nothing that points somewhere has failed in inner code for which the bound does not suffice. -/
theorem exhausted {β : Type} {course : List Moment}
    (closes : (Outcome.exhausted : Outcome β).Closes course) :
    (Outcome.exhausted : Outcome α).Closes course where
  passed same points := by
    obtain ⟨-, scope, frames, failed⟩ := closes.passed same points
    contradiction

/-- The failure of inner code is one of the code around it, in whatever setting. -/
theorem outward {β : Type} {course : List Moment} {diagnostic : Diagnostic} {later : Machine}
    (setting : Setting) (machine : Machine)
    (closes : (Outcome.failed diagnostic later : Outcome β).Closes course) :
    (Outcome.failed (setting.point diagnostic) (setting.leave machine later) : Outcome α).Closes
      course where
  passed {_ _ other failing _} same points := by
    obtain ⟨passed, scope, frames, failed⟩ := closes.passed same points
    obtain ⟨rfl, rfl⟩ := Outcome.failed.inj failed
    -- A diagnostic that points somewhere is not pointed elsewhere.
    have kept : setting.point diagnostic = diagnostic := by
      cases setting with
      | «at» other => exact Diagnostic.orSpan_of_span points other
      | here | inScope | inCall => rfl
    let left := setting.leave machine { failing with scope, frames }
    refine ⟨passed, left.scope, left.frames, ?_⟩
    rw [kept]
    cases setting <;> rfl

end Outcome.Closes

/-- A plan ends with a failure of one of its steps, or of inner code, that points somewhere. -/
theorem Plan.closes_course {α : Type} {runner : Runner}
    {inner : (kind : ResultKind) → Code kind → Machine → List Moment}
    (closes : ∀ (kind : ResultKind) (code : Code kind) (machine : Machine),
      (runner kind code machine).Closes (inner kind code machine))
    (plan : Plan α) (machine : Machine) :
    (plan.carryOut runner machine).Closes (plan.course runner inner machine) := by
  induction plan generalizing machine with
  | give value => exact .nil
  | perform run next ih =>
    cases ended : run machine with
    | exhausted =>
      simp only [course, ended]
      exact .nil
    | failed diagnostic later =>
      rw [carryOut, bind_failed ended]
      simp only [course, ended]
      exact .single diagnostic later
    | done value later =>
      rw [carryOut, bind_done ended]
      simp only [course, ended]
      exact (ih value later).cons rfl
  | @visit kind setting code next ih =>
    have inside := closes kind code (setting.enter machine)
    cases ended : runner kind code (setting.enter machine) with
    | exhausted =>
      rw [carryOut, bind_exhausted (by rw [Setting.around, ended, Setting.outward])]
      simp only [course, ended, List.append_nil]
      exact (ended ▸ inside).exhausted
    | failed diagnostic later =>
      rw [carryOut, bind_failed (by rw [Setting.around, ended, Setting.outward])]
      simp only [course, ended, List.append_nil]
      exact (ended ▸ inside).outward setting machine
    | done result later =>
      rw [carryOut, bind_done (by rw [Setting.around, ended, Setting.outward])]
      simp only [course, ended]
      exact (ended ▸ inside).append (ih result _)

/-- Code ends with a failure of whatever happened in it that points somewhere. -/
theorem Code.closes_course (bound : Nat) {kind : ResultKind} (code : Code kind)
    (machine : Machine) : (code.run bound machine).Closes (code.course bound machine) := by
  induction bound generalizing kind machine with
  | zero => exact (Outcome.Closes.nil).cons rfl
  | succ bound ih =>
    have inside : (code.run (bound + 1) machine).Closes
        (code.plan.course (.within bound) (fun _ code => code.course bound) machine) := by
      rw [code.run_succ]
      exact Plan.closes_course (fun _ code machine => ih code machine) code.plan machine
    exact inside.append_failure.cons rfl

/-- A failure that points somewhere passes through all the code around it: the code fails with the
same diagnostic, everything is left as the failing step left it, and the code is back where it
started. After the failure only the code around it fails, each time with nothing changed, so no more
code is come to and no more step is taken. -/
theorem Code.failure_passes_through {bound : Nat} {kind : ResultKind} {code : Code kind}
    {machine failing : Machine} {early late : List Moment} {diagnostic : Diagnostic} {span : Span}
    (course : code.course bound machine = early ++ .fails diagnostic failing :: late)
    (points : diagnostic.span = some span) :
    code.run bound machine =
        .failed diagnostic { failing with scope := machine.scope, frames := machine.frames } ∧
      (∀ moment ∈ late, moment.PassesOn diagnostic failing) ∧
      code.trace bound machine = early.filterMap Moment.occasion? := by
  obtain ⟨passed, scope, frames, failed⟩ := (code.closes_course bound machine).passed course points
  refine ⟨?_, passed, ?_⟩
  · -- However code ends, the machine is back in the same scope with the same calls open.
    have place := Code.restores bound code machine
    rw [failed] at place ⊢
    obtain ⟨rfl, rfl, -⟩ := place
    rfl
  · have nothing : late.filterMap Moment.occasion? = [] := by
      apply List.filterMap_eq_nil_iff.mpr
      intro moment member
      obtain ⟨scope, frames, rfl⟩ := passed moment member
      rfl
    rw [← code.occasions_course, course, List.filterMap_append, List.filterMap_cons, nothing]
    simp [Moment.occasion?]

/-- Where a course lists several failures of some sort, something follows the first of them. -/
theorem Moment.exists_followed {course : List Moment} {sort : Diagnostic → Bool}
    (several : 1 < (course.filter fun moment => moment.diagnostic?.any sort).length) :
    ∃ early late diagnostic failing, course = early ++ .fails diagnostic failing :: late ∧
      sort diagnostic = true ∧ late ≠ [] := by
  induction course with
  | nil => contradiction
  | cons first rest ih =>
    by_cases isOne : first.diagnostic?.any sort = true
    · simp only [List.filter_cons, isOne, if_true, List.length_cons] at several
      cases first with
      | comes | steps => contradiction
      | fails diagnostic failing =>
        refine ⟨[], rest, diagnostic, failing, rfl, isOne, ?_⟩
        rintro rfl
        contradiction
    · simp only [List.filter_cons, isOne] at several
      obtain ⟨early, late, diagnostic, failing, rfl, isSort, followed⟩ := ih several
      exact ⟨first :: early, late, diagnostic, failing, rfl, isSort, followed⟩

/-- A function prints something and then negates `nil` on line 3. It is called on line 5 as the
right operand of a sum that is to be printed, and all this fails with the diagnostic of line 3. -/
theorem Code.failure_passes_through_call :
    ∃ (code : Code .flow) (machine failing : Machine) (early late : List Moment)
        (diagnostic : Diagnostic) (span : Span),
      code.course 16 machine = early ++ .fails diagnostic failing :: late ∧
      diagnostic.span = some span ∧ span.line = 3 ∧ late ≠ [] ∧
      code.run 16 machine =
        .failed diagnostic { failing with scope := machine.scope, frames := machine.frames } ∧
      (∀ moment ∈ late, moment.PassesOn diagnostic failing) ∧
      code.trace 16 machine = early.filterMap Moment.occasion? := by
  let negation : Expr := .unary ⟨0, 4, 3⟩ .negate (.literal default .nil)
  let body : List Stmt := [.print default (.literal default (.bool true)),
    .expression default negation]
  let call : Expr := .call default (.variable default "f") []
  let sum : Expr := .binary ⟨9, 18, 5⟩ .add (.literal default (.bool true)) call
  let code : Code .flow := .stmts [.function default ⟨"f", [], body, default⟩, .print default sum]
  let machine : Machine := .new {} (.captured "") {} {}
  let onLine (diagnostic : Diagnostic) : Bool := diagnostic.span.any fun span => span.line == 3
  obtain ⟨early, late, diagnostic, failing, course, isOnLine, followed⟩ :=
    @Moment.exists_followed (code.course 16 machine) onLine (by decide +kernel)
  obtain ⟨span, points, line⟩ := (Option.any_eq_true _ _).mp isOnLine
  obtain ⟨failed, passed, listed⟩ := Code.failure_passes_through course points
  exact ⟨code, machine, failing, early, late, diagnostic, span, course, points, eq_of_beq line,
    followed, failed, passed, listed⟩

end EventScript
