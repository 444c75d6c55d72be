import EventScript.Proofs.Evaluation.Ending
import EventScript.Proofs.Resolution.Accepted

/-!
# Where statements can go

A statement that breaks no rule returns only inside a function, in an initializer nothing else than
`nil`, and breaks only inside a loop (`Code.run_allowed`). So the statements of an accepted program
go on to the end, unless one fails (`Program.goesOn`).
-/

namespace EventScript

/-- The way to end is one that the context has a place for. Initializers have none for values. -/
def Flow.Allowed (context : CodeContext) : Flow → Prop
  | .next => True
  | .returned value =>
    context.function ≠ .none ∧ (context.function = .initializer → value = .nil)
  | .broke => context.inLoop = true

/-- What the code gives is allowed around it, wherever it breaks no rule. -/
def Code.Allows : {kind : ResultKind} → Code kind → kind.Result → Prop
  | _, .stmt form, flow =>
    ∀ context scope, (form.check context scope).2 = [] → Flow.Allowed context flow
  | _, .stmts forms, flow =>
    ∀ context scope, (checkAll context scope forms).2 = [] → Flow.Allowed context flow
  | _, .loop _ body, flow =>
    ∀ context scope, (body.check { context with inLoop := true } scope).2 = [] →
      Flow.Allowed context flow
  | _, _, _ => True

namespace Plan

variable {α : Type}

/-- Whatever is read on the way, the plan gives a good result if inner code gives what it allows. -/
def Gives (good : α → Prop) : Plan α → Prop
  | give value => good value
  | perform _ next => ∀ value, (next value).Gives good
  | visit _ code next => ∀ result, code.Allows result → (next result).Gives good

/-- What a plan gives is good if inner code gives what it allows. -/
theorem Gives.carryOut {good : α → Prop} {runner : Runner} {plan : Plan α} {machine later : Machine}
    {result : α} (gives : plan.Gives good)
    (allows : ∀ {kind : ResultKind} (code : Code kind) {machine later : Machine}
      {result : kind.Result},
      runner kind code machine = .done result later → code.Allows result)
    (done : plan.carryOut runner machine = .done result later) : good result := by
  induction plan generalizing machine with
  | give value =>
    obtain ⟨rfl, -⟩ := Outcome.done.inj done
    exact gives
  | perform run next ih =>
    obtain ⟨value, middle, -, onward⟩ := Run.exists_of_bind done
    exact ih value (gives value) onward
  | @visit kind setting code next ih =>
    obtain ⟨inner, middle, around, onward⟩ := Run.exists_of_bind done
    refine ih inner (gives inner ?_) onward
    unfold Setting.around at around
    cases ended : runner kind code (setting.enter machine) with
    | failed | exhausted =>
      rw [ended] at around
      contradiction
    | done value last =>
      rw [ended] at around
      obtain ⟨rfl, -⟩ := Outcome.done.inj around
      exact allows code ended

/-- Any result will do where all results are good. -/
theorem gives_of_forall {good : α → Prop} (always : ∀ result, good result) (plan : Plan α) :
    plan.Gives good := by
  induction plan with
  | give value => exact always value
  | perform run next ih => exact ih
  | visit setting code next ih => exact fun result _ => ih result

end Plan

/-- A `return` that breaks no rule is inside a function. -/
theorem function_of_checkReturn {context : CodeContext} {span : Span} {withValue : Bool}
    (clear : checkReturn context span withValue = []) : context.function ≠ .none := by
  intro outside
  simp [checkReturn, outside] at clear

/-- A `return` with a value that breaks no rule is not inside an initializer. -/
theorem ne_initializer_of_checkReturn {context : CodeContext} {span : Span}
    (clear : checkReturn context span true = []) : context.function ≠ .initializer := by
  intro inside
  simp [checkReturn, inside] at clear

/-- A statement gives what is allowed around it if its parts do. -/
theorem Stmt.plan_gives (form : Stmt) : form.plan.Gives (Code.stmt form).Allows := by
  cases form with
  | letDecl span name initializer =>
    cases initializer with
    | none => exact fun _ _ _ _ => trivial
    | some value => exact fun _ _ _ _ _ _ => trivial
  | function => exact fun _ _ _ _ _ => trivial
  | classDecl => exact fun _ _ _ _ _ _ => trivial
  | expression => exact fun _ _ _ _ _ => trivial
  | print => exact fun _ _ _ _ _ _ => trivial
  | block span body =>
    intro scope flow allowed context outer clear
    exact allowed context (some []) clear
  | conditional span condition thenBranch elseBranch =>
    intro value _
    dsimp only
    split
    · exact fun flow allowed context scope clear =>
        allowed context scope (conditional_clear.mp clear).2.1
    · cases elseBranch with
      | none => exact fun _ _ _ => trivial
      | some branch =>
        exact fun flow allowed context scope clear =>
          allowed context _ ((conditional_clear.mp clear).2.2 branch rfl)
  | «while» span condition body =>
    intro flow allowed context scope clear
    exact allowed context scope (List.append_eq_nil_iff.mp clear).2
  | «return» span value =>
    cases value with
    | none => exact fun _ _ clear => ⟨function_of_checkReturn clear, fun _ => rfl⟩
    | some value =>
      intro _ _ context scope clear
      have itself := (List.append_eq_nil_iff.mp clear).1
      exact ⟨function_of_checkReturn itself, fun inside =>
        absurd inside (ne_initializer_of_checkReturn itself)⟩
  | «break» span =>
    intro context scope clear
    by_cases inside : context.inLoop = true
    · exact inside
    · simp [Stmt.check, inside] at clear

/-- Whatever is run, it gives what is allowed around it if its parts do. -/
theorem Code.plan_gives {kind : ResultKind} (code : Code kind) : code.plan.Gives code.Allows := by
  cases code with
  | expr | exprs | call | instantiation | activation =>
    exact Plan.gives_of_forall (fun _ => trivial) _
  | stmt form => exact form.plan_gives
  | stmts forms =>
    cases forms with
    | nil => exact fun _ _ _ => trivial
    | cons first rest =>
      intro flow allowed
      have here : (Code.stmts (first :: rest)).Allows flow := fun context scope clear =>
        allowed context scope (List.append_eq_nil_iff.mp clear).1
      cases flow with
      | next =>
        exact fun _ later context scope clear =>
          later context _ (List.append_eq_nil_iff.mp clear).2
      | returned | broke => exact here
  | loop condition body =>
    intro value _
    dsimp only
    split
    · intro flow allowed
      cases flow with
      | next => exact fun _ later => later
      | broke => exact fun _ _ _ => trivial
      | returned value =>
        exact fun context scope clear => allowed { context with inLoop := true } scope clear
    · exact fun _ _ _ => trivial

/-- Code that breaks no rule ends in ways that are allowed around it. -/
theorem Code.run_allowed (bound : Nat) {kind : ResultKind} (code : Code kind)
    {machine later : Machine}
    {result : kind.Result} (done : code.run bound machine = .done result later) :
    code.Allows result := by
  induction bound generalizing kind code machine later with
  | zero =>
    rw [code.run_zero] at done
    contradiction
  | succ bound ih =>
    rw [Code.run_succ] at done
    exact code.plan_gives.carryOut (fun inner _ _ _ ended => ih inner ended) done

/-- The statements of an accepted program neither return nor break: they go on to the end or
fail. -/
theorem Program.goesOn {program : Program} (clear : program.check = []) {bound : Nat} {flow : Flow}
    {machine later : Machine}
    (done : (Code.stmts program).run bound machine = .done flow later) : flow = .next := by
  have allowed := Code.run_allowed bound (.stmts program) done {} none clear
  cases flow with
  | next => rfl
  | returned value => exact absurd rfl allowed.1
  | broke => contradiction

end EventScript
