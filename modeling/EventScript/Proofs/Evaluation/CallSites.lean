import EventScript.Proofs.Evaluation.Ending
import EventScript.Proofs.Evaluation.Trace

/-!
# Where calls come from

Evaluation makes a call only where a call expression has just been evaluated up to the call itself
(`Code.Visits.written`). In particular built-in functions call nothing: the callbacks they are given
are not called from here.
-/

namespace EventScript

open Plan

/-- Where the code calls something, if it is a call expression. -/
def Code.callSpan? {kind : ResultKind} : Code kind → Option Span
  | .expr (.call span ..) => some span
  | _ => none

/-- Whether the code is a call or a stage of one. -/
def Code.isCalling {kind : ResultKind} : Code kind → Bool
  | .call .. | .instantiation .. | .activation .. => true
  | _ => false

/-- What code may run in a setting: calls where it is a call expression, the further stages of a
call where it is a call, and all other code where failures stay as they are. -/
def Code.MayRun {kind : ResultKind} (code : Code kind) (setting : Setting) {kind' : ResultKind} :
    Code kind' → Prop
  | .call _ _ span => code.callSpan? = some span ∧ setting = .at span
  | .instantiation .. | .activation .. => code.isCalling = true ∧ setting = .here
  | _ => setting.point = id

/-- All that the plan runs is allowed where it runs it. -/
def Plan.Comes {α : Type} (allowed : Setting → {kind : ResultKind} → Code kind → Prop) :
    Plan α → Prop
  | give _ => True
  | perform _ next => ∀ value, (next value).Comes allowed
  | visit setting code next => allowed setting code ∧ ∀ result, (next result).Comes allowed

/-- A plan comes only to what is allowed. -/
theorem Plan.Comes.visits {α : Type} {allowed : Setting → {kind : ResultKind} → Code kind → Prop}
    {plan : Plan α} {runner : Runner} {machine reached : Machine} {kind : ResultKind}
    {code : Code kind} (comes : plan.Comes allowed)
    (visits : Plan.Visits runner plan machine code reached) : ∃ setting, allowed setting code := by
  induction visits with
  | perform _ _ ih => exact ih (comes _)
  | here => exact ⟨_, comes.1⟩
  | onward _ _ ih => exact ih (comes.2 _)

/-- An expression runs only its parts. -/
theorem Expr.plan_comes (form : Expr) : form.plan.Comes (Code.expr form).MayRun := by
  cases form with
  | literal | «variable» | this | super => exact fun _ => trivial
  | group => exact ⟨rfl, fun _ => trivial⟩
  | assign => exact ⟨rfl, fun _ _ => trivial⟩
  | unary => exact ⟨rfl, fun _ _ => trivial⟩
  | get => exact ⟨rfl, fun _ _ => trivial⟩
  | call => exact ⟨rfl, fun _ => ⟨rfl, fun _ => ⟨⟨rfl, rfl⟩, fun _ => trivial⟩⟩⟩
  | binary => exact ⟨rfl, fun _ => ⟨rfl, fun _ _ => trivial⟩⟩
  | logical span op left right =>
    refine ⟨rfl, fun left => ?_⟩
    dsimp only
    split
    · trivial
    · exact ⟨rfl, fun _ => trivial⟩
  | set span object name value =>
    refine ⟨rfl, fun object => ?_⟩
    cases object with
    | object ref => exact ⟨rfl, fun _ _ => trivial⟩
    | _ => exact fun _ => trivial

/-- A statement runs only its parts. -/
theorem Stmt.plan_comes (form : Stmt) : form.plan.Comes (Code.stmt form).MayRun := by
  cases form with
  | letDecl span name initializer =>
    cases initializer with
    | none => exact fun _ => trivial
    | some value => exact ⟨rfl, fun _ _ => trivial⟩
  | function => exact fun _ _ => trivial
  | classDecl => exact fun _ _ _ => trivial
  | expression | «while» => exact ⟨rfl, fun _ => trivial⟩
  | print => exact ⟨rfl, fun _ _ => trivial⟩
  | block => exact fun _ => ⟨rfl, fun _ => trivial⟩
  | conditional span condition thenBranch elseBranch =>
    refine ⟨rfl, fun value => ?_⟩
    dsimp only
    split
    · exact ⟨rfl, fun _ => trivial⟩
    · cases elseBranch with
      | none => trivial
      | some branch => exact ⟨rfl, fun _ => trivial⟩
  | «return» span value =>
    cases value with
    | none => trivial
    | some value => exact ⟨rfl, fun _ => trivial⟩
  | «break» => trivial

/-- Code runs only what it may run. -/
theorem Code.plan_comes {kind : ResultKind} (code : Code kind) : code.plan.Comes code.MayRun := by
  cases code with
  | expr form => exact form.plan_comes
  | exprs forms =>
    cases forms with
    | nil => trivial
    | cons first rest => exact ⟨rfl, fun _ => ⟨rfl, fun _ => trivial⟩⟩
  | stmt form => exact form.plan_comes
  | stmts forms =>
    cases forms with
    | nil => trivial
    | cons first rest =>
      refine ⟨rfl, fun flow => ?_⟩
      cases flow with
      | next => exact ⟨rfl, fun _ => trivial⟩
      | returned | broke => trivial
  | loop condition body =>
    refine ⟨rfl, fun value => ?_⟩
    dsimp only
    split
    · refine ⟨rfl, fun flow => ?_⟩
      cases flow with
      | next => exact ⟨rfl, fun _ => trivial⟩
      | returned | broke => trivial
    · trivial
  | call callee arguments span =>
    cases callee with
    | function | method | classObject => exact ⟨⟨rfl, rfl⟩, fun _ => trivial⟩
    | _ => exact fun _ => trivial
  | instantiation cls arguments =>
    show (cls.plan arguments).Comes (Code.instantiation cls arguments).MayRun
    unfold Class.plan
    split
    · exact fun _ => trivial
    · intro object
      dsimp only
      cases cls.findMethod? FunctionDecl.initializerName with
      | none => trivial
      | some method => exact ⟨⟨rfl, rfl⟩, fun _ => trivial⟩
  | activation => exact fun _ _ => ⟨rfl, fun _ => trivial⟩

/-- If the code is a call, then evaluation has come to a call expression whose callee and arguments
have just been evaluated to those of the call. -/
def Code.Written (visited : Expr → Machine → Prop) :
    {kind : ResultKind} → Code kind → Machine → Prop
  | _, .call callee arguments span, reached =>
    ∃ function forms before middle, visited (.call span function forms) before ∧
      (Code.expr function).Ends before (.done callee middle) ∧
      (Code.exprs forms).Ends middle (.done arguments reached)
  | _, _, _ => True

namespace Code

variable {kind kind' : ResultKind} {code : Code kind} {code' : Code kind'}
    {machine reached : Machine}
variable {bound : Nat} {visited wider : Expr → Machine → Prop}

/-- Code that is written in some places is written in some of more places. -/
theorem Written.mono (written : code.Written visited machine)
    (le : ∀ form machine, visited form machine → wider form machine) :
    code.Written wider machine := by
  cases code with
  | call callee arguments span =>
    obtain ⟨function, forms, before, middle, comes, evaluated⟩ := written
    exact ⟨function, forms, before, middle, le _ _ comes, evaluated⟩
  | _ => trivial

/-- What a call expression runs last is the call of the value of its callee with those of its
arguments. -/
theorem written_of_callExpr {span : Span} {function : Expr} {forms : List Expr}
    (visits : Plan.Visits (.within bound) (Expr.plan (.call span function forms)) machine code
      reached)
    (here : visited (.call span function forms) machine) : code.Written visited reached := by
  cases visits with
  | here => trivial
  | onward called visits =>
    cases visits with
    | here => trivial
    | onward given visits =>
      cases visits with
      | here => exact ⟨function, forms, machine, _, here, .of_run called nofun, .of_run given nofun⟩
      | onward _ visits => cases visits

/-- Only call expressions make calls. -/
theorem written_of_visits (visits : Plan.Visits (.within bound) code.plan machine code' reached)
    (here : ∀ form, (⟨code, machine⟩ : Occasion) = ⟨.expr form, machine⟩ → visited form machine) :
    code'.Written visited reached := by
  obtain ⟨setting, runs⟩ := code.plan_comes.visits visits
  cases code' with
  | call callee arguments span =>
    cases code with
    | expr form =>
      cases form with
      | call other function forms =>
        obtain rfl := Option.some.inj runs.1
        exact written_of_callExpr visits (here _ rfl)
      | _ => cases runs.1
    | _ => cases runs.1
  | _ => trivial

/-- All code that evaluation comes to, other than the one it starts with, is no call or one that a
call expression makes. -/
theorem Visits.written (visits : Code.Visits bound code machine code' reached) :
    (⟨code', reached⟩ : Occasion) = ⟨code, machine⟩ ∨
      code'.Written (fun form before => Code.Visits bound code machine (.expr form) before)
        reached := by
  induction visits with
  | here => exact .inl rfl
  | @inner bound _ kind' kind'' code first code'' machine middle final visits onward ih =>
    right
    have wider : ∀ form before, Code.Visits bound first middle (.expr form) before →
        Code.Visits (bound + 1) code machine (.expr form) before :=
      fun _ _ comes => .inner visits comes
    rcases ih with same | written
    · obtain ⟨rfl, sameCode, rfl⟩ := Occasion.mk.inj same
      obtain rfl := eq_of_heq sameCode
      refine written_of_visits visits fun form here => ?_
      obtain ⟨rfl, same, -⟩ := Occasion.mk.inj here
      exact eq_of_heq same ▸ .here
    · exact written.mono wider

end Code

end EventScript
