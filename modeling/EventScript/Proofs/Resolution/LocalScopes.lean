import EventScript.Proofs.Evaluation.Declaring
import EventScript.Proofs.Evaluation.Record
import EventScript.Proofs.Resolution.ControlFlow
import EventScript.Proofs.Syntax.Branches

/-!
# Scopes at run time and in the check

The check of a program carries the names declared so far in the innermost local scope. Where the
program runs there is a scope on the heap for each of them: one for every run of a block, and one
for every call of a function, which holds its parameters too. So wherever statements of an accepted
program run in a scope that is not the global one, the scope binds at most the names that the check
has declared there, and the object of a method (`scopeContract_meets`).
-/

namespace EventScript

open Run Plan

/-- The program was read from a text and accepted. -/
def Program.IsAccepted (program : Program) : Prop := ∃ source, Program.accept source = .ok program

/-! ## Accepted code -/

/-- No branch in the statement is a declaration, and nothing in it binds `this`. -/
structure Stmt.Neat (form : Stmt) : Prop where
  tidy : form.Tidy
  spares : form.Spares "this"

/-- The parts of a statement that is neat are. -/
theorem Stmt.Neat.part {form part : Stmt} (neat : form.Neat) (member : part ∈ form.parts) :
    part.Neat := ⟨neat.tidy.part member, neat.spares.part member⟩

/-- All that stands in an accepted program is neat. -/
theorem Stmt.Stems.neat {form : Stmt} (stems : form.Stems Program.IsAccepted) : form.Neat := by
  obtain ⟨program, ⟨source, accepted⟩, encloses⟩ := stems
  induction encloses with
  | top member =>
    exact ⟨Program.tidy_of_ofText (Program.accept_iff.mp accepted).1 _ member,
      Program.spares_this accepted _ member⟩
  | part _ member ih => exact ih.part member
  | body _ declared member ih =>
    exact ⟨ih.tidy.body declared member, (ih.spares.function declared).body _ member⟩

/-- Accepted programs break no rule. -/
theorem Stmt.Stems.keepsRules {form : Stmt} (stems : form.Stems Program.IsAccepted) :
    form.Stems Program.KeepsRules := by
  obtain ⟨program, ⟨source, accepted⟩, encloses⟩ := stems
  exact ⟨program, (Program.accept_iff.mp accepted).2, encloses⟩

/-- What the check needs to know of a function: that it breaks no rule somewhere, and that it is
neat. -/
structure FunctionDecl.Neat (decl : FunctionDecl) : Prop where
  clear : ∃ context, decl.check context = []
  parameters : ∀ parameter ∈ decl.parameters, parameter.name ≠ "this"
  body : ∀ form ∈ decl.body, form.Neat

/-- Functions and methods of accepted programs are neat. -/
theorem Activation.Stems.neat {called : Activation} (stems : called.Stems Program.IsAccepted) :
    called.decl.Neat := by
  cases stems with
  | closure decl home =>
    have body := decl.body
    obtain ⟨span, stands⟩ := decl
    obtain ⟨context, clear⟩ := FunctionDecl.IsFunction.clear ⟨span, stands.keepsRules⟩
    exact ⟨⟨_, clear⟩, (stands.neat.spares.function List.mem_cons_self).parameters,
      fun form member => (body form member).neat⟩
  | method receives owner decl =>
    have body := decl.body
    obtain ⟨span, name, superclass, methods, stands, declared⟩ := decl
    obtain ⟨context, clear⟩ :=
      FunctionDecl.IsMethod.clear ⟨span, name, superclass, methods, stands.keepsRules, declared⟩
    exact ⟨⟨_, clear⟩, (stands.neat.spares.function declared).parameters,
      fun form member => (body form member).neat⟩

/-! ## What the check declares -/

/-- After the parameters the scope has their names. -/
theorem declareParameters_names (parameters : List Parameter) (names : List String) :
    (declareParameters (some names) parameters).1 =
      some ((parameters.map Parameter.name).reverse ++ names) := by
  induction parameters generalizing names with
  | nil => rfl
  | cons first rest ih =>
    refine (ih (first.name :: names)).trans ?_
    rw [List.map_cons, List.reverse_cons, List.append_assoc]
    rfl

/-- A name is declared without a violation only if the scope does not have it. -/
theorem LocalScope.not_mem_of_declare {names : List String} {name : String} {span : Span}
    (clear : (LocalScope.declare (some names) name span).2 = []) : name ∉ names := by
  intro member
  simp [LocalScope.declare, member] at clear

/-- Parameters without violations have different names. -/
theorem nodup_of_declareParameters {parameters : List Parameter} {names : List String}
    (clear : (declareParameters (some names) parameters).2 = []) :
    (parameters.map Parameter.name).Nodup ∧ ∀ parameter ∈ parameters, parameter.name ∉ names := by
  induction parameters generalizing names with
  | nil => exact ⟨List.nodup_nil, nofun⟩
  | cons first rest ih =>
    obtain ⟨firstClear, restClear⟩ := List.append_eq_nil_iff.mp clear
    obtain ⟨nodup, absent⟩ := ih restClear
    have new := LocalScope.not_mem_of_declare firstClear
    refine ⟨List.nodup_cons.mpr ⟨fun member => ?_, nodup⟩, List.forall_mem_cons.mpr ⟨new, ?_⟩⟩
    · obtain ⟨other, inRest, same⟩ := List.mem_map.mp member
      exact absent other inRest (same ▸ List.mem_cons_self)
    · exact fun other inRest inNames => absent other inRest (List.mem_cons_of_mem _ inNames)

/-! ## Code in scopes -/

/-- The names that the code declares in the scope where it runs. -/
def Code.Declares : {kind : ResultKind} → Code kind → String → Prop
  | _, .stmt form, name => form.declared? = some name
  | _, .stmts forms, name => ∃ form ∈ forms, form.declared? = some name
  | _, _, _ => False

/-- All statements of the code are neat, and the body of a loop declares nothing. -/
def Code.Neat : {kind : ResultKind} → Code kind → Prop
  | _, .stmt form => form.Neat
  | _, .stmts forms => ∀ form ∈ forms, form.Neat
  | _, .loop _ body => body.Neat ∧ body.declared? = none
  | _, _ => True

/-- Checks the code in a scope. -/
def Code.check (context : CodeContext) (scope : LocalScope) : Code .flow → List Diagnostic
  | .stmt form => (form.check context scope).2
  | .stmts forms => (checkAll context scope forms).2
  | .loop _ body => (body.check { context with inLoop := true } scope).2

/-- The code runs in the global scope, or in one that binds at most the names that the local scope
has and `this`. -/
def Machine.Matches (globals : Nat) (machine : Machine) (scope : LocalScope) : Prop :=
  machine.scope = globals ∨
    ∃ names ∈ scope, machine.scope < machine.heap.scopes.size ∧
      ∀ name, machine.heap.binds machine.scope name = true → name ∈ names ∨ name = "this"

/-- Code made of statements is neat, and breaks no rule in the scope where it runs. -/
def Code.Placed (globals : Nat) : {kind : ResultKind} → Code kind → Machine → Prop
  | .flow, code, machine =>
    code.Neat ∧ ∃ context scope, code.check context scope = [] ∧ machine.Matches globals scope
  | .value, _, _ | .values, _, _ => True

/-- Where the outcome leaves a machine, only the added names are new. -/
def Outcome.AddsOnly {α : Type} (added : String → Prop) (machine : Machine) : Outcome α → Prop
  | .done _ later => machine.AddsOnly added later
  | _ => True

/-- Code runs in its scope and adds to it the names that it declares. -/
def scopeContract (globals : Nat) : Contract where
  before code machine := code.Placed globals machine
  after code machine outcome := outcome.AddsOnly code.Declares machine
  exhausted _ _ := trivial

variable {globals : Nat} {machine later start : Machine} {added : String → Prop}

/-- A scope stays what it is while no names are added. -/
theorem Machine.Matches.stays {scope : LocalScope} (same : machine.Matches globals scope)
    (adds : machine.AddsNothing later) : later.Matches globals scope := by
  rcases same with outermost | ⟨names, isLocal, inside, bound⟩
  · exact .inl (adds.scope.trans outermost)
  · refine .inr ⟨names, isLocal, adds.scope ▸ Nat.lt_of_lt_of_le inside adds.size,
      fun name has => ?_⟩
    rw [adds.scope] at has
    rcases adds.bound inside has with early | ⟨-, absurd⟩
    · exact bound name early
    · exact absurd.elim

/-- After a statement the scope has the name that it declares. -/
theorem Machine.Matches.after {scope : LocalScope} {form : Stmt}
    (same : machine.Matches globals scope)
    (tidy : form.Tidy) (adds : machine.AddsOnly (Code.stmt form).Declares later)
    (context : CodeContext) : later.Matches globals (form.check context scope).1 := by
  rcases same with outermost | ⟨names, isLocal, inside, bound⟩
  · exact .inl (adds.scope.trans outermost)
  · obtain rfl := isLocal
    refine .inr ⟨_, tidy.check_names context names,
      adds.scope ▸ Nat.lt_of_lt_of_le inside adds.size,
      fun name has => ?_⟩
    rw [adds.scope] at has
    rcases adds.bound inside has with early | ⟨-, declared⟩
    · exact (bound name early).imp_left (List.mem_append_right _)
    · exact .inl (List.mem_append_left _ (Option.mem_toList.mpr declared))

/-- A new scope binds nothing. -/
theorem Machine.matches_newScope (machine : Machine) :
    Machine.Matches globals
      { machine with
        heap := (machine.heap.newScope (some machine.scope)).2
        scope := (machine.heap.newScope (some machine.scope)).1 } (some []) := by
  refine .inr ⟨[], rfl, ?_, fun name has => ?_⟩
  · exact Nat.lt_of_lt_of_eq (Nat.lt_succ_self _) (Store.size_alloc ..).symm
  · exact absurd rfl (Heap.binds_of_newScope has).2

/-- Only statements declare names. -/
theorem Code.not_declares {kind : ResultKind} {code : Code kind} (unflowing : kind ≠ .flow)
    (name : String) : ¬code.Declares name := by
  cases code with
  | stmt | stmts | loop => contradiction
  | _ => exact id

section Rules

variable {α : Type}

/-- A plan may end where it has added only what it may. -/
theorem meets_give {value : α} (adds : start.AddsOnly added machine) :
    (give value).Meets (scopeContract globals) (Outcome.AddsOnly added start) machine := adds

/-- A plan may go on after a step. -/
theorem meets_perform {β : Type} {run : Run β} {next : β → Plan α}
    (onward : ∀ value later, run machine = .done value later →
      (next value).Meets (scopeContract globals) (Outcome.AddsOnly added start) later) :
    (perform run next).Meets (scopeContract globals) (Outcome.AddsOnly added start) machine := by
  unfold Plan.Meets
  cases done : run machine with
  | done value later => exact onward value later done
  | failed | exhausted => trivial

/-- A plan may go on after inner code that runs where it may. -/
theorem meets_visit {kind : ResultKind} {setting : Setting} {code : Code kind}
    {next : kind.Result → Plan α} (placed : code.Placed globals (setting.enter machine))
    (onward : ∀ result later, (setting.enter machine).AddsOnly code.Declares later →
      (next result).Meets (scopeContract globals) (Outcome.AddsOnly added start)
        (setting.leave machine later)) :
    (visit setting code next).Meets (scopeContract globals) (Outcome.AddsOnly added start)
      machine := by
  refine ⟨placed, fun outcome after => ?_⟩
  cases outcome with
  | done result later => exact onward result later after
  | failed | exhausted => trivial

/-- A plan may go on after an expression, which adds no names. -/
theorem meets_expr {form : Expr} {next : Value → Plan α}
    (onward : ∀ value later, machine.AddsNothing later →
      (next value).Meets (scopeContract globals) (Outcome.AddsOnly added start) later) :
    (visit .here (.expr form) next).Meets (scopeContract globals) (Outcome.AddsOnly added start)
      machine :=
  meets_visit trivial onward

/-- A plan whose steps are quiet, and which runs no statements, adds no names. -/
theorem meets_of_quiet {plan : Plan α} (quiet : plan.Quiet)
    (comes : plan.Comes fun setting {inner} _ => inner ≠ .flow ∧ setting.stays = true)
    (adds : start.AddsOnly added machine) :
    plan.Meets (scopeContract globals) (Outcome.AddsOnly added start) machine := by
  induction plan generalizing machine with
  | give value => exact meets_give adds
  | perform run next ih =>
    exact meets_perform fun value later done =>
      ih value (quiet.2 value) (comes value) (adds.trans (quiet.1 done).addsOnly)
  | @visit kind setting code next ih =>
    obtain ⟨⟨unflowing, stays⟩, further⟩ := comes
    have placed : code.Placed globals (setting.enter machine) := by
      cases kind with
      | flow => contradiction
      | value | values => trivial
    refine meets_visit placed fun result later more => ih result (quiet result) (further result) ?_
    have nothing : (setting.enter machine).AddsNothing later :=
      more.mono fun name declared => absurd declared (Code.not_declares unflowing name)
    cases setting with
    | here | «at» => exact adds.trans nothing.addsOnly
    | inScope | inCall => contradiction

end Rules

/-- A plan may end with the declaration of a variable. -/
theorem meets_declare {name : String} {value : Value} (adds : start.AddsNothing machine) :
    (perform (declare name value) fun _ => give Flow.next).Meets (scopeContract globals)
      (Outcome.AddsOnly (some name = some ·) start) machine := by
  refine meets_perform fun _ later declared => ?_
  obtain ⟨-, rfl⟩ := Outcome.done.inj declared
  have new := machine.addsOnly_declare name value
  exact meets_give (adds.addsOnly.trans (new.mono fun _ same => congrArg some same.symm))

/-- A plan may become statements that run in the same scope and declare nothing. -/
theorem meets_branch {code : Code .flow} (adds : start.AddsNothing machine)
    (placed : code.Placed globals machine) (bare : ∀ name, ¬code.Declares name) :
    (become code).Meets (scopeContract globals) (Outcome.AddsOnly added start) machine :=
  meets_visit placed fun _ _ more => meets_give <| adds.addsOnly.trans <|
    more.mono fun name declared => absurd declared (bare name)

/-- A statement runs its parts where they may run, and declares what it declares. -/
theorem Stmt.meets_scopes {form : Stmt} (placed : (Code.stmt form).Placed globals machine) :
    form.plan.Meets (scopeContract globals)
      (Outcome.AddsOnly (Code.stmt form).Declares machine) machine := by
  have neat : form.Neat := placed.1
  have same : machine.AddsNothing machine := machine.addsOnly_refl
  cases form with
  | letDecl span name initializer =>
    cases initializer with
    | none => exact meets_declare same
    | some value => exact meets_expr fun _ _ nothing => meets_declare nothing
  | function span decl =>
    apply meets_perform
    intro function later closed
    exact meets_declare ((close_neverAdds decl).quiet closed)
  | classDecl span name superclass methods =>
    apply meets_perform
    intro parent later resolved
    apply meets_perform
    intro cls last made
    have before := (resolveSuperclass_keeps superclass).quiet resolved
    have adds := (makeClass_neverAdds name parent methods).quiet made
    exact meets_declare (before.trans adds)
  | expression => exact meets_expr fun _ _ nothing => meets_give nothing.addsOnly
  | print span value =>
    apply meets_expr
    intro value _ nothing
    apply meets_perform
    intro _ last printed
    have both : machine.AddsNothing last := nothing.trans ((printValue_keeps value).quiet printed)
    exact meets_give both.addsOnly
  | block span body =>
    apply meets_perform
    intro scope later entered
    obtain ⟨rfl, rfl⟩ := Outcome.done.inj entered
    obtain ⟨-, context, outer, clear, -⟩ := placed
    have parts : ∀ form ∈ body, form.Neat := fun form member => neat.part member
    refine meets_visit ⟨parts, context, some [], clear, machine.matches_newScope⟩ ?_
    intro _ last adds
    have enters := machine.addsNothing_newScope (some machine.scope)
    apply meets_give
    apply Machine.AddsNothing.addsOnly
    exact adds.inNewScope enters rfl (Nat.le_refl _) rfl rfl
  | conditional span condition thenBranch elseBranch =>
    obtain ⟨-, context, scope, clear, same⟩ := placed
    obtain ⟨-, thenClear, elseClear⟩ := conditional_clear.mp clear
    apply meets_expr
    intro value later nothing
    have still := same.stays nothing
    have thenMember : thenBranch ∈ thenBranch :: elseBranch.toList := List.mem_cons_self
    have thenBare := neat.tidy.branch thenMember
    split
    · refine meets_branch nothing ⟨neat.part thenMember, context, scope, thenClear, still⟩ ?_
      exact fun name declared => nomatch thenBare.symm.trans declared
    · cases elseBranch with
      | none => exact meets_give nothing.addsOnly
      | some branch =>
        have member : branch ∈ [thenBranch, branch] := List.mem_cons_of_mem _ List.mem_cons_self
        -- The first branch declares nothing, so the other one is checked in the same scope.
        have unchanged := (neat.part thenMember).tidy.check_scope thenBare context scope
        have elseClear := elseClear branch rfl
        rw [unchanged] at elseClear
        refine meets_branch nothing ⟨neat.part member, context, scope, elseClear, still⟩ ?_
        exact fun name declared => nomatch (neat.tidy.branch member).symm.trans declared
  | «while» span condition body =>
    obtain ⟨-, context, scope, clear, same⟩ := placed
    have member : body ∈ [body] := List.mem_cons_self
    obtain ⟨-, bodyClear⟩ := List.append_eq_nil_iff.mp clear
    have placed : (Code.loop condition body).Placed globals machine :=
      ⟨⟨neat.part member, neat.tidy.branch member⟩, context, scope, bodyClear, same⟩
    exact meets_branch machine.addsOnly_refl placed fun _ => id
  | «return» span value =>
    cases value with
    | none => exact meets_give same.addsOnly
    | some value => exact meets_expr fun _ _ nothing => meets_give nothing.addsOnly
  | «break» => exact meets_give same.addsOnly

/-- Statements in a row each run in the scope that has the names of those before. -/
theorem Code.stmts_meets_scopes {forms : List Stmt}
    (placed : (Code.stmts forms).Placed globals machine) :
    (Code.stmts forms).plan.Meets (scopeContract globals)
      (Outcome.AddsOnly (Code.stmts forms).Declares machine) machine := by
  cases forms with
  | nil => exact meets_give machine.addsOnly_refl
  | cons first rest =>
    obtain ⟨neat, context, scope, clear, same⟩ := placed
    obtain ⟨firstClear, restClear⟩ := List.append_eq_nil_iff.mp clear
    have firstNeat : first.Neat := neat first List.mem_cons_self
    refine meets_visit ⟨firstNeat, context, scope, firstClear, same⟩ fun flow later adds => ?_
    have here : machine.AddsOnly (Code.stmts (first :: rest)).Declares later :=
      adds.mono fun name declared => ⟨first, List.mem_cons_self, declared⟩
    cases flow with
    | returned | broke => exact meets_give here
    | next =>
      have others : ∀ form ∈ rest, form.Neat := fun form member =>
        neat form (List.mem_cons_of_mem _ member)
      have after := same.after firstNeat.tidy adds context
      refine meets_visit ⟨others, context, _, restClear, after⟩ ?_
      intro _ last more
      apply meets_give
      apply here.trans
      apply more.mono
      rintro name ⟨form, member, declared⟩
      exact ⟨form, List.mem_cons_of_mem _ member, declared⟩

/-- The rounds of a loop run in the same scope, and add nothing to it. -/
theorem Code.loop_meets_scopes {condition : Expr} {body : Stmt}
    (placed : (Code.loop condition body).Placed globals machine) :
    (Code.loop condition body).plan.Meets (scopeContract globals)
      (Outcome.AddsOnly (Code.loop condition body).Declares machine) machine := by
  have placed' := placed
  obtain ⟨⟨neat, bare⟩, context, scope, clear, same⟩ := placed'
  have declares : ∀ name, ¬(Code.stmt body).Declares name := fun name declared =>
    nomatch bare.symm.trans declared
  refine meets_expr fun value later nothing => ?_
  split
  · refine meets_visit ⟨neat, { context with inLoop := true }, scope, clear, same.stays nothing⟩
      fun flow last adds => ?_
    have round : machine.AddsNothing last :=
      nothing.trans (adds.mono fun name declared => absurd declared (declares name))
    cases flow with
    | next =>
      exact meets_branch round ⟨⟨neat, bare⟩, context, scope, clear, same.stays round⟩ fun _ => id
    | returned | broke => exact meets_give round.addsOnly
  · exact meets_give nothing.addsOnly

/-- A body starts with bindings of its parameters and of `this`. -/
theorem Activation.name_of_mem_bindings {called : Activation} {arguments : List Value}
    {binding : String × Value} (member : binding ∈ called.bindings arguments) :
    binding.1 ∈ called.decl.parameters.map Parameter.name ∨ binding.1 = "this" := by
  unfold bindings at member
  cases present : called.receiver with
  | none =>
    simp only [present] at member
    exact .inl (List.of_mem_zip member).1
  | some receiver =>
    simp only [present] at member
    rcases List.mem_cons.mp member with rfl | parameter
    · exact .inr rfl
    · exact .inl (List.of_mem_zip parameter).1

/-- The scope of a body binds its parameters and `this` at most. -/
theorem Activation.matches_start {called : Activation} (arguments : List Value) (machine : Machine)
    {names : List String} (parameters : called.decl.parameters.map Parameter.name ⊆ names)
    (frames : List Frame) :
    Machine.Matches globals
      { machine with
        heap := (called.start arguments machine.heap).2
        scope := (called.start arguments machine.heap).1
        frames } (some names) := by
  refine .inr ⟨names, rfl, ?_, ?_⟩
  · have grown : (called.start arguments machine.heap).2.scopes.size =
        machine.heap.scopes.size + 1 :=
      (Heap.size_defineAll ..).trans (Store.size_alloc ..)
    rw [grown]
    exact Nat.lt_succ_self _
  · intro name has
    rcases Heap.binds_of_defineAll has with early | ⟨-, binding, member, rfl⟩
    · obtain ⟨-, other⟩ := Heap.binds_of_newScope early
      exact absurd rfl other
    · exact (name_of_mem_bindings member).imp_left fun parameter => parameters parameter

/-- The body of an activation runs in a scope of its own. -/
theorem Code.activation_meets_scopes {called : Activation} {arguments : List Value}
    (neat : called.decl.Neat) :
    (Code.activation called arguments).plan.Meets (scopeContract globals)
      (Outcome.AddsOnly (Code.activation called arguments).Declares machine) machine := by
  obtain ⟨⟨context, clear⟩, -, body⟩ := neat
  apply meets_perform
  intro _ later checked
  apply meets_perform
  intro scope inside entered
  obtain rfl := Discipline.Lawful.checkCall_done checked
  obtain ⟨rfl, rfl⟩ := Outcome.done.inj entered
  obtain ⟨-, clearBody⟩ := FunctionDecl.clear_iff.mp clear
  rw [declareParameters_names] at clearBody
  have names : called.decl.parameters.map Parameter.name ⊆
      (called.decl.parameters.map Parameter.name).reverse ++ [] := fun name member =>
    List.mem_append_left _ (List.mem_reverse.mpr member)
  refine meets_visit ⟨body, context, _, clearBody, ?_⟩ ?_
  · exact Activation.matches_start arguments later names _
  intro _ last adds
  have enters := Machine.addsNothing_start later called arguments
  apply meets_give
  apply Machine.AddsNothing.addsOnly
  exact adds.inNewScope enters rfl (Nat.le_refl _) rfl rfl

/-- All code of accepted programs runs where its scope matches the one of the check. -/
theorem scopeContract_validOn (globals : Nat) (record : List Occasion) :
    ((stemDiscipline Program.IsAccepted).contract.and (scopeContract globals)).ValidOn record := by
  intro kind code machine _ before
  obtain ⟨stems, placed⟩ := before
  refine ((stemDiscipline_lawful _).meets code machine trivial stems).and ?_
  cases code with
  | stmt form => exact Stmt.meets_scopes placed
  | stmts forms => exact Code.stmts_meets_scopes placed
  | loop condition body => exact Code.loop_meets_scopes placed
  | activation called arguments => exact Code.activation_meets_scopes stems.2.1.neat
  | expr | exprs | call | instantiation =>
    exact meets_of_quiet (Code.plan_quiet nofun rfl) (Code.plan_comes_unflowing nofun rfl)
      machine.addsOnly_refl

end EventScript
