import EventScript.Proofs.Evaluation.Assignment
import EventScript.Proofs.Evaluation.Builtins
import EventScript.Proofs.Evaluation.Record

/-!
# The tree of scopes

A step of the evaluator may add scopes, each inside another one, and leaves all others inside the
scopes that they are in (`Heap.Sprouts`). So does all evaluation, up to wherever it comes to code
and to its end (`Code.Visits.sprouts`, `Code.sprouts`). In particular a tree of scopes with one root
goes on having just this root (`Heap.Roots.sprouts`).
-/

namespace EventScript

open Run Plan

namespace Heap

variable {before after : Heap}

/-- The scopes that there are stay inside the same ones, and each new scope is inside some scope. -/
structure Sprouts (before after : Heap) : Prop where
  size_le : before.scopes.size ≤ after.scopes.size
  kept : ∀ scope < before.scopes.size, after.parent? scope = before.parent? scope
  inside : ∀ scope, before.scopes.size ≤ scope → scope < after.scopes.size →
    after.parent? scope ≠ none

/-- All scopes but this one are inside others. -/
def Roots (heap : Heap) (root : Nat) : Prop :=
  ∀ scope < heap.scopes.size, heap.parent? scope = none → scope = root

/-- As long as the same scopes are around each scope, the tree is the same. -/
theorem Sprouts.of_parents (size : after.scopes.size = before.scopes.size)
    (same : ∀ scope, after.parent? scope = before.parent? scope) : before.Sprouts after where
  size_le := Nat.le_of_eq size.symm
  kept scope _ := same scope
  inside _ outside inside := absurd inside (Nat.not_lt.mpr (size ▸ outside))

/-- A heap with the same scopes has the same tree. -/
theorem Sprouts.of_same (scopes : after.scopes = before.scopes) : before.Sprouts after :=
  .of_parents (congrArg Store.size scopes) fun scope => by
    unfold parent?
    rw [scopes]

/-- A heap that nothing happens to has the same tree. -/
theorem sprouts_refl (heap : Heap) : heap.Sprouts heap := .of_same rfl

/-- A tree that is added to twice is added to. -/
theorem Sprouts.trans {later : Heap} (first : before.Sprouts after) (second : after.Sprouts later) :
    before.Sprouts later where
  size_le := Nat.le_trans first.size_le second.size_le
  kept scope early := (second.kept scope (Nat.lt_of_lt_of_le early first.size_le)).trans
    (first.kept scope early)
  inside scope late there := by
    by_cases early : scope < after.scopes.size
    · rw [second.kept scope early]
      exact first.inside scope late early
    · exact second.inside scope (Nat.not_lt.mp early) there

/-- Binding a name leaves the tree as it is. -/
theorem sprouts_define (heap : Heap) (scope : Nat) (name : String) (value : Value) :
    heap.Sprouts (heap.define scope name value) :=
  .of_parents (Store.size_modify ..) fun _ => parent?_define ..

/-- A new scope is added to the tree. -/
theorem sprouts_newScope (heap : Heap) (around : Nat) :
    heap.Sprouts (heap.newScope (some around)).2 where
  size_le := (heap.grows_newScope _).scopes.size_le
  kept scope early := by rw [parent?_newScope, if_neg (Nat.ne_of_lt early)]
  inside scope late there := by
    have newest : scope < heap.scopes.size + 1 := Nat.lt_of_lt_of_eq there (Store.size_alloc ..)
    rw [parent?_newScope, if_pos (by omega)]
    exact Option.some_ne_none _

/-- Binding several names leaves the tree as it is. -/
theorem sprouts_defineAll (heap : Heap) (scope : Nat) (bindings : List (String × Value)) :
    heap.Sprouts (heap.defineAll scope bindings) := by
  induction bindings generalizing heap with
  | nil => exact heap.sprouts_refl
  | cons first rest ih => exact (heap.sprouts_define scope first.1 first.2).trans (ih _)

/-- The root of the tree stays the only one. -/
theorem Roots.sprouts {root : Nat} (roots : before.Roots root) (sprouts : before.Sprouts after) :
    after.Roots root := by
  intro scope there alone
  by_cases early : scope < before.scopes.size
  · exact roots scope early (sprouts.kept scope early ▸ alone)
  · exact absurd alone (sprouts.inside scope (Nat.not_lt.mp early) there)

end Heap

/-- The body of a function starts in a new scope. -/
theorem Activation.sprouts_start (activation : Activation) (arguments : List Value) (heap : Heap) :
    heap.Sprouts (activation.start arguments heap).2 :=
  (heap.sprouts_newScope activation.scope).trans (Heap.sprouts_defineAll _ _ _)

/-- What keeps a property of values leaves the scopes as they are. -/
theorem Outcome.Keeps.leaves {α : Type} {property : Value → Prop} {good : α → Prop}
    {outcome : Outcome α} {machine : Machine} (keeps : outcome.Keeps property good machine) :
    outcome.Leaves machine.KeepsScopes := by
  cases outcome with
  | exhausted => trivial
  | failed diagnostic later => exact keeps.2
  | done value later => exact keeps.2.1

/-- Nothing is asked of plain data. -/
theorem Value.plain_true : Value.Plain fun _ => True := fun _ _ => trivial

namespace Run

variable {α : Type}

/-- However the computation ends, it has added to the tree of scopes at most. -/
def Sprouts (run : Run α) : Prop :=
  ∀ machine, (run machine).Leaves fun later => machine.heap.Sprouts later.heap

/-- What leaves the scopes as they are adds none. -/
theorem Keeps.sprouts {run : Run α} {good : α → Prop} (keeps : run.Keeps (fun _ => True) good) :
    run.Sprouts := by
  intro machine
  have kept := (keeps machine (Machine.all_of_forall (fun _ => trivial) machine)).leaves
  exact kept.imp fun _ kept => .of_same kept.heap.scopes

/-- Assigning to a variable adds to the tree of scopes at most. -/
theorem assignVariable_sprouts (span : Span) (name : String) (value : Value) :
    (assignVariable span name value).Sprouts := by
  intro machine
  unfold assignVariable
  cases machine.heap.binder? machine.scope name with
  | none => exact machine.heap.sprouts_refl
  | some binder => exact machine.heap.sprouts_define binder name value

/-- Binding a name adds to the tree of scopes at most. -/
theorem declare_sprouts (name : String) (value : Value) : (declare name value).Sprouts :=
  fun machine => machine.heap.sprouts_define machine.scope name value

/-- Opening the scope of a block adds to the tree of scopes at most. -/
theorem blockScope_sprouts : blockScope.Sprouts :=
  fun machine => machine.heap.sprouts_newScope machine.scope

/-- Opening the scope of a body adds to the tree of scopes at most. -/
theorem bodyScope_sprouts (activation : Activation) (arguments : List Value) :
    (bodyScope activation arguments).Sprouts :=
  fun machine => activation.sprouts_start arguments machine.heap

end Run

/-- Every step of the plan adds to the tree of scopes at most. -/
def Plan.Sprouts {α : Type} : Plan α → Prop
  | give _ => True
  | perform run next => run.Sprouts ∧ ∀ value, (next value).Sprouts
  | visit _ _ next => ∀ result, (next result).Sprouts

/-- A plan of one last step that keeps all scopes adds nothing to the tree. -/
theorem Plan.sprouts_last {α : Type} {run : Run α}
    (keeps : run.Keeps (fun _ => True) fun _ => True) : (last run).Sprouts :=
  ⟨keeps.sprouts, fun _ => trivial⟩

/-- A plan that binds a name adds nothing to the tree. -/
theorem Plan.sprouts_declare (name : String) (value : Value) :
    (perform (declare name value) fun _ => give Flow.next).Sprouts :=
  ⟨declare_sprouts name value, fun _ => trivial⟩

/-- The plan of an expression adds to the tree of scopes at most. -/
theorem Expr.plan_sprouts (form : Expr) : form.plan.Sprouts := by
  cases form with
  | literal span value => exact sprouts_last (literal_keeps Value.plain_true value)
  | «variable» span name => exact sprouts_last (readVariable_keeps span name)
  | this span => exact sprouts_last (readVariable_keeps span "this")
  | super span name =>
    exact sprouts_last fun _ all => superMethod_keeps all span name fun _ _ _ _ => trivial
  | group => exact fun _ => trivial
  | assign span name value =>
    exact fun value => ⟨assignVariable_sprouts span name value, fun _ => trivial⟩
  | binary span op left right =>
    exact fun left right =>
      sprouts_last ((binary_keeps Value.plain_true op left right).withSpan span)
  | logical span op left right =>
    intro left
    dsimp only
    split
    · trivial
    · exact fun _ => trivial
  | unary span op operand =>
    exact fun operand => sprouts_last (unary_keeps Value.plain_true span op operand)
  | call => exact fun _ _ _ => trivial
  | get span object name =>
    intro object
    have keeps : Keeps (fun _ => True) (fun _ => True) (property object name) := fun _ all =>
      property_keeps all object name (fun _ _ _ => trivial) fun _ _ _ _ => trivial
    exact sprouts_last (keeps.mapFailure _)
  | set span object name value =>
    intro object
    cases object with
    | object ref =>
      intro value
      have keeps : Run.Keeps (fun _ => True) (fun _ => True)
          (modifyHeap fun heap => heap.setField ref name value) := setField_keeps ref name trivial
      exact ⟨keeps.sprouts, fun _ => trivial⟩
    | _ => exact sprouts_last (.faultAt _ _)

/-- The plan of a statement adds to the tree of scopes at most. -/
theorem Stmt.plan_sprouts (form : Stmt) : form.plan.Sprouts := by
  cases form with
  | letDecl span name initializer =>
    cases initializer with
    | none => exact sprouts_declare name .nil
    | some value => exact fun value => sprouts_declare name value
  | function span decl =>
    have keeps : Keeps (fun _ => True) _ (close decl) :=
      fun _ all => close_keeps all fun _ => trivial
    exact ⟨keeps.sprouts, fun function => sprouts_declare decl.name function⟩
  | classDecl span name superclass methods =>
    refine ⟨(resolveSuperclass_keeps superclass).sprouts, fun parent => ?_⟩
    have keeps : Keeps (fun _ => True) _ (makeClass name parent methods) := fun _ all =>
      makeClass_keeps all fun _ => trivial
    exact ⟨keeps.sprouts, fun cls => sprouts_declare name cls⟩
  | expression | «while» => exact fun _ => trivial
  | print span value => exact fun value => ⟨(printValue_keeps value).sprouts, fun _ => trivial⟩
  | block span body => exact ⟨blockScope_sprouts, fun _ _ => trivial⟩
  | conditional span condition thenBranch elseBranch =>
    intro value
    dsimp only
    split
    · exact fun _ => trivial
    · cases elseBranch with
      | none => trivial
      | some branch => exact fun _ => trivial
  | «return» span value =>
    cases value with
    | none => trivial
    | some value => exact fun _ => trivial
  | «break» => trivial

/-- The plan of a call adds to the tree of scopes at most. -/
theorem Value.callPlan_sprouts (callee : Value) (arguments : List Value) (span : Span) :
    (callee.callPlan arguments span).Sprouts := by
  cases callee with
  | function | method | classObject => exact fun _ => trivial
  | builtin identity builtin receiver =>
    exact sprouts_last (builtin.call_keeps Value.plain_true receiver (fun _ _ => trivial) span)
  | _ => exact sprouts_last (.fault _)

/-- The plan of an instantiation adds to the tree of scopes at most. -/
theorem Class.plan_sprouts (cls : Class) (arguments : List Value) :
    (cls.plan arguments).Sprouts := by
  unfold Class.plan
  split
  · exact sprouts_last (.fault _)
  · refine ⟨(newInstance_keeps Value.plain_true trivial).sprouts, fun object => ?_⟩
    cases cls.findMethod? FunctionDecl.initializerName with
    | none => trivial
    | some method => exact fun _ => trivial

/-- The plan of an activation adds to the tree of scopes at most. -/
theorem Activation.plan_sprouts (called : Activation) (arguments : List Value) :
    (called.plan arguments).Sprouts :=
  ⟨(checkCall_keeps called.decl arguments.length).sprouts, fun _ =>
    ⟨bodyScope_sprouts called arguments, fun _ _ => trivial⟩⟩

/-- Whatever is run, its own steps add to the tree of scopes at most. -/
theorem Code.plan_sprouts {kind : ResultKind} (code : Code kind) : code.plan.Sprouts := by
  cases code with
  | expr form => exact form.plan_sprouts
  | exprs forms =>
    cases forms with
    | nil => trivial
    | cons first rest => exact fun _ _ => trivial
  | stmt form => exact form.plan_sprouts
  | stmts forms =>
    cases forms with
    | nil => trivial
    | cons first rest =>
      intro ending
      cases ending with
      | next => exact fun _ => trivial
      | returned | broke => trivial
  | loop condition body =>
    intro value
    dsimp only
    split
    · intro ending
      cases ending with
      | next => exact fun _ => trivial
      | returned | broke => trivial
    · trivial
  | call callee arguments span => exact callee.callPlan_sprouts arguments span
  | instantiation cls arguments => exact cls.plan_sprouts arguments
  | activation called arguments => exact called.plan_sprouts arguments

/-! ## Evaluation -/

/-- From the start on, the tree of scopes only grows. -/
def sproutContract (start : Heap) : Contract where
  before _ machine := start.Sprouts machine.heap
  after _ _ outcome := outcome.Leaves fun later => start.Sprouts later.heap
  exhausted _ _ := trivial

/-- A setting leaves the heap alone. -/
theorem Setting.heap_enter (setting : Setting) (machine : Machine) :
    (setting.enter machine).heap = machine.heap := by
  cases setting <;> rfl

/-- Leaving inner code leaves the heap. -/
theorem Setting.heap_leave (setting : Setting) (machine later : Machine) :
    (setting.leave machine later).heap = later.heap := by
  cases setting <;> rfl

/-- A plan whose steps add to the tree of scopes at most goes on so if inner code does. -/
theorem Plan.Sprouts.meets {α : Type} {plan : Plan α} {start : Heap} {machine : Machine}
    (sprouts : plan.Sprouts) (sofar : start.Sprouts machine.heap) :
    plan.Meets (sproutContract start) (Outcome.Leaves fun later => start.Sprouts later.heap)
      machine := by
  induction plan generalizing machine with
  | give value => exact sofar
  | perform run next ih =>
    have step := sprouts.1 machine
    unfold Plan.Meets
    cases ended : run machine with
    | exhausted => trivial
    | failed diagnostic later =>
      rw [ended] at step
      exact sofar.trans step
    | done value later =>
      rw [ended] at step
      exact ih value (sprouts.2 value) (sofar.trans step)
  | visit setting code next ih =>
    have entered : start.Sprouts (setting.enter machine).heap := by rwa [setting.heap_enter]
    have back : ∀ later : Machine, start.Sprouts later.heap →
        start.Sprouts (setting.leave machine later).heap := fun later sprouts => by
      rwa [setting.heap_leave]
    refine ⟨entered, fun outcome after => ?_⟩
    cases outcome with
    | exhausted => trivial
    | failed diagnostic later => exact back later after
    | done result later => exact ih result (sprouts result) (back later after)

/-- All code adds to the tree of scopes at most. -/
theorem sproutContract_validOn (start : Heap) (record : List Occasion) :
    (sproutContract start).ValidOn record :=
  fun _ code _ _ sofar => code.plan_sprouts.meets sofar

/-- Evaluation adds to the tree of scopes at most. -/
theorem Code.sprouts (bound : Nat) {kind : ResultKind} (code : Code kind) (machine : Machine) :
    (code.run bound machine).Leaves fun later => machine.heap.Sprouts later.heap :=
  (sproutContract_validOn machine.heap _).keeps (List.Subset.refl _) machine.heap.sprouts_refl

/-- So it does up to where it comes to code. -/
theorem Code.Visits.sprouts {bound : Nat} {kind kind' : ResultKind} {code : Code kind}
    {code' : Code kind'} {machine reached : Machine}
    (visits : Code.Visits bound code machine code' reached) : machine.heap.Sprouts reached.heap :=
  (sproutContract_validOn machine.heap _).visited (List.Subset.refl _)
    machine.heap.sprouts_refl visits

end EventScript
