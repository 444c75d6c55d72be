import EventScript.Proofs.Evaluation.Builtins
import EventScript.Proofs.Evaluation.Trace
import EventScript.Proofs.Evaluation.Visibility
import EventScript.Proofs.Syntax.Parts

/-!
# Disciplines

A `Discipline` says which values are in order on a heap, which code may stand at which place, and
what the code of a place finds around it when it is run. It is kept when evaluation puts only values
in order on the heap and comes only to code that stands somewhere and finds what it needs. Most of
this is the same for all disciplines. `Discipline.Lawful` is what is left to show of a single one:
what it says of the parts of code, of the places where functions, methods and classes are made, and
of the start of a function's body. The contract of a lawful discipline is met by the plans of all
code (`Discipline.Lawful.meets`).
-/

namespace EventScript

/-- What is to be in order while code runs. -/
structure Discipline where
  /-- Where code may stand in a text. -/
  Place : Type
  /-- Whether a value is in order on a heap. -/
  holds : Heap → Value → Prop
  /-- Whether a heap has become another one by changes that are in order. -/
  grows : Heap → Heap → Prop
  /-- Whether an expression may stand at a place. -/
  expr : Place → Expr → Prop
  /-- Whether a statement may stand at a place. -/
  stmt : Place → Stmt → Prop
  /-- Whether the code of a place may be run for a class and in a scope. -/
  around : Place → Heap → Option Class → Nat → Prop
  /-- Whether an activation is in order on a heap. -/
  calls : Heap → Activation → Prop
  /-- Whether code may declare a variable of a name, or assign to it. -/
  names : String → Prop
  /-- Whether some code is run on some machine at all. -/
  occurs : Occasion → Prop

/-- The values that a result gives have a property. -/
def ResultKind.All (property : Value → Prop) : (kind : ResultKind) → kind.Result → Prop
  | .value, given => property given
  | .values, given => ∀ each ∈ given, property each
  | .flow, ending => ∀ given, ending = .returned given → property given

/-- The scope that the body of a function starts in, and the heap that it starts on. -/
def Activation.start (activation : Activation) (arguments : List Value) (heap : Heap) :
    Nat × Heap :=
  let (scope, heap) := heap.newScope (some activation.scope)
  (scope, heap.defineAll scope (activation.bindings arguments))

/-- The start of a body lets the heap grow. -/
theorem Activation.grows_start (activation : Activation) (arguments : List Value) (heap : Heap) :
    heap.Grows (activation.start arguments heap).2 :=
  (heap.grows_newScope _).trans (Heap.grows_defineAll _ _ _)

namespace Discipline

variable (discipline : Discipline)

/-- All values that the machine holds are in order. -/
def Good (machine : Machine) : Prop := machine.All (discipline.holds machine.heap)

/-- The heap changed in order, and the code goes on where it was. -/
structure Evolves (before after : Machine) : Prop where
  heap : discipline.grows before.heap after.heap
  scope : after.scope = before.scope
  frames : after.frames = before.frames

/-- The code of a place may be run where the machine is. -/
def Hosts (machine : Machine) (place : discipline.Place) : Prop :=
  discipline.around place machine.heap machine.home machine.scope

/-- The code may be run on the machine: it stands at a place and finds around it what it needs, and
the values that it is about are in order. -/
def Fits (machine : Machine) {kind : ResultKind} : Code kind → Prop
  | .expr form => ∃ place, discipline.Hosts machine place ∧ discipline.expr place form
  | .exprs forms =>
    ∃ place, discipline.Hosts machine place ∧ ∀ form ∈ forms, discipline.expr place form
  | .stmt form => ∃ place, discipline.Hosts machine place ∧ discipline.stmt place form
  | .stmts forms =>
    ∃ place, discipline.Hosts machine place ∧ ∀ form ∈ forms, discipline.stmt place form
  | .loop condition body =>
    ∃ place, discipline.Hosts machine place ∧ discipline.expr place condition ∧
      discipline.stmt place body
  | .call callee arguments _ =>
    discipline.holds machine.heap callee ∧
      ∀ argument ∈ arguments, discipline.holds machine.heap argument
  | .instantiation cls arguments =>
    discipline.holds machine.heap (.classObject cls) ∧
      ∀ argument ∈ arguments, discipline.holds machine.heap argument
  | .activation called arguments =>
    discipline.calls machine.heap called ∧
      ∀ argument ∈ arguments, discipline.holds machine.heap argument

/-- The outcome leaves a machine in order that evolved from the first one, and gives a result in
order. -/
def Keeps (before : Machine) {kind : ResultKind} : Outcome kind.Result → Prop
  | .done result later =>
    discipline.Good later ∧ discipline.Evolves before later ∧
      kind.All (discipline.holds later.heap) result
  | .failed _ later => discipline.Good later ∧ discipline.Evolves before later
  | .exhausted => True

/-- Code that may be run where the machine is keeps everything in order. -/
def contract : Contract where
  before code machine := discipline.Good machine ∧ discipline.Fits machine code
  after _ machine outcome := discipline.Keeps machine outcome
  exhausted _ _ := trivial

/-- What is left to show of a discipline so that evaluation keeps it. -/
structure Lawful : Prop where
  grows_trans : ∀ {first second third : Heap}, discipline.grows first second →
    discipline.grows second third → discipline.grows first third
  grows_of_keeps : ∀ {before after : Heap}, before.KeepsScopes after → discipline.grows before after
  grows_define : ∀ {name : String} (heap : Heap) (scope : Nat) (value : Value),
    discipline.names name → discipline.grows heap (heap.define scope name value)
  grows_newScope : ∀ (heap : Heap) (parent : Option Nat),
    discipline.grows heap (heap.newScope parent).2
  grows_start : ∀ (activation : Activation) (arguments : List Value) (heap : Heap),
    discipline.grows heap (activation.start arguments heap).2
  holds_grows : ∀ {before after : Heap} {value : Value}, discipline.holds before value →
    discipline.grows before after → discipline.holds after value
  around_grows :
    ∀ {before after : Heap} {place : discipline.Place} {home : Option Class} {scope : Nat},
    discipline.around place before home scope → discipline.grows before after →
    discipline.around place after home scope
  calls_grows : ∀ {before after : Heap} {called : Activation}, discipline.calls before called →
    discipline.grows before after → discipline.calls after called
  plain : ∀ heap, Value.Plain (discipline.holds heap)
  /-- The global functions are in order from the start. -/
  global : ∀ {identity : Nat} {function : Builtin} (heap : Heap),
    Builtin.globals[identity]? = some function →
    discipline.holds heap (.builtin identity function none)
  /-- A method looked up on a string, list or map is in order. -/
  builtin : ∀ {heap : Heap} {owner : Value} {name : String} {function : Builtin} (identity : Nat),
    discipline.holds heap owner → owner.builtinMethod? name = some function →
    discipline.holds heap (.builtin identity function (some owner))
  bareClass : ∀ (heap : Heap) (identity : Nat) (name : String) (scope : Nat),
    discipline.holds heap (.classObject { identity, name, methods := {}, scope })
  expr_part : ∀ {place : discipline.Place} {expr part : Expr}, discipline.expr place expr →
    part ∈ expr.parts → discipline.expr place part
  expr_assigned : ∀ {place : discipline.Place} {expr : Expr} {name : String},
    discipline.expr place expr → expr.assigned? = some name → discipline.names name
  stmt_expr : ∀ {place : discipline.Place} {stmt : Stmt} {expr : Expr}, discipline.stmt place stmt →
    expr ∈ stmt.exprs → discipline.expr place expr
  stmt_part : ∀ {place : discipline.Place} {stmt part : Stmt}, discipline.stmt place stmt →
    part ∈ stmt.parts → discipline.stmt place part
  stmt_declared : ∀ {place : discipline.Place} {stmt : Stmt} {name : String},
    discipline.stmt place stmt → stmt.declared? = some name → discipline.names name
  /-- A method looked up on an instance is in order. -/
  method : ∀ {heap : Heap} {ref identity : Nat} {name : String} {object : Instance}
    {method : Method},
    heap.instances.get? ref = some object → discipline.holds heap (.classObject object.cls) →
    object.cls.findMethod? name = some method →
    discipline.holds heap (.method identity (.object ref) method)
  /-- A method looked up with `super` is in order. -/
  super : ∀ {machine : Machine} {place : discipline.Place} {span : Span} {name : String}
    {parent : Class} {receiver : Value} {method : Method} (identity : Nat),
    discipline.Good machine → discipline.Hosts machine place →
    discipline.expr place (.super span name) →
    machine.home.bind Class.superclass? = some parent →
    machine.heap.lookup? machine.scope "this" = some receiver →
    parent.findMethod? name = some method →
    discipline.holds machine.heap (.method identity receiver method)
  /-- A function is in order where it is declared. -/
  closure : ∀ {machine : Machine} {place : discipline.Place} {span : Span} {decl : FunctionDecl}
    (identity : Nat), discipline.Hosts machine place → discipline.stmt place (.function span decl) →
    discipline.holds machine.heap
      (.function identity { decl, scope := machine.scope, home := machine.home })
  /-- A class is in order where it is declared. -/
  made : ∀ {machine later : Machine} {place : discipline.Place} {span : Span} {name : String}
    {superclass : Option SuperclassName} {methods : List FunctionDecl} {parent : Option Class}
    {cls : Value}, discipline.stmt place (.classDecl span name superclass methods) →
    discipline.occurs ⟨.stmt (.classDecl span name superclass methods), machine⟩ →
    Run.resolveSuperclass superclass machine = .done parent machine →
    (∀ ancestor ∈ parent, discipline.holds machine.heap (.classObject ancestor)) →
    Run.makeClass name parent methods machine = .done cls later →
    discipline.holds machine.heap cls
  /-- A block finds around it what the code around the block finds. -/
  block : ∀ {heap : Heap} {place : discipline.Place} {home : Option Class} {scope : Nat},
    discipline.around place heap home scope →
    discipline.around place (heap.newScope (some scope)).2 home (heap.newScope (some scope)).1
  calls_function : ∀ {heap : Heap} {identity : Nat} {closure : Closure},
    discipline.holds heap (.function identity closure) → discipline.calls heap (.ofClosure closure)
  calls_method : ∀ {heap : Heap} {identity : Nat} {receiver : Value} {method : Method},
    discipline.holds heap (.method identity receiver method) →
    discipline.calls heap (.ofMethod receiver method)
  calls_initializer : ∀ {heap : Heap} {cls : Class} {method : Method},
    discipline.holds heap (.classObject cls) →
    cls.findMethod? FunctionDecl.initializerName = some method →
    discipline.calls (heap.newInstance cls).2 (.ofMethod (heap.newInstance cls).1 method)
  receiver : ∀ {heap : Heap} {called : Activation}, discipline.calls heap called →
    ∀ value ∈ called.receiver, discipline.holds heap value
  /-- The body of a function may be run in the scope that it starts in. -/
  body : ∀ {machine : Machine} {called : Activation} {arguments : List Value},
    discipline.calls machine.heap called →
    discipline.occurs ⟨.activation called arguments, machine⟩ →
    Run.checkCall called.decl arguments.length machine = .done () machine →
    ∃ place, discipline.around place (called.start arguments machine.heap).2 called.home
        (called.start arguments machine.heap).1 ∧
      ∀ form ∈ called.decl.body, discipline.stmt place form

/-- The outcome of a step leaves only values that were in order, and gives a good result. -/
def Leads {α : Type} (good : α → Prop) (before : Machine) : Outcome α → Prop
  | .done value later =>
    later.All (discipline.holds before.heap) ∧ discipline.Evolves before later ∧ good value
  | .failed _ later => later.All (discipline.holds before.heap) ∧ discipline.Evolves before later
  | .exhausted => True

/-- Carried out from the machine on, the rest of a plan that began at `start` keeps the
discipline. -/
abbrev Meets (start : Machine) {kind : ResultKind} (plan : Plan kind.Result) (machine : Machine) :
    Prop :=
  plan.Meets discipline.contract (discipline.Keeps start) machine

variable {discipline}

namespace Lawful

open Run Plan

variable {machine start : Machine} {place : discipline.Place} {kind kind' : ResultKind}

section Rules

/-- A heap grows by nothing if nothing happens to it. -/
theorem grows_refl (lawful : discipline.Lawful) (heap : Heap) : discipline.grows heap heap :=
  lawful.grows_of_keeps heap.keepsScopes_refl

/-- A machine evolves by nothing if nothing happens to it. -/
theorem evolves_refl (lawful : discipline.Lawful) (machine : Machine) :
    discipline.Evolves machine machine := ⟨lawful.grows_refl _, rfl, rfl⟩

/-- A machine that evolves twice evolves. -/
theorem evolves_trans (lawful : discipline.Lawful) {first second third : Machine}
    (left : discipline.Evolves first second) (right : discipline.Evolves second third) :
    discipline.Evolves first third :=
  ⟨lawful.grows_trans left.heap right.heap, right.scope.trans left.scope,
    right.frames.trans left.frames⟩

/-- A machine that holds only values that were in order before it changed is in order. -/
theorem good_of_all (lawful : discipline.Lawful) {later : Machine}
    (all : later.All (discipline.holds machine.heap))
    (grows : discipline.grows machine.heap later.heap) : discipline.Good later :=
  all.mono fun _ holds => lawful.holds_grows holds grows

/-- What code finds around it stays there. -/
theorem hosts_evolves (lawful : discipline.Lawful) {later : Machine}
    (hosts : discipline.Hosts machine place) (evolves : discipline.Evolves machine later) :
    discipline.Hosts later place := by
  unfold Hosts Machine.home
  rw [evolves.scope, evolves.frames]
  exact lawful.around_grows hosts evolves.heap

/-- A step that leaves the scopes alone changes the heap in order. -/
theorem leads_of_keeps (lawful : discipline.Lawful) {α : Type} {outcome : Outcome α}
    {good : α → Prop} (keeps : outcome.Keeps (discipline.holds machine.heap) good machine) :
    discipline.Leads good machine outcome := by
  cases outcome with
  | exhausted => trivial
  | failed diagnostic later =>
    obtain ⟨all, kept⟩ := keeps
    exact ⟨all, lawful.grows_of_keeps kept.heap, kept.scope, kept.frames⟩
  | done value later =>
    obtain ⟨all, kept, good⟩ := keeps
    exact ⟨all, ⟨lawful.grows_of_keeps kept.heap, kept.scope, kept.frames⟩, good⟩

/-- Binding a name that code may bind, in any scope, is a step in order. -/
theorem good_define (lawful : discipline.Lawful) (good : discipline.Good machine) {name : String}
    (allowed : discipline.names name) (scope : Nat) {value : Value}
    (holds : discipline.holds machine.heap value) :
    discipline.Leads (fun _ => True) machine
      (.done () { machine with heap := machine.heap.define scope name value }) := by
  have heap := good.heap.define scope name holds
  have grows := lawful.grows_define machine.heap scope value allowed
  exact ⟨⟨heap, good.events⟩, ⟨grows, rfl, rfl⟩, trivial⟩

/-- A plan may end with a result in order. -/
theorem meets_give {result : kind.Result} (good : discipline.Good machine)
    (evolves : discipline.Evolves start machine)
    (all : kind.All (discipline.holds machine.heap) result) :
    discipline.Meets start (give result) machine := ⟨good, evolves, all⟩

/-- A plan may go on after a step in order. -/
theorem meets_perform (lawful : discipline.Lawful) {α : Type} {run : Run α}
    {next : α → Plan kind.Result} {good : α → Prop} (evolves : discipline.Evolves start machine)
    (leads : discipline.Leads good machine (run machine))
    (onward : ∀ value later, run machine = .done value later → discipline.Good later →
      discipline.Evolves machine later → good value → discipline.Meets start (next value) later) :
    discipline.Meets start (perform run next) machine := by
  unfold Discipline.Meets Plan.Meets
  cases done : run machine with
  | exhausted => trivial
  | failed diagnostic later =>
    rw [done] at leads
    obtain ⟨all, grown⟩ := leads
    exact ⟨lawful.good_of_all all grown.heap, lawful.evolves_trans evolves grown⟩
  | done value later =>
    rw [done] at leads
    obtain ⟨all, grown, isGood⟩ := leads
    exact onward value later done (lawful.good_of_all all grown.heap) grown isGood

/-- A plan may end with a step that leaves the scopes alone and gives a value in order. -/
theorem meets_last (lawful : discipline.Lawful) {run : Run Value}
    (evolves : discipline.Evolves start machine)
    (keeps : (run machine).Keeps (discipline.holds machine.heap) (discipline.holds machine.heap)
      machine) :
    discipline.Meets start (last run : Plan (ResultKind.Result .value)) machine :=
  lawful.meets_perform evolves (lawful.leads_of_keeps keeps) fun _ _ _ good grown holds =>
    meets_give good (lawful.evolves_trans evolves grown) (lawful.holds_grows holds grown.heap)

/-- A machine that evolved in a setting evolved from the machine around it. -/
theorem leave_evolves {setting : Setting} {later : Machine}
    (evolves : discipline.Evolves (setting.enter machine) later) :
    discipline.Evolves machine (setting.leave machine later) := by
  cases setting with
  | here | «at» => exact evolves
  | inScope scope => exact ⟨evolves.heap, rfl, evolves.frames⟩
  | inCall frame scope => exact ⟨evolves.heap, rfl, congrArg List.tail evolves.frames⟩

/-- What a machine holds does not depend on the setting. -/
theorem enter_good (setting : Setting) (good : discipline.Good machine) :
    discipline.Good (setting.enter machine) := by
  cases setting <;> exact ⟨good.heap, good.events⟩

/-- What a machine holds does not depend on the setting. -/
theorem leave_good (setting : Setting) {later : Machine} (good : discipline.Good later) :
    discipline.Good (setting.leave machine later) := by
  cases setting <;> exact ⟨good.heap, good.events⟩

/-- A plan may run inner code that fits its setting, and go on with a result in order. -/
theorem meets_visit (lawful : discipline.Lawful) {setting : Setting} {code : Code kind'}
    {next : kind'.Result → Plan kind.Result} (good : discipline.Good machine)
    (evolves : discipline.Evolves start machine)
    (fits : discipline.Fits (setting.enter machine) code)
    (onward : ∀ result later, discipline.Good later → discipline.Evolves machine later →
      kind'.All (discipline.holds later.heap) result → discipline.Meets start (next result) later) :
    discipline.Meets start (visit setting code next) machine := by
  refine ⟨⟨enter_good setting good, fits⟩, ?_⟩
  intro outcome after
  cases outcome with
  | exhausted => trivial
  | failed diagnostic later =>
    obtain ⟨laterGood, grown⟩ := after
    exact ⟨leave_good setting laterGood, lawful.evolves_trans evolves (leave_evolves grown)⟩
  | done result later =>
    obtain ⟨laterGood, grown, all⟩ := after
    apply onward result _ (leave_good setting laterGood) (leave_evolves grown)
    cases setting <;> exact all

/-- A plan may become inner code that fits. -/
theorem meets_become (lawful : discipline.Lawful) {code : Code kind}
    (good : discipline.Good machine) (evolves : discipline.Evolves start machine)
    (fits : discipline.Fits machine code) : discipline.Meets start (become code) machine :=
  lawful.meets_visit good evolves fits fun _ _ laterGood grown all =>
    meets_give laterGood (lawful.evolves_trans evolves grown) all

end Rules

end Lawful

end Discipline

end EventScript
