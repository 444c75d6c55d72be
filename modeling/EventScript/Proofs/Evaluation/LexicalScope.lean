import EventScript.Proofs.Evaluation.Plan
import EventScript.Proofs.Evaluation.Surroundings

/-!
# Lexical scope

Code inside a call sees its own scope, how many calls are open, and the class whose method is
running (`Code.run_seesOnly`). A call sets up the first and the last of these itself, from the
closure, the receiver and the arguments, so of its caller it sees only the number of open calls
(`Code.run_seesOnly_depth`). Called on two machines that differ in the scope of the caller and in
the classes on the open calls, a value gives the same, does the same to all that is shared, and
leaves each caller where it was (`callValue_alike`).
-/

namespace EventScript

open Run Plan

/-- How a line is printed has nothing to do with the surroundings. -/
theorem Machine.print_within (machine : Machine) (around : Surroundings) (text : String) :
    (machine.within around).print text = (machine.print text).within around := by
  obtain ⟨_, _, _, _, _, _, _, _, sink, _, _⟩ := machine
  cases sink <;> rfl

namespace Run

variable {view : View}

/-- Evaluating a literal sees only what the view shows. -/
theorem literal_seesOnly (value : Literal) : (literal value).SeesOnly view := by
  unfold literal
  split
  · exact .pure _
  · exact .create _
  · exact .pure _
  · exact .pure _

/-- A numeric operator sees only what the view shows. -/
theorem numeric_seesOnly (op : BinaryOp) (left right : Value) :
    (numeric op left right).SeesOnly view := by
  unfold numeric
  split
  · exact .pure _
  · split <;> exact .fault _

/-- A binary operator sees only what the view shows. -/
theorem binary_seesOnly (op : BinaryOp) (left right : Value) :
    (binary op left right).SeesOnly view := by
  unfold binary
  split
  · exact SeesOnly.heap.bind fun _ => .pure _
  · exact SeesOnly.heap.bind fun _ => .pure _
  · exact .create _
  · exact numeric_seesOnly op left right

/-- A unary operator sees only what the view shows. -/
theorem unary_seesOnly (span : Span) (op : UnaryOp) (operand : Value) :
    (unary span op operand).SeesOnly view := by
  unfold unary
  split
  · exact .pure _
  · split
    · exact .pure _
    · exact .faultAt _ _

/-- Getting a property sees only what the view shows. -/
theorem property_seesOnly (value : Value) (name : String) :
    (property value name).SeesOnly view := by
  unfold property
  split
  · refine SeesOnly.heap.bind fun heap => ?_
    dsimp only
    split
    · exact .pure _
    · split
      · exact .create _
      · exact .fault _
  iterate 3
    split
    · exact .create _
    · exact .fault _
  · exact .fault _

/-- Printing a value sees only what the view shows. -/
theorem printValue_seesOnly (value : Value) : (printValue value).SeesOnly view :=
  fun machine around _ => congrArg (Outcome.done ()) (machine.print_within around _)

/-- Opening the scope of a body sees only what the view shows. -/
theorem bodyScope_seesOnly (activation : Activation) (arguments : List Value) :
    (bodyScope activation arguments).SeesOnly view := .create _

/-- Whether a function may be called depends on how many calls are open. -/
theorem checkCall_seesOnly {view : View}
    (counts : ∀ first second, view.same first second → second.frames.length = first.frames.length)
    (decl : FunctionDecl) (count : Nat) : (checkCall decl count).SeesOnly view := by
  intro machine around same
  have length : around.frames.length = machine.frames.length := counts _ _ same
  have check : checkCall decl count (machine.within around) =
      (if count ≠ decl.parameters.length then
        Run.fault (.arity decl.parameters.length count) (machine.within around)
      else if machine.settings.maxCallDepth ≤ around.frames.length then
        Run.fault (.stackOverflow machine.settings.maxCallDepth decl.name) (machine.within around)
      else .done () (machine.within around)) := rfl
  rw [check, length]
  unfold checkCall
  split
  · rfl
  · split <;> rfl

/-- A step that reads and writes in the present scope sees no more than that scope. -/
theorem SeesOnly.inside_of_scope {α : Type} {run : Run α}
    (sees : ∀ (machine : Machine) (around : Surroundings), around.scope = machine.scope →
      run (machine.within around) = (run machine).within around) : run.SeesOnly .inside :=
  fun machine around same => sees machine around same.1

/-- Reading a variable sees only what the view shows. -/
theorem readVariable_seesOnly (span : Span) (name : String) :
    (readVariable span name).SeesOnly .inside := by
  refine .inside_of_scope fun machine around scope => ?_
  have same : (machine.within around).heap.lookup? (machine.within around).scope name =
      machine.heap.lookup? machine.scope name := congrArg (machine.heap.lookup? · name) scope
  unfold readVariable
  rw [same]
  cases machine.heap.lookup? machine.scope name <;> rfl

/-- Assigning to a variable sees only what the view shows. -/
theorem assignVariable_seesOnly (span : Span) (name : String) (value : Value) :
    (assignVariable span name value).SeesOnly .inside := by
  refine .inside_of_scope fun machine around scope => ?_
  have same : (machine.within around).heap.binder? (machine.within around).scope name =
      machine.heap.binder? machine.scope name := congrArg (machine.heap.binder? · name) scope
  unfold assignVariable
  rw [same]
  cases machine.heap.binder? machine.scope name <;> rfl

/-- Binding a name sees only what the view shows. -/
theorem declare_seesOnly (name : String) (value : Value) :
    (declare name value).SeesOnly .inside := by
  refine .inside_of_scope fun machine around scope => ?_
  show Outcome.done () { machine.within around with
    heap := machine.heap.define around.scope name value } = _
  rw [scope]
  rfl

/-- Opening the scope of a block sees only what the view shows. -/
theorem blockScope_seesOnly : blockScope.SeesOnly .inside := by
  refine .inside_of_scope fun machine around scope => ?_
  show Outcome.done (machine.heap.newScope (some around.scope)).1
    { machine.within around with heap := (machine.heap.newScope (some around.scope)).2 } = _
  rw [scope]
  rfl

/-- Asking for the class of the running method sees only what the view shows. -/
theorem home_seesOnly : home.SeesOnly .inside := by
  intro machine around same
  show Outcome.done around.home (machine.within around) = .done machine.surroundings.home _
  rw [same.2.2]

/-- Getting a method of the superclass sees only what the view shows. -/
theorem superMethod_seesOnly (span : Span) (name : String) :
    (superMethod span name).SeesOnly .inside := by
  refine home_seesOnly.bind fun cls => ?_
  split
  · exact .faultAt _ _
  · refine (readVariable_seesOnly span "this").bind fun receiver => ?_
    split
    · exact .faultAt _ _
    · exact .create _

/-- Closing a declaration sees only what the view shows. -/
theorem close_seesOnly (decl : FunctionDecl) : (close decl).SeesOnly .inside := by
  refine home_seesOnly.bind fun home => .machine (fun machine around same => ?_) fun _ => .create _
  dsimp only
  rw [show (machine.within around).scope = machine.scope from same.1]

/-- Finding the class that a declaration inherits from sees only what the view shows. -/
theorem resolveSuperclass_seesOnly (superclass : Option SuperclassName) :
    (resolveSuperclass superclass).SeesOnly .inside := by
  unfold resolveSuperclass
  split
  · exact .pure _
  · refine (readVariable_seesOnly _ _).bind fun value => ?_
    split
    · exact .pure _
    · exact .faultAt _ _

/-- Making a class sees only what the view shows. -/
theorem makeClass_seesOnly (name : String) (superclass : Option Class)
    (methods : List FunctionDecl) :
    (makeClass name superclass methods).SeesOnly .inside := by
  refine .machine (fun machine around same => ?_) fun machine =>
    (SeesOnly.create _).bind fun identity => .pure _
  dsimp only
  rw [show (machine.within around).scope = machine.scope from same.1]

end Run

namespace Setting

/-- What lies around the inner code. -/
def surround : Setting → Surroundings → Surroundings
  | here, around | .at _, around => around
  | inScope scope, around => { around with scope }
  | inCall frame scope, around => { around with scope, frames := frame :: around.frames }

variable {α : Type} {run : Run α}

/-- Where inner code starts, the surroundings are those that the setting makes. -/
theorem surroundings_enter (setting : Setting) (machine : Machine) :
    (setting.enter machine).surroundings = setting.surround machine.surroundings := by
  cases setting <;> rfl

/-- Surroundings may be changed before or after inner code is entered. -/
theorem enter_within (setting : Setting) (machine : Machine) (around : Surroundings) :
    setting.enter (machine.within around) =
      (setting.enter machine).within (setting.surround around) := by
  cases setting <;> rfl

/-- Surroundings may be changed before or after inner code is left. -/
theorem outward_within (setting : Setting) (machine : Machine) (around : Surroundings)
    (outcome : Outcome α) :
    setting.outward (machine.within around) (outcome.within (setting.surround around)) =
      (setting.outward machine outcome).within around := by
  cases setting <;> cases outcome <;> rfl

/-- Code that runs other code in a setting sees what it takes for the other code to see the same. -/
theorem around_seesOnly {view inner : View} (sees : run.SeesOnly inner) (setting : Setting)
    (shows : ∀ first second, view.same first second →
      inner.same (setting.surround first) (setting.surround second)) :
    (setting.around run).SeesOnly view := by
  intro machine around same
  have inside := sees (setting.enter machine) (setting.surround around) (by
    rw [surroundings_enter]
    exact shows _ _ same)
  show setting.outward _ (run (setting.enter (machine.within around))) = _
  rw [enter_within, inside, outward_within]
  rfl

/-- A call has the scope and the class from its callee, wherever it stands. -/
theorem shows_inCall (frame : Frame) (scope : Nat) (first second : Surroundings)
    (same : View.depth.same first second) :
    View.inside.same ((inCall frame scope).surround first) ((inCall frame scope).surround second) :=
  ⟨rfl, congrArg (· + 1) same, rfl⟩

/-- Surroundings that look the same from inside still do where inner code runs. -/
theorem shows_inside (setting : Setting) (first second : Surroundings)
    (same : View.inside.same first second) :
    View.inside.same (setting.surround first) (setting.surround second) := by
  cases setting with
  | here | «at» => exact same
  | inScope => exact ⟨rfl, same.2⟩
  | inCall frame scope => exact shows_inCall frame scope first second same.2.1

end Setting

/-- What a piece of code sees. What a call sees it sets up itself, except how many calls are
open. -/
def Code.view {kind : ResultKind} : Code kind → View
  | .call .. | .instantiation .. | .activation .. => .depth
  | _ => .inside

/-- No code sees more than its scope, the number of open calls and the class of the running
method. -/
theorem Code.view_inside {kind : ResultKind} (code : Code kind) (first second : Surroundings)
    (same : View.inside.same first second) : code.view.same first second := by
  cases code with
  | call | instantiation | activation => exact same.2.1
  | _ => exact same

/-- All inner code sees no more than its own view. -/
def Runner.Sees (runner : Runner) : Prop :=
  ∀ {kind : ResultKind} (code : Code kind), (runner kind code).SeesOnly code.view

namespace Plan

variable {α : Type} {runner : Runner} {view : View}

/-- A plan that gives a value sees nothing. -/
theorem seesOnly_give (value : α) : ((give value).carryOut runner).SeesOnly view := .pure value

/-- A plan with a first step sees what the step and the rest see. -/
theorem seesOnly_perform {β : Type} {run : Run β} {next : β → Plan α} (sees : run.SeesOnly view)
    (onward : ∀ value, ((next value).carryOut runner).SeesOnly view) :
    ((perform run next).carryOut runner).SeesOnly view := sees.bind onward

/-- A plan of one last step sees what the step sees. -/
theorem seesOnly_last {run : Run α} (sees : run.SeesOnly view) :
    ((last run).carryOut runner).SeesOnly view := seesOnly_perform sees seesOnly_give

/-- A plan that runs inner code where it is sees what the code and the rest see. -/
theorem seesOnly_here {kind : ResultKind} {code : Code kind} {next : kind.Result → Plan α}
    (sees : (runner kind code).SeesOnly view)
    (onward : ∀ result, ((next result).carryOut runner).SeesOnly view) :
    ((visit .here code next).carryOut runner).SeesOnly view := by
  unfold carryOut
  rw [Setting.around_here]
  exact sees.bind onward

/-- A plan that runs inner code in any setting sees no more than code does from inside. -/
theorem seesOnly_visit (sees : runner.Sees) {kind : ResultKind} {setting : Setting}
    {code : Code kind} {next : kind.Result → Plan α}
    (onward : ∀ result, ((next result).carryOut runner).SeesOnly .inside) :
    ((visit setting code next).carryOut runner).SeesOnly .inside :=
  (setting.around_seesOnly ((sees code).mono code.view_inside) setting.shows_inside).bind onward

/-- A plan that turns into other code sees what that code sees. -/
theorem seesOnly_become (sees : runner.Sees) {kind : ResultKind} (code : Code kind) :
    ((become code).carryOut runner).SeesOnly code.view := seesOnly_here (sees code) seesOnly_give

/-- A plan that binds a name sees no more than code does from inside. -/
theorem seesOnly_declare (name : String) (value : Value) :
    ((perform (declare name value) fun _ => give Flow.next).carryOut runner).SeesOnly .inside :=
  seesOnly_perform (declare_seesOnly name value) fun _ => seesOnly_give _

end Plan

section Walk

variable {runner : Runner} (sees : runner.Sees)
include sees

/-- The plan of an expression sees only what the view shows. -/
theorem Expr.plan_seesOnly (form : Expr) : (form.plan.carryOut runner).SeesOnly .inside := by
  cases form with
  | literal span value => exact seesOnly_last (literal_seesOnly value)
  | «variable» span name => exact seesOnly_last (readVariable_seesOnly span name)
  | this span => exact seesOnly_last (readVariable_seesOnly span "this")
  | super span name => exact seesOnly_last (superMethod_seesOnly span name)
  | group span form => exact seesOnly_become sees (.expr form)
  | assign span name form =>
    apply seesOnly_visit sees
    intro value
    exact seesOnly_perform (assignVariable_seesOnly span name value) fun _ => seesOnly_give value
  | binary span op left right =>
    apply seesOnly_visit sees
    intro left
    apply seesOnly_visit sees
    intro right
    exact seesOnly_last ((binary_seesOnly op left right).withSpan span)
  | logical span op left right =>
    apply seesOnly_visit sees
    intro value
    split
    · exact seesOnly_give value
    · exact seesOnly_become sees (.expr right)
  | unary span op operand =>
    exact seesOnly_visit sees fun operand => seesOnly_last (unary_seesOnly span op operand)
  | call span callee arguments =>
    exact seesOnly_visit sees fun _ => seesOnly_visit sees fun _ =>
      seesOnly_visit sees seesOnly_give
  | get span object name =>
    apply seesOnly_visit sees
    intro object
    exact seesOnly_last ((property_seesOnly object name).withSpan span)
  | set span object name form =>
    apply seesOnly_visit sees
    intro object
    cases object with
    | object ref =>
      apply seesOnly_visit sees
      intro value
      exact seesOnly_perform (.modifyHeap _) fun _ => seesOnly_give value
    | _ => exact seesOnly_last (.faultAt _ _)

/-- The plan of a statement sees only what the view shows. -/
theorem Stmt.plan_seesOnly (form : Stmt) : (form.plan.carryOut runner).SeesOnly .inside := by
  cases form with
  | letDecl span name initializer =>
    cases initializer with
    | none => exact seesOnly_declare name .nil
    | some form => exact seesOnly_visit sees fun value => seesOnly_declare name value
  | function span decl =>
    exact seesOnly_perform (close_seesOnly decl) fun function => seesOnly_declare decl.name function
  | classDecl span name superclass methods =>
    apply seesOnly_perform (resolveSuperclass_seesOnly superclass)
    intro parent
    apply seesOnly_perform (makeClass_seesOnly name parent methods)
    intro cls
    exact seesOnly_declare name cls
  | expression span form => exact seesOnly_visit sees fun _ => seesOnly_give _
  | print span form =>
    apply seesOnly_visit sees
    intro value
    exact seesOnly_perform (printValue_seesOnly value) fun _ => seesOnly_give _
  | block span body =>
    exact seesOnly_perform blockScope_seesOnly fun _ => seesOnly_visit sees seesOnly_give
  | conditional span condition thenBranch elseBranch =>
    apply seesOnly_visit sees
    intro value
    split
    · exact seesOnly_become sees (.stmt thenBranch)
    · cases elseBranch with
      | none => exact seesOnly_give _
      | some branch => exact seesOnly_become sees (.stmt branch)
  | «while» span condition body => exact seesOnly_become sees (.loop condition body)
  | «return» span form =>
    cases form with
    | none => exact seesOnly_give _
    | some form => exact seesOnly_visit sees fun value => seesOnly_give _
  | «break» => exact seesOnly_give _

/-- The plan of a call sees only what the view shows. -/
theorem Value.callPlan_seesOnly (callee : Value) (arguments : List Value) (span : Span) :
    ((callee.callPlan arguments span).carryOut runner).SeesOnly .depth := by
  cases callee with
  | function identity closure =>
    exact seesOnly_become sees (.activation (.ofClosure closure) arguments)
  | method identity receiver found =>
    exact seesOnly_become sees (.activation (.ofMethod receiver found) arguments)
  | classObject cls => exact seesOnly_become sees (.instantiation cls arguments)
  | builtin identity called receiver =>
    exact seesOnly_last (called.call_seesOnly receiver arguments span)
  | _ => exact seesOnly_last (.fault _)

/-- The plan of an instantiation sees only what the view shows. -/
theorem Class.plan_seesOnly (cls : Class) (arguments : List Value) :
    ((cls.plan arguments).carryOut runner).SeesOnly .depth := by
  unfold Class.plan
  split
  · exact seesOnly_last (.fault _)
  · apply seesOnly_perform (.create _)
    intro object
    cases cls.findMethod? FunctionDecl.initializerName with
    | none => exact seesOnly_give object
    | some method =>
      have initializes := sees (.activation (.ofMethod object method) arguments)
      exact seesOnly_here initializes fun _ => seesOnly_give object

/-- The plan of an activation sees only what the view shows. -/
theorem Activation.plan_seesOnly (activation : Activation) (arguments : List Value) :
    ((activation.plan arguments).carryOut runner).SeesOnly .depth := by
  apply seesOnly_perform (checkCall_seesOnly (fun _ _ same => same) _ _)
  intro _
  apply seesOnly_perform (bodyScope_seesOnly activation arguments)
  intro scope
  have body := sees (.stmts activation.decl.body)
  apply (Setting.around_seesOnly body _ (Setting.shows_inCall _ _)).bind
  intro ending
  exact seesOnly_give _

/-- If inner code sees no more than its view, so does the code that runs it. -/
theorem Code.plan_seesOnly {kind : ResultKind} (code : Code kind) :
    (code.plan.carryOut runner).SeesOnly code.view := by
  cases code with
  | expr form => exact form.plan_seesOnly sees
  | exprs forms =>
    cases forms with
    | nil => exact seesOnly_give []
    | cons first rest =>
      exact seesOnly_visit sees fun value => seesOnly_visit sees fun values => seesOnly_give _
  | stmt form => exact form.plan_seesOnly sees
  | stmts forms =>
    cases forms with
    | nil => exact seesOnly_give Flow.next
    | cons first rest =>
      apply seesOnly_visit sees
      intro ending
      cases ending with
      | next => exact seesOnly_become sees (.stmts rest)
      | returned | broke => exact seesOnly_give _
  | loop condition body =>
    apply seesOnly_visit sees
    intro value
    split
    · apply seesOnly_visit sees
      intro ending
      cases ending with
      | next => exact seesOnly_become sees (.loop condition body)
      | returned | broke => exact seesOnly_give _
    · exact seesOnly_give Flow.next
  | call callee arguments span => exact callee.callPlan_seesOnly sees arguments span
  | instantiation cls arguments => exact cls.plan_seesOnly sees arguments
  | activation called arguments => exact called.plan_seesOnly sees arguments

end Walk

/-- Of its surroundings code sees its scope, the number of open calls and the class of the running
method, and a call sees only the number of open calls. -/
theorem Code.run_seesOnly (bound : Nat) {kind : ResultKind} (code : Code kind) :
    (code.run bound).SeesOnly code.view := by
  induction bound generalizing kind with
  | zero =>
    intro machine around _
    rw [code.run_zero, code.run_zero]
    rfl
  | succ bound ih =>
    rw [code.run_succ]
    exact code.plan_seesOnly ih

/-- The two machines agree on everything except where their code stands: in which scope, above which
global scope, inside calls of methods of which classes, and after which errors. -/
structure Machine.Resembles (first second : Machine) : Prop where
  heap : second.heap = first.heap
  events : second.events = first.events
  launched : second.launched = first.launched
  settings : second.settings = first.settings
  console : second.console = first.console
  sink : second.sink = first.sink
  clock : second.clock = first.clock
  depth : second.frames.length = first.frames.length

/-- The two ends, of a run from `first` and of one from `second`, are alike: both give the same or
fail in the same way on machines that agree, each standing where it stood, or the bound suffices for
neither. -/
inductive Outcome.Alike {α : Type} (first second : Machine) : Outcome α → Outcome α → Prop where
  | done (value : α) {later later' : Machine} (resembles : later.Resembles later')
      (stays : later.surroundings = first.surroundings)
      (stays' : later'.surroundings = second.surroundings) :
      Alike first second (.done value later) (.done value later')
  | failed (diagnostic : Diagnostic) {later later' : Machine} (resembles : later.Resembles later')
      (stays : later.surroundings = first.surroundings)
      (stays' : later'.surroundings = second.surroundings) :
      Alike first second (.failed diagnostic later) (.failed diagnostic later')
  | exhausted : Alike first second .exhausted .exhausted

/-- Where one run gives a value, the other gives the same. -/
theorem Outcome.Alike.eq_done {α : Type} {first second later : Machine} {value : α}
    {outcome : Outcome α} (alike : Alike first second (.done value later) outcome) :
    ∃ later', outcome = .done value later' := by
  cases alike with
  | done _ resembles stays stays' => exact ⟨_, rfl⟩

namespace Machine.Resembles

variable {first second : Machine}

/-- Machines that resemble each other are one machine in different surroundings. -/
theorem eq_within (alike : first.Resembles second) : second = first.within second.surroundings := by
  obtain ⟨heap, events, launched, settings, console, sink, clock, -⟩ := alike
  unfold within
  rw [← heap, ← events, ← launched, ← settings, ← console, ← sink, ← clock]
  rfl

/-- A machine resembles itself in surroundings with as many open calls. -/
theorem of_within {machine : Machine} {around : Surroundings}
    (depth : around.frames.length = machine.frames.length) :
    machine.Resembles (machine.within around) :=
  ⟨rfl, rfl, rfl, rfl, rfl, rfl, rfl, depth⟩

end Machine.Resembles

/-- A call depends on the callee, its arguments and the number of open calls only. From machines
that differ in the scope of the caller and in the classes on the open calls, it gives the same or
fails in the same way, does the same to all that is shared, and leaves each caller as it was. -/
theorem callValue_alike (bound : Nat) (callee : Value) (arguments : List Value) (span : Span)
    {first second : Machine} (alike : first.Resembles second) :
    (callValue bound callee arguments span first).Alike first second
      (callValue bound callee arguments span second) := by
  have sees : (callValue bound callee arguments span).SeesOnly .depth :=
    Code.run_seesOnly bound (.call callee arguments span)
  have same := sees first second.surroundings alike.depth
  rw [← alike.eq_within] at same
  have stays := sees.leaves first
  -- The run from `second` is the one from `first`, in the surroundings of `second`.
  rw [same]
  have resembles : ∀ {later : Machine}, later.surroundings = first.surroundings →
      later.Resembles (later.within second.surroundings) := fun stays =>
    .of_within (alike.depth.trans (congrArg (fun around => around.frames.length) stays).symm)
  cases ended : callValue bound callee arguments span first with
  | exhausted => exact .exhausted
  | failed diagnostic later =>
    rw [ended] at stays
    exact .failed diagnostic (resembles stays) stays rfl
  | done value later =>
    rw [ended] at stays
    exact .done value (resembles stays) stays rfl

/-- A function that gives the global `x` gives it also where the caller has an `x` of its own. -/
theorem callValue_alike_shadowed :
    ∃ callee first second, Machine.Resembles first second ∧
      first.heap.lookup? first.scope "x" = some (.bool true) ∧
      second.heap.lookup? second.scope "x" = some (.bool false) ∧
      (∃ later, callValue 8 callee [] default first = .done (.bool true) later) ∧
      ∃ later, callValue 8 callee [] default second = .done (.bool true) later := by
  let decl : FunctionDecl := ⟨"f", [], [.return default (some (.variable default "x"))], default⟩
  let callee : Value := .function 0 { decl, scope := 0, home := none }
  let outer := ((({} : Heap).newScope none).2.define 0 "x" (.bool true)).newScope (some 0)
  let first : Machine :=
    { Machine.new {} (.captured "") {} {} with
      heap := outer.2.define outer.1 "x" (.bool false)
      scope := 0 }
  let second := first.within { first.surroundings with scope := outer.1 }
  have alike : first.Resembles second := .of_within rfl
  have called : ∃ later, callValue 8 callee [] default first = .done (.bool true) later := ⟨_, rfl⟩
  have same := callValue_alike 8 callee [] default alike
  obtain ⟨later, ended⟩ := called
  rw [ended] at same
  exact ⟨callee, first, second, alike, rfl, rfl, ⟨later, ended⟩, same.eq_done⟩

end EventScript
