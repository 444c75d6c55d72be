import EventScript.Evaluation

/-!
# Plans of evaluation

The evaluator runs eight kinds of code, from expressions to activations of functions, and each kind
runs others. A `Plan` lists what one piece of code does by itself and which other code it runs in
between, in which setting. `Code.plan` gives the plan of every piece of code, and `Code.run_succ`
says that the evaluator carries out these plans, so what is shown of plans holds of evaluation, and
the code that an evaluation comes to is the code that its plans run.
-/

namespace EventScript

/-- The kinds of result. -/
inductive ResultKind where
  | value | values | flow
deriving DecidableEq

namespace ResultKind

/-- The results of a kind. -/
abbrev Result : ResultKind → Type
  | value => Value
  | values => List Value
  | flow => Flow

end ResultKind

/-- What the evaluator can be asked to run. -/
inductive Code : ResultKind → Type where
  | expr (expr : Expr) : Code .value
  | exprs (exprs : List Expr) : Code .values
  | stmt (stmt : Stmt) : Code .flow
  | stmts (stmts : List Stmt) : Code .flow
  | loop (condition : Expr) (body : Stmt) : Code .flow
  | call (callee : Value) (arguments : List Value) (span : Span) : Code .value
  | instantiation (cls : Class) (arguments : List Value) : Code .value
  | activation (activation : Activation) (arguments : List Value) : Code .value

/-- Runs a piece of code within a bound. -/
def Code.run (bound : Nat) {kind : ResultKind} : Code kind → Run kind.Result
  | .expr form => evaluate bound form
  | .exprs forms => evaluateAll bound forms
  | .stmt form => execute bound form
  | .stmts forms => executeAll bound forms
  | .loop condition body => executeLoop bound condition body
  | .call callee arguments span => callValue bound callee arguments span
  | .instantiation cls arguments => instantiate bound cls arguments
  | .activation called arguments => activate bound called arguments

/-- A way to run all code. -/
abbrev Runner : Type := (kind : ResultKind) → Code kind → Run kind.Result

/-- The way the evaluator runs code within a bound. -/
def Runner.within (bound : Nat) : Runner := fun _ code => code.run bound

/-- Where code runs that other code runs. -/
inductive Setting where
  /-- Where the other code runs. -/
  | here
  | inScope (scope : Nat)
  | inCall (frame : Frame) (scope : Nat)
  /-- Where the other code runs, and failures that point nowhere point at `span`. -/
  | at (span : Span)

namespace Setting

variable {α : Type}

/-- The machine on which the inner code starts. -/
def enter : Setting → Machine → Machine
  | here, machine | .at _, machine => machine
  | inScope scope, machine => { machine with scope }
  | inCall frame scope, machine => { machine with scope, frames := frame :: machine.frames }

/-- The machine on which the outer code goes on. -/
def leave : Setting → Machine → Machine → Machine
  | here, _, later | .at _, _, later => later
  | inScope _, machine, later => { later with scope := machine.scope }
  | inCall _ _, machine, later => { later with scope := machine.scope, frames := later.frames.tail }

/-- The failure of the outer code when the inner code fails. -/
def point : Setting → Diagnostic → Diagnostic
  | .at span, diagnostic => diagnostic.orSpan span
  | _, diagnostic => diagnostic

/-- The outcome for the outer code, which runs on a machine. -/
def outward (setting : Setting) (machine : Machine) : Outcome α → Outcome α
  | .done value later => .done value (setting.leave machine later)
  | .failed diagnostic later => .failed (setting.point diagnostic) (setting.leave machine later)
  | .exhausted => .exhausted

/-- Runs inner code in the setting. -/
def around (setting : Setting) (run : Run α) : Run α := fun machine =>
  setting.outward machine (run (setting.enter machine))

/-- Code that stays where it is runs as it is. -/
theorem around_here (run : Run α) : here.around run = run := by
  funext machine
  show here.outward machine (run machine) = run machine
  cases run machine <;> rfl

/-- Code in another scope runs there, and the scope is left again. -/
theorem around_inScope (scope : Nat) (run : Run α) :
    (inScope scope).around run = Run.inScope scope run := by
  funext machine
  show outward _ machine (run { machine with scope }) = Run.inScope scope run machine
  unfold Run.inScope
  cases run { machine with scope } <;> rfl

/-- Code in a call of its own runs with that call open. -/
theorem around_inCall (frame : Frame) (scope : Nat) (run : Run α) :
    (inCall frame scope).around run = Run.inCall frame scope run := by
  funext machine
  show outward _ machine (run { machine with scope, frames := frame :: machine.frames }) =
    Run.inCall frame scope run machine
  unfold Run.inCall
  cases run { machine with scope, frames := frame :: machine.frames } <;> rfl

/-- Code whose failures are pointed at a span has them offered it. -/
theorem around_at (span : Span) (run : Run α) :
    (Setting.at span).around run = Run.orSpan span run := by
  funext machine
  show outward _ machine (run machine) = Run.orSpan span run machine
  unfold Run.orSpan Run.mapFailure
  cases run machine <;> rfl

end Setting

/-- What a piece of code does: steps of its own and other code that it runs, one after the other. -/
inductive Plan (α : Type) : Type 1 where
  | give (value : α)
  | perform {β : Type} (run : Run β) (next : β → Plan α)
  | visit {kind : ResultKind} (setting : Setting) (code : Code kind) (next : kind.Result → Plan α)

namespace Plan

variable {α : Type}

/-- Carries out a plan with a way to run the inner code. -/
def carryOut (runner : Runner) : Plan α → Run α
  | give value => pure value
  | perform run next => run >>= fun value => (next value).carryOut runner
  | @visit _ kind setting code next =>
    setting.around (runner kind code) >>= fun result => (next result).carryOut runner

/-- A plan of one step. -/
def last (run : Run α) : Plan α := perform run give

/-- A plan that gives what the inner code gives. -/
def become {kind : ResultKind} (code : Code kind) : Plan kind.Result := visit .here code give

end Plan

open Run Plan

/-- The plan of an expression. -/
def Expr.plan : Expr → Plan Value
  | .literal _ value => last (Run.literal value)
  | .variable span name => last (readVariable span name)
  | .assign span name value =>
    visit .here (.expr value) fun value =>
    perform (assignVariable span name value) fun _ => give value
  | .binary span op left right =>
    visit .here (.expr left) fun left =>
    visit .here (.expr right) fun right => last (withSpan span (Run.binary op left right))
  | .logical _ op left right =>
    visit .here (.expr left) fun left =>
    if decides op left then give left else become (.expr right)
  | .unary span op operand =>
    visit .here (.expr operand) fun operand => last (Run.unary span op operand)
  | .call span callee arguments =>
    visit .here (.expr callee) fun callee =>
    visit .here (.exprs arguments) fun arguments =>
    visit (.at span) (.call callee arguments span) give
  | .get span object name =>
    visit .here (.expr object) fun object => last (withSpan span (property object name))
  | .set span object name value =>
    visit .here (.expr object) fun
      | .object ref =>
        visit .here (.expr value) fun value =>
        perform (modifyHeap fun heap => heap.setField ref name value) fun _ => give value
      | _ => last (faultAt .noFields span)
  | .group _ inner => become (.expr inner)
  | .this span => last (readVariable span "this")
  | .super span method => last (superMethod span method)

/-- The plan of a statement. -/
def Stmt.plan : Stmt → Plan Flow
  | .letDecl _ name (some initializer) =>
    visit .here (.expr initializer) fun value => perform (declare name value) fun _ => give .next
  | .letDecl _ name none => perform (declare name .nil) fun _ => give .next
  | .function _ decl =>
    perform (close decl) fun function =>
    perform (declare decl.name function) fun _ => give .next
  | .classDecl _ name superclass methods =>
    perform (resolveSuperclass superclass) fun superclass =>
    perform (makeClass name superclass methods) fun cls =>
    perform (declare name cls) fun _ => give .next
  | .expression _ value => visit .here (.expr value) fun _ => give .next
  | .print _ value =>
    visit .here (.expr value) fun value => perform (printValue value) fun _ => give .next
  | .block _ body =>
    perform blockScope fun scope => visit (.inScope scope) (.stmts body) give
  | .conditional _ condition thenBranch elseBranch =>
    visit .here (.expr condition) fun condition =>
    if condition.isTruthy then become (.stmt thenBranch)
    else match elseBranch with
      | some branch => become (.stmt branch)
      | none => give .next
  | .while _ condition body => become (.loop condition body)
  | .return _ (some value) => visit .here (.expr value) fun value => give (.returned value)
  | .return _ none => give (.returned .nil)
  | .break _ => give .broke

/-- The plan of a call. -/
def Value.callPlan (callee : Value) (arguments : List Value) (span : Span) : Plan Value :=
  match callee with
  | .function _ closure => become (.activation (.ofClosure closure) arguments)
  | .method _ receiver found => become (.activation (.ofMethod receiver found) arguments)
  | .classObject cls => become (.instantiation cls arguments)
  | .builtin _ called receiver => last (called.call receiver arguments span)
  | _ => last (fault (.notCallable callee.typeName))

/-- The plan of making an instance. -/
def Class.plan (cls : Class) (arguments : List Value) : Plan Value :=
  if arguments.length ≠ cls.arity then last (fault (.arity cls.arity arguments.length))
  else
    perform (create fun heap => heap.newInstance cls) fun object =>
    match cls.findMethod? FunctionDecl.initializerName with
    | some method =>
      visit .here (.activation (.ofMethod object method) arguments) fun _ => give object
    | none => give object

/-- The plan of running the body of a function. -/
def Activation.plan (activation : Activation) (arguments : List Value) : Plan Value :=
  perform (checkCall activation.decl arguments.length) fun _ =>
  perform (bodyScope activation arguments) fun scope =>
  visit (.inCall ⟨activation.home⟩ scope) (.stmts activation.decl.body) fun flow =>
  give (activation.result flow)

/-- The plan of a piece of code. -/
def Code.plan {kind : ResultKind} : Code kind → Plan kind.Result
  | .expr form => form.plan
  | .exprs [] => give []
  | .exprs (first :: rest) =>
    visit .here (.expr first) fun value =>
    visit .here (.exprs rest) fun values => give (value :: values)
  | .stmt form => form.plan
  | .stmts [] => give .next
  | .stmts (first :: rest) =>
    visit .here (.stmt first) fun
      | .next => become (.stmts rest)
      | other => give other
  | .loop condition body =>
    visit .here (.expr condition) fun value =>
    if value.isTruthy then
      visit .here (.stmt body) fun
        | .next => become (.loop condition body)
        | .broke => give .next
        | .returned value => give (.returned value)
    else give .next
  | .call callee arguments span => callee.callPlan arguments span
  | .instantiation cls arguments => cls.plan arguments
  | .activation called arguments => called.plan arguments

/-- The evaluator carries out the plans. -/
theorem Code.run_succ (bound : Nat) {kind : ResultKind} (code : Code kind) :
    code.run (bound + 1) = code.plan.carryOut (.within bound) := by
  cases code with
  | expr form =>
    cases form <;>
      simp only [Code.run, Runner.within, Code.plan, Expr.plan, evaluate, carryOut, last, become,
        Setting.around_here, Setting.around_at, bind_pure]
    case logical =>
      refine bind_congr fun value => ?_
      split <;> simp only [carryOut, Setting.around_here, bind_pure, Runner.within, Code.run]
    case set =>
      refine bind_congr fun object => ?_
      cases object <;> simp only [carryOut, Setting.around_here, bind_pure, Runner.within, Code.run]
  | exprs forms =>
    cases forms <;>
      simp only [Code.run, Runner.within, Code.plan, evaluateAll, carryOut, Setting.around_here]
  | stmt form =>
    cases form with
    | letDecl span name initializer =>
      cases initializer <;>
        simp only [Code.run, Runner.within, Code.plan, Stmt.plan, execute, carryOut,
          Setting.around_here, pure_bind]
    | conditional span condition thenBranch elseBranch =>
      simp only [Code.run, Runner.within, Code.plan, Stmt.plan, execute, carryOut, become,
        Setting.around_here]
      refine bind_congr fun value => ?_
      split
      · simp only [carryOut, Setting.around_here, bind_pure, Runner.within, Code.run]
      · cases elseBranch <;>
          simp only [carryOut, Setting.around_here, bind_pure, Runner.within, Code.run]
    | «return» span value =>
      cases value <;>
        simp only [Code.run, Runner.within, Code.plan, Stmt.plan, execute, carryOut,
          Setting.around_here]
    | _ =>
      simp only [Code.run, Runner.within, Code.plan, Stmt.plan, execute, carryOut, become,
        Setting.around_here, Setting.around_inScope, bind_pure]
  | stmts forms =>
    cases forms with
    | nil => rfl
    | cons first rest =>
      simp only [Code.run, Runner.within, Code.plan, executeAll, carryOut, Setting.around_here]
      refine bind_congr fun flow => ?_
      cases flow <;>
        simp only [carryOut, become, Setting.around_here, bind_pure, Runner.within, Code.run]
  | loop condition body =>
    simp only [Code.run, Runner.within, Code.plan, executeLoop, carryOut, Setting.around_here]
    refine bind_congr fun value => ?_
    split
    · simp only [carryOut, Setting.around_here, Runner.within, Code.run]
      refine bind_congr fun flow => ?_
      cases flow <;>
        simp only [carryOut, become, Setting.around_here, bind_pure, Runner.within, Code.run]
    · rfl
  | call callee arguments span =>
    cases callee <;>
      simp only [Code.run, Runner.within, Code.plan, Value.callPlan, callValue, carryOut,
        last, become,
        Setting.around_here, bind_pure]
  | instantiation cls arguments =>
    simp only [Code.run, Code.plan, Class.plan, instantiate]
    split
    · simp only [carryOut, last, bind_pure]
    · simp only [carryOut]
      refine bind_congr fun object => ?_
      cases cls.findMethod? FunctionDecl.initializerName <;>
        simp only [carryOut, Setting.around_here, Runner.within, Code.run]
  | activation called arguments =>
    simp only [Code.run, Runner.within, Code.plan, Activation.plan, activate, carryOut,
      Setting.around_inCall]

end EventScript
