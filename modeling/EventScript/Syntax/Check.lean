import EventScript.Syntax
import EventScript.Diagnostic

/-!
# Static rules

A program may be well formed and still break rules that no grammar sees: where `return`, `break`,
`this` and `super` may stand, and how names of a local scope may be declared and used.
`Program.check` lists the violations in the order of the text. Only the innermost local scope
matters to the rules, so the check carries that scope alone: the names declared in it so far, or
nothing at top level.
-/

namespace EventScript

/-- The static rules, as what a violation is. -/
inductive Violation where
  | redeclared (name : String)
  | readInOwnInitializer
  | returnOutsideFunction
  | returnFromInitializer
  | breakOutsideLoop
  | thisOutsideClass
  | superOutsideClass
  | superWithoutSuperclass
  | inheritsFromItself
deriving DecidableEq, Inhabited

namespace Violation

/-- The wording of the violation. -/
def message : Violation → String
  | redeclared name => "Already a variable named '" ++ name ++ "' in this scope."
  | readInOwnInitializer => "Can't read local variable in its own initializer."
  | returnOutsideFunction => "Can't return from top-level code."
  | returnFromInitializer => "Can't return a value from an initializer."
  | breakOutsideLoop => "Can't break outside of a loop."
  | thisOutsideClass => "Can't use 'this' outside of a class."
  | superOutsideClass => "Can't use 'super' outside of a class."
  | superWithoutSuperclass => "Can't use 'super' in a class with no superclass."
  | inheritsFromItself => "A class can't inherit from itself."

/-- The violation as a diagnostic that points at `span`. -/
def diagnostic (violation : Violation) (span : Span) : Diagnostic :=
  { kind := .resolve, message := violation.message, span := some span }

end Violation

/-- What the innermost function around some code is. -/
inductive FunctionContext where
  | none | function | method | initializer
deriving DecidableEq, Inhabited

/-- What the innermost class around some code is. -/
inductive ClassContext where
  | none | baseClass | subclass
deriving DecidableEq, Inhabited

/-- What surrounds some code. -/
structure CodeContext where
  function : FunctionContext := .none
  cls : ClassContext := .none
  /-- Whether a loop of the same function is around the code. -/
  inLoop : Bool := false
deriving DecidableEq, Inhabited

/-- The names declared so far in the innermost local scope; nothing at top level. -/
abbrev LocalScope := Option (List String)

namespace LocalScope

/-- Declares a name, which is a violation if the scope has it already. -/
def declare (scope : LocalScope) (name : String) (span : Span) : LocalScope × List Diagnostic :=
  match scope with
  | none => (none, [])
  | some names =>
    (some (name :: names),
      if name ∈ names then [(Violation.redeclared name).diagnostic span] else [])

end LocalScope

mutual

/-- The violations in an expression. A local variable whose initializer the expression is part of is
`pending`, and reading it is a violation. -/
def Expr.check (context : CodeContext) (pending : Option String) : Expr → List Diagnostic
  | .literal _ _ => []
  | .variable span name =>
    if pending = some name then [Violation.readInOwnInitializer.diagnostic span] else []
  | .assign _ _ value => value.check context pending
  | .binary _ _ left right => left.check context pending ++ right.check context pending
  | .logical _ _ left right => left.check context pending ++ right.check context pending
  | .unary _ _ operand => operand.check context pending
  | .call _ callee arguments =>
    callee.check context pending ++ checkArguments context pending arguments
  | .get _ object _ => object.check context pending
  | .set _ object _ value => value.check context pending ++ object.check context pending
  | .group _ inner => inner.check context pending
  | .this span =>
    match context.cls with
    | .none => [Violation.thisOutsideClass.diagnostic span]
    | _ => []
  | .super span _ =>
    match context.cls with
    | .none => [Violation.superOutsideClass.diagnostic span]
    | .baseClass => [Violation.superWithoutSuperclass.diagnostic span]
    | .subclass => []

/-- The violations in the arguments of a call. -/
def checkArguments (context : CodeContext) (pending : Option String) : List Expr → List Diagnostic
  | [] => []
  | first :: rest => first.check context pending ++ checkArguments context pending rest

end

/-- Declares the parameters of a function in its scope. -/
def declareParameters (scope : LocalScope) : List Parameter → LocalScope × List Diagnostic
  | [] => (scope, [])
  | parameter :: rest =>
    let (scope, first) := scope.declare parameter.name parameter.span
    let (scope, others) := declareParameters scope rest
    (scope, first ++ others)

/-- The violations of a class in naming its superclass. -/
def SuperclassName.check (className : String) (superclass : SuperclassName) : List Diagnostic :=
  if superclass.name = className then [Violation.inheritsFromItself.diagnostic superclass.span]
  else []

/-- The context of a class body. -/
def CodeContext.insideClass (context : CodeContext) (superclass : Option SuperclassName) :
    CodeContext :=
  { context with cls := if superclass.isSome then .subclass else .baseClass }

/-- The context of a function body, which no outer loop reaches. -/
def CodeContext.insideFunction (context : CodeContext) (role : FunctionContext) : CodeContext :=
  { context with function := role, inLoop := false }

/-- Which kind of function a method declaration makes. -/
def FunctionDecl.methodContext (decl : FunctionDecl) : FunctionContext :=
  if decl.isInitializer then .initializer else .method

/-- The violations of a `return` itself. -/
def checkReturn (context : CodeContext) (span : Span) (withValue : Bool) : List Diagnostic :=
  match context.function with
  | .none => [Violation.returnOutsideFunction.diagnostic span]
  | .initializer => if withValue then [Violation.returnFromInitializer.diagnostic span] else []
  | _ => []

mutual

/-- Checks a statement in a scope: the scope after it, and the violations in it. -/
def Stmt.check (context : CodeContext) (scope : LocalScope) : Stmt → LocalScope × List Diagnostic
  | .letDecl span name initializer =>
    let (inner, declared) := scope.declare name span
    let pending := if scope.isSome then some name else none
    match initializer with
    | none => (inner, declared)
    | some value => (inner, declared ++ value.check context pending)
  | .function _ decl =>
    let (scope, declared) := scope.declare decl.name decl.span
    (scope, declared ++ decl.check (context.insideFunction .function))
  | .classDecl span name superclass methods =>
    let (scope, declared) := scope.declare name span
    let inherited := match superclass with
      | none => []
      | some superclass => superclass.check name
    (scope, declared ++ inherited ++ checkMethods (context.insideClass superclass) methods)
  | .expression _ value => (scope, value.check context none)
  | .print _ value => (scope, value.check context none)
  | .block _ body => (scope, (checkAll context (some []) body).2)
  | .conditional _ condition thenBranch elseBranch =>
    let (scope, first) := thenBranch.check context scope
    match elseBranch with
    | none => (scope, condition.check context none ++ first)
    | some branch =>
      let (scope, second) := branch.check context scope
      (scope, condition.check context none ++ first ++ second)
  | .while _ condition body =>
    let (scope, inside) := body.check { context with inLoop := true } scope
    (scope, condition.check context none ++ inside)
  | .return span value =>
    match value with
    | none => (scope, checkReturn context span false)
    | some value => (scope, checkReturn context span true ++ value.check context none)
  | .break span =>
    (scope, if context.inLoop then [] else [Violation.breakOutsideLoop.diagnostic span])

/-- Checks a function body in a scope of its own, which holds its parameters. -/
def FunctionDecl.check (context : CodeContext) : FunctionDecl → List Diagnostic
  | ⟨_, parameters, body, _⟩ =>
    let (scope, declared) := declareParameters (some []) parameters
    declared ++ (checkAll context scope body).2

/-- Checks the methods of a class. -/
def checkMethods (context : CodeContext) : List FunctionDecl → List Diagnostic
  | [] => []
  | method :: rest =>
    method.check (context.insideFunction method.methodContext) ++ checkMethods context rest

/-- Checks statements one after the other. -/
def checkAll (context : CodeContext) (scope : LocalScope) : List Stmt → LocalScope × List Diagnostic
  | [] => (scope, [])
  | first :: rest =>
    let (scope, before) := first.check context scope
    let (scope, after) := checkAll context scope rest
    (scope, before ++ after)

end

/-- The violations of the static rules in a program, in the order of the text. -/
def Program.check (program : Program) : List Diagnostic :=
  (checkAll {} none program).2

end EventScript
