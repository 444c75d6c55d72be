import EventScript.Syntax

/-!
# The parts of code

What an expression or a statement itself consists of, declares and assigns to, one level deep. The
bodies of functions are no parts of the statement that declares them, as they are not run with it.
-/

namespace EventScript

/-- The expressions that an expression consists of. -/
def Expr.parts : Expr → List Expr
  | .literal .. | .variable .. | .this _ | .super .. => []
  | .assign _ _ value => [value]
  | .binary _ _ left right | .logical _ _ left right => [left, right]
  | .unary _ _ operand => [operand]
  | .call _ callee arguments => callee :: arguments
  | .get _ object _ => [object]
  | .set _ object _ value => [object, value]
  | .group _ inner => [inner]

/-- The expressions that a statement itself consists of. -/
def Stmt.exprs : Stmt → List Expr
  | .letDecl _ _ initializer => initializer.toList
  | .function .. | .classDecl .. | .block .. | .break _ => []
  | .expression _ value | .print _ value => [value]
  | .conditional _ condition _ _ | .while _ condition _ => [condition]
  | .return _ value => value.toList

/-- The statements that a statement consists of. -/
def Stmt.parts : Stmt → List Stmt
  | .block _ body => body
  | .conditional _ _ thenBranch elseBranch => thenBranch :: elseBranch.toList
  | .while _ _ body => [body]
  | _ => []

/-- The name that an expression itself assigns to. -/
def Expr.assigned? : Expr → Option String
  | .assign _ name _ => some name
  | _ => none

/-- The name that a statement itself declares. -/
def Stmt.declared? : Stmt → Option String
  | .letDecl _ name _ | .classDecl _ name _ _ => some name
  | .function _ decl => some decl.name
  | _ => none

/-- The functions or methods that a statement itself declares. -/
def Stmt.functions : Stmt → List FunctionDecl
  | .function _ decl => [decl]
  | .classDecl _ _ _ methods => methods
  | _ => []

end EventScript
