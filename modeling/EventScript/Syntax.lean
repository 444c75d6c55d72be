import EventScript.Span

/-!
# Syntax trees

Expressions, statements and function declarations. Every node carries the span of the source it was
read from; `Expr.span` and `Stmt.span` give it for any form.
-/

namespace EventScript

/-- The value of a literal. -/
inductive Literal where
  | number (value : Float)
  | text (value : String)
  | bool (value : Bool)
  | nil

/-- Operators on two values. -/
inductive BinaryOp where
  | add | subtract | multiply | divide
  | equal | notEqual | less | lessEqual | greater | greaterEqual
deriving DecidableEq, Inhabited

/-- The written form of an operator. -/
def BinaryOp.spelling : BinaryOp → String
  | .add => "+"
  | .subtract => "-"
  | .multiply => "*"
  | .divide => "/"
  | .equal => "=="
  | .notEqual => "!="
  | .less => "<"
  | .lessEqual => "<="
  | .greater => ">"
  | .greaterEqual => ">="

/-- Operators that may leave their right operand unevaluated. -/
inductive LogicalOp where
  | and | or
deriving DecidableEq, Inhabited

/-- Operators on one value. -/
inductive UnaryOp where
  | negate | not
deriving DecidableEq, Inhabited

/-- A parameter of a function. -/
structure Parameter where
  name : String
  span : Span
deriving DecidableEq, Inhabited

/-- The superclass that a class declaration names. -/
structure SuperclassName where
  name : String
  span : Span
deriving DecidableEq, Inhabited

/-- Expressions. -/
inductive Expr where
  | literal (span : Span) (value : Literal)
  | variable (span : Span) (name : String)
  | assign (span : Span) (name : String) (value : Expr)
  | binary (span : Span) (op : BinaryOp) (left right : Expr)
  | logical (span : Span) (op : LogicalOp) (left right : Expr)
  | unary (span : Span) (op : UnaryOp) (operand : Expr)
  | call (span : Span) (callee : Expr) (arguments : List Expr)
  /-- The property `name` of an object. -/
  | get (span : Span) (object : Expr) (name : String)
  /-- Storing a field of an object. -/
  | set (span : Span) (object : Expr) (name : String) (value : Expr)
  /-- An expression in brackets. -/
  | group (span : Span) (inner : Expr)
  | this (span : Span)
  | super (span : Span) (method : String)

/-- The span of an expression. -/
def Expr.span : Expr → Span
  | .literal span _ => span
  | .variable span _ => span
  | .assign span _ _ => span
  | .binary span _ _ _ => span
  | .logical span _ _ _ => span
  | .unary span _ _ => span
  | .call span _ _ => span
  | .get span _ _ => span
  | .set span _ _ _ => span
  | .group span _ => span
  | .this span => span
  | .super span _ => span

mutual

/-- Statements. -/
inductive Stmt where
  | letDecl (span : Span) (name : String) (initializer : Option Expr)
  | function (span : Span) (decl : FunctionDecl)
  | classDecl (span : Span) (name : String) (superclass : Option SuperclassName)
      (methods : List FunctionDecl)
  | expression (span : Span) (value : Expr)
  | print (span : Span) (value : Expr)
  | block (span : Span) (body : List Stmt)
  | conditional (span : Span) (condition : Expr) (thenBranch : Stmt) (elseBranch : Option Stmt)
  | while (span : Span) (condition : Expr) (body : Stmt)
  | return (span : Span) (value : Option Expr)
  | break (span : Span)

/-- A named function or method. Its span runs from its name to the end of its body. -/
structure FunctionDecl where
  name : String
  parameters : List Parameter
  body : List Stmt
  span : Span

end

/-- The span of a statement. -/
def Stmt.span : Stmt → Span
  | .letDecl span _ _ => span
  | .function span _ => span
  | .classDecl span _ _ _ => span
  | .expression span _ => span
  | .print span _ => span
  | .block span _ => span
  | .conditional span _ _ _ => span
  | .while span _ _ => span
  | .return span _ => span
  | .break span => span

/-- The name under which a class declares its initializer. -/
def FunctionDecl.initializerName : String := "init"

/-- Whether a method of this declaration is an initializer. -/
def FunctionDecl.isInitializer (decl : FunctionDecl) : Bool :=
  decl.name == initializerName

/-- A program is the list of its statements. -/
abbrev Program := List Stmt

end EventScript
