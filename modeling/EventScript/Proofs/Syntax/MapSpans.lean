import EventScript.Syntax.Parse

/-!
# Trees with their spans changed

`Expr.mapSpans` and its companions apply a function to every span in a tree and leave the rest as it
is. What the parser makes of trees that it has read goes on in the same way on the changed ones, if
the function goes along with joining spans.
-/

namespace EventScript

mutual

/-- The expression with its spans changed. -/
def Expr.mapSpans (change : Span → Span) : Expr → Expr
  | .literal span value => .literal (change span) value
  | .variable span name => .variable (change span) name
  | .assign span name value => .assign (change span) name (value.mapSpans change)
  | .binary span op left right =>
    .binary (change span) op (left.mapSpans change) (right.mapSpans change)
  | .logical span op left right =>
    .logical (change span) op (left.mapSpans change) (right.mapSpans change)
  | .unary span op operand => .unary (change span) op (operand.mapSpans change)
  | .call span callee arguments =>
    .call (change span) (callee.mapSpans change) (Expr.mapAllSpans change arguments)
  | .get span object name => .get (change span) (object.mapSpans change) name
  | .set span object name value =>
    .set (change span) (object.mapSpans change) name (value.mapSpans change)
  | .group span inner => .group (change span) (inner.mapSpans change)
  | .this span => .this (change span)
  | .super span method => .super (change span) method

/-- The expressions with their spans changed. -/
def Expr.mapAllSpans (change : Span → Span) : List Expr → List Expr
  | [] => []
  | value :: others => value.mapSpans change :: Expr.mapAllSpans change others

end

/-- The parameter with its span changed. -/
def Parameter.mapSpan (change : Span → Span) (parameter : Parameter) : Parameter :=
  { parameter with span := change parameter.span }

/-- The name of a superclass with its span changed. -/
def SuperclassName.mapSpan (change : Span → Span) (superclass : SuperclassName) : SuperclassName :=
  { superclass with span := change superclass.span }

mutual

/-- The statement with its spans changed. -/
def Stmt.mapSpans (change : Span → Span) : Stmt → Stmt
  | .letDecl span name initializer =>
    .letDecl (change span) name (initializer.map (Expr.mapSpans change))
  | .function span decl => .function (change span) (decl.mapSpans change)
  | .classDecl span name superclass methods =>
    .classDecl (change span) name (superclass.map (SuperclassName.mapSpan change))
      (FunctionDecl.mapAllSpans change methods)
  | .expression span value => .expression (change span) (value.mapSpans change)
  | .print span value => .print (change span) (value.mapSpans change)
  | .block span body => .block (change span) (Stmt.mapAllSpans change body)
  | .conditional span condition thenBranch elseBranch =>
    .conditional (change span) (condition.mapSpans change) (thenBranch.mapSpans change)
      (Stmt.mapSpans? change elseBranch)
  | .while span condition body =>
    .while (change span) (condition.mapSpans change) (body.mapSpans change)
  | .return span value => .return (change span) (value.map (Expr.mapSpans change))
  | .break span => .break (change span)

/-- The statement with its spans changed, if there is one. -/
def Stmt.mapSpans? (change : Span → Span) : Option Stmt → Option Stmt
  | none => none
  | some stmt => some (stmt.mapSpans change)

/-- The statements with their spans changed. -/
def Stmt.mapAllSpans (change : Span → Span) : List Stmt → List Stmt
  | [] => []
  | stmt :: others => stmt.mapSpans change :: Stmt.mapAllSpans change others

/-- The function declaration with its spans changed. -/
def FunctionDecl.mapSpans (change : Span → Span) : FunctionDecl → FunctionDecl
  | ⟨name, parameters, body, span⟩ =>
    ⟨name, parameters.map (Parameter.mapSpan change), Stmt.mapAllSpans change body, change span⟩

/-- The function declarations with their spans changed. -/
def FunctionDecl.mapAllSpans (change : Span → Span) : List FunctionDecl → List FunctionDecl
  | [] => []
  | decl :: others => decl.mapSpans change :: FunctionDecl.mapAllSpans change others

end

/-- The program with its spans changed. -/
def Program.mapSpans (change : Span → Span) (program : Program) : Program :=
  List.map (Stmt.mapSpans change) program

variable {change : Span → Span}

/-- The spans of several expressions are changed in each of them. -/
theorem Expr.mapAllSpans_eq (values : List Expr) :
    mapAllSpans change values = values.map (mapSpans change) := by
  induction values with
  | nil => rfl
  | cons value others ih => rw [mapAllSpans, ih, List.map_cons]

/-- The spans of several statements are changed in each of them. -/
theorem Stmt.mapAllSpans_eq (body : List Stmt) :
    mapAllSpans change body = body.map (mapSpans change) := by
  induction body with
  | nil => rfl
  | cons stmt others ih => rw [mapAllSpans, ih, List.map_cons]

/-- The spans of several functions are changed in each of them. -/
theorem FunctionDecl.mapAllSpans_eq (methods : List FunctionDecl) :
    mapAllSpans change methods = methods.map (mapSpans change) := by
  induction methods with
  | nil => rfl
  | cons decl others ih => rw [mapAllSpans, ih, List.map_cons]

/-- The span of an expression is changed with the others. -/
@[simp] theorem Expr.mapSpans_span (value : Expr) :
    (value.mapSpans change).span = change value.span := by
  cases value <;> rfl

/-- The span of a statement is changed with the others. -/
@[simp] theorem Stmt.mapSpans_span (stmt : Stmt) :
    (stmt.mapSpans change).span = change stmt.span := by
  cases stmt <;> rfl

/-- The span of a function is changed with the others. -/
@[simp] theorem FunctionDecl.mapSpans_span (decl : FunctionDecl) :
    (decl.mapSpans change).span = change decl.span := by
  cases decl
  rfl

/-- Changing its spans leaves the name of a function. -/
@[simp] theorem FunctionDecl.mapSpans_name (decl : FunctionDecl) :
    (decl.mapSpans change).name = decl.name := by
  cases decl
  rfl

namespace Parse

/-- The expression that joins two others is joined from the changed ones. -/
theorem Connective.mapSpans_join
    (upTo : ∀ first last, change (first.upTo last) = (change first).upTo (change last))
    (connective : Connective) (left right : Expr) :
    (connective.join left right).mapSpans change =
      connective.join (left.mapSpans change) (right.mapSpans change) := by
  cases connective <;> simp only [join, Expr.mapSpans, Expr.mapSpans_span, upTo]

/-- A loop is made of the changed clauses. -/
theorem mapSpans_forLoop
    (upTo : ∀ first last, change (first.upTo last) = (change first).upTo (change last))
    (start separator : Span) (initializer : Option Stmt) (condition increment : Option Expr)
    (body : Stmt) :
    (forLoop start initializer condition separator increment body).mapSpans change =
      forLoop (change start) (initializer.map (Stmt.mapSpans change))
        (condition.map (Expr.mapSpans change)) (change separator)
        (increment.map (Expr.mapSpans change)) (body.mapSpans change) := by
  cases initializer <;> cases condition <;> cases increment <;>
    simp only [forLoop, Stmt.mapSpans, Stmt.mapAllSpans, Expr.mapSpans, Option.map_some,
      Option.map_none, Option.getD_some, Option.getD_none, Expr.mapSpans_span,
        Stmt.mapSpans_span, upTo]

/-- What a token stands for by itself it stands for at the changed span. -/
theorem atom?_change (span : Span) (kind : TokenKind) :
    atom? (change span) kind = (atom? span kind).map (Expr.mapSpans change) := by
  cases kind with
  | keyword keyword => cases keyword <;> rfl
  | _ => rfl

end Parse

end EventScript
