import EventScript.Syntax.Parse

/-!
# Trees without their spans

`Expr.bare` and its companions put one and the same span everywhere in a tree. Two trees are the
same up to spans if they are the same then.
-/

namespace EventScript

mutual

/-- The expression without its spans. -/
def Expr.bare : Expr → Expr
  | .literal _ value => .literal default value
  | .variable _ name => .variable default name
  | .assign _ name value => .assign default name value.bare
  | .binary _ op left right => .binary default op left.bare right.bare
  | .logical _ op left right => .logical default op left.bare right.bare
  | .unary _ op operand => .unary default op operand.bare
  | .call _ callee arguments => .call default callee.bare (Expr.bareAll arguments)
  | .get _ object name => .get default object.bare name
  | .set _ object name value => .set default object.bare name value.bare
  | .group _ inner => .group default inner.bare
  | .this _ => .this default
  | .super _ method => .super default method

/-- The expressions without their spans. -/
def Expr.bareAll : List Expr → List Expr
  | [] => []
  | value :: others => value.bare :: Expr.bareAll others

end

/-- The expression without its spans, if there is one. -/
def Expr.bare? : Option Expr → Option Expr
  | none => none
  | some value => some value.bare

/-- The parameter without its span. -/
def Parameter.bare (parameter : Parameter) : Parameter := ⟨parameter.name, default⟩

/-- The name of a superclass without its span. -/
def SuperclassName.bare (superclass : SuperclassName) : SuperclassName := ⟨superclass.name, default⟩

mutual

/-- The statement without its spans. -/
def Stmt.bare : Stmt → Stmt
  | .letDecl _ name initializer => .letDecl default name (Expr.bare? initializer)
  | .function _ decl => .function default decl.bare
  | .classDecl _ name superclass methods =>
    .classDecl default name (superclass.map SuperclassName.bare) (FunctionDecl.bareAll methods)
  | .expression _ value => .expression default value.bare
  | .print _ value => .print default value.bare
  | .block _ body => .block default (Stmt.bareAll body)
  | .conditional _ condition thenBranch elseBranch =>
    .conditional default condition.bare thenBranch.bare (Stmt.bare? elseBranch)
  | .while _ condition body => .while default condition.bare body.bare
  | .return _ value => .return default (Expr.bare? value)
  | .break _ => .break default

/-- The statement without its spans, if there is one. -/
def Stmt.bare? : Option Stmt → Option Stmt
  | none => none
  | some stmt => some stmt.bare

/-- The statements without their spans. -/
def Stmt.bareAll : List Stmt → List Stmt
  | [] => []
  | stmt :: others => stmt.bare :: Stmt.bareAll others

/-- The function declaration without its spans. -/
def FunctionDecl.bare : FunctionDecl → FunctionDecl
  | ⟨name, parameters, body, _⟩ => ⟨name, parameters.map Parameter.bare, Stmt.bareAll body, default⟩

/-- The function declarations without their spans. -/
def FunctionDecl.bareAll : List FunctionDecl → List FunctionDecl
  | [] => []
  | decl :: others => decl.bare :: FunctionDecl.bareAll others

end

/-- The program without its spans. -/
def Program.bare (program : Program) : Program := Stmt.bareAll program

/-- Operands that are the same up to spans are joined to such expressions. -/
theorem Parse.Connective.bare_join (connective : Connective) {left left' right right' : Expr}
    (sameLeft : left'.bare = left.bare) (sameRight : right'.bare = right.bare) :
    (connective.join left' right').bare = (connective.join left right).bare := by
  cases connective <;> simp only [join, Expr.bare, sameLeft, sameRight]

/-- Clauses and bodies that are the same up to spans make such loops. -/
theorem Parse.bare_forLoop {start start' separator separator' : Span}
    {initializer initializer' : Option Stmt}
    {condition condition' increment increment' : Option Expr}
    {body body' : Stmt} (sameFirst : Stmt.bare? initializer' = Stmt.bare? initializer)
    (sameCondition : Expr.bare? condition' = Expr.bare? condition)
    (sameIncrement : Expr.bare? increment' = Expr.bare? increment)
    (sameBody : body'.bare = body.bare) :
    (forLoop start' initializer' condition' separator' increment' body').bare =
      (forLoop start initializer condition separator increment body).bare := by
  cases initializer <;> cases initializer' <;> cases condition <;> cases condition' <;>
    cases increment <;> cases increment' <;>
    simp_all [forLoop, Stmt.bare, Stmt.bareAll, Stmt.bare?, Expr.bare, Expr.bare?]

end EventScript
