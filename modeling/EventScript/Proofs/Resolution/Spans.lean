import EventScript.Proofs.Syntax.MapSpans
import EventScript.Syntax.Check

/-!
# The static rules and spans

The static rules do not depend on where in the text a program stands: the check of a program with
its spans changed finds the same violations at the changed spans. At top level there is no scope, so
a program and another behind it are checked as each would be by itself.
-/

namespace EventScript

/-- The diagnostic with its span changed, if it has one. -/
def Diagnostic.mapSpan (change : Span → Span) (diagnostic : Diagnostic) : Diagnostic :=
  { diagnostic with span := diagnostic.span.map change }

variable {change : Span → Span}

/-- The scope stays and the diagnostics are changed. -/
def Checked (change : Span → Span) (found : LocalScope × List Diagnostic) :
    LocalScope × List Diagnostic :=
  (found.1, found.2.map (Diagnostic.mapSpan change))

/-- Declaring a name elsewhere is reported there. -/
theorem LocalScope.declare_change (scope : LocalScope) (name : String) (span : Span) :
    scope.declare name (change span) = Checked change (scope.declare name span) := by
  cases scope with
  | none => rfl
  | some names =>
    simp only [declare, Checked]
    split <;> rfl

/-- Parameters that stand elsewhere are reported there. -/
theorem declareParameters_change (scope : LocalScope) (parameters : List Parameter) :
    declareParameters scope (parameters.map (Parameter.mapSpan change)) =
      Checked change (declareParameters scope parameters) := by
  induction parameters generalizing scope with
  | nil => rfl
  | cons parameter others ih =>
    simp only [List.map_cons, declareParameters, Parameter.mapSpan, LocalScope.declare_change, ih,
      Checked, List.map_append]

mutual

/-- The check of an expression goes along with a change of its spans. -/
theorem Expr.check_mapSpans (context : CodeContext) (pending : Option String) :
    (value : Expr) → (value.mapSpans change).check context pending =
      (value.check context pending).map (Diagnostic.mapSpan change)
  | .literal .. => rfl
  | .variable span name => by
    simp only [Expr.mapSpans, Expr.check]
    split <;> rfl
  | .assign _ _ value => Expr.check_mapSpans context pending value
  | .binary _ _ left right | .logical _ _ left right => by
    simp only [Expr.mapSpans, Expr.check, List.map_append, Expr.check_mapSpans context pending left,
      Expr.check_mapSpans context pending right]
  | .unary _ _ operand => Expr.check_mapSpans context pending operand
  | .call _ callee arguments => by
    simp only [Expr.mapSpans, Expr.check, List.map_append,
      Expr.check_mapSpans context pending callee,
      checkArguments_mapSpans context pending arguments]
  | .get _ object _ => Expr.check_mapSpans context pending object
  | .set _ object _ value => by
    simp only [Expr.mapSpans, Expr.check, List.map_append,
      Expr.check_mapSpans context pending object,
      Expr.check_mapSpans context pending value]
  | .group _ inner => Expr.check_mapSpans context pending inner
  | .this _ => by
    simp only [Expr.mapSpans, Expr.check]
    split <;> rfl
  | .super _ _ => by
    simp only [Expr.mapSpans, Expr.check]
    split <;> rfl

/-- Arguments with changed spans break the same rules, elsewhere. -/
theorem checkArguments_mapSpans (context : CodeContext) (pending : Option String) :
    (arguments : List Expr) → checkArguments context pending (Expr.mapAllSpans change arguments) =
      (checkArguments context pending arguments).map (Diagnostic.mapSpan change)
  | [] => rfl
  | first :: rest => by
    simp only [Expr.mapAllSpans, checkArguments, List.map_append,
      Expr.check_mapSpans context pending first, checkArguments_mapSpans context pending rest]

end

/-- A superclass with a changed span breaks the same rules, elsewhere. -/
theorem SuperclassName.check_mapSpan (className : String) (superclass : SuperclassName) :
    (superclass.mapSpan change).check className =
      (superclass.check className).map (Diagnostic.mapSpan change) := by
  by_cases itself : superclass.name = className
  · have itself' : (superclass.mapSpan change).name = className := itself
    rw [SuperclassName.check, SuperclassName.check, if_pos itself, if_pos itself']
    rfl
  · have other' : (superclass.mapSpan change).name ≠ className := itself
    rw [SuperclassName.check, SuperclassName.check, if_neg itself, if_neg other']
    rfl

/-- The name of a method says what its body may do, wherever it stands. -/
theorem FunctionDecl.methodContext_mapSpans (decl : FunctionDecl) :
    (decl.mapSpans change).methodContext = decl.methodContext := by
  rw [methodContext, methodContext, isInitializer, isInitializer, mapSpans_name]

/-- A return that stands elsewhere is reported there. -/
theorem checkReturn_change (context : CodeContext) (span : Span) (withValue : Bool) :
    checkReturn context (change span) withValue =
      (checkReturn context span withValue).map (Diagnostic.mapSpan change) := by
  unfold checkReturn
  split
  · rfl
  · split <;> rfl
  · rfl

mutual

/-- The check of a statement goes along with a change of its spans. -/
theorem Stmt.check_mapSpans (context : CodeContext) (scope : LocalScope) :
    (stmt : Stmt) → (stmt.mapSpans change).check context scope =
      Checked change (stmt.check context scope)
  | .letDecl span name initializer => by
    cases initializer with
    | none => exact LocalScope.declare_change scope name span
    | some value =>
      simp only [Stmt.mapSpans, Stmt.check, Option.map_some, LocalScope.declare_change,
        Expr.check_mapSpans, Checked, List.map_append]
  | .function _ decl => by
    simp only [Stmt.mapSpans, Stmt.check, FunctionDecl.mapSpans_name, FunctionDecl.mapSpans_span,
      LocalScope.declare_change, FunctionDecl.check_mapSpans _ decl, Checked, List.map_append]
  | .classDecl span name superclass methods => by
    have inside :
      checkMethods (context.insideClass (superclass.map (SuperclassName.mapSpan change)))
        (FunctionDecl.mapAllSpans change methods) =
          (checkMethods (context.insideClass superclass) methods).map
            (Diagnostic.mapSpan change) := by
      rw [← checkMethods_mapSpans _ methods]
      cases superclass <;> rfl
    simp only [Stmt.mapSpans, Stmt.check, LocalScope.declare_change, inside]
    cases superclass with
    | none => simp only [Option.map_none, Checked, List.map_append, List.map_nil]
    | some superclass =>
      simp only [Option.map_some, SuperclassName.check_mapSpan, Checked, List.map_append]
  | .expression _ value | .print _ value => by
    simp only [Stmt.mapSpans, Stmt.check, Expr.check_mapSpans, Checked]
  | .block _ body => by
    simp only [Stmt.mapSpans, Stmt.check, checkAll_mapSpans _ _ body, Checked]
  | .conditional _ condition thenBranch elseBranch => by
    cases elseBranch with
    | none =>
      simp only [Stmt.mapSpans, Stmt.mapSpans?, Stmt.check, Expr.check_mapSpans,
        Stmt.check_mapSpans _ _ thenBranch, Checked, List.map_append]
    | some branch =>
      simp only [Stmt.mapSpans, Stmt.mapSpans?, Stmt.check, Expr.check_mapSpans,
        Stmt.check_mapSpans _ _ thenBranch, Stmt.check_mapSpans _ _ branch, Checked,
          List.map_append]
  | .while _ condition body => by
    simp only [Stmt.mapSpans, Stmt.check, Expr.check_mapSpans, Stmt.check_mapSpans _ _ body,
      Checked,
      List.map_append]
  | .return span value => by
    cases value <;>
      simp only [Stmt.mapSpans, Stmt.check, Option.map_some, Option.map_none, checkReturn_change,
        Expr.check_mapSpans, Checked, List.map_append]
  | .break span => by
    simp only [Stmt.mapSpans, Stmt.check, Checked]
    split <;> rfl

/-- A function with changed spans breaks the same rules, elsewhere. -/
theorem FunctionDecl.check_mapSpans (context : CodeContext) :
    (decl : FunctionDecl) → (decl.mapSpans change).check context =
      (decl.check context).map (Diagnostic.mapSpan change)
  | ⟨_, parameters, body, _⟩ => by
    simp only [FunctionDecl.mapSpans, FunctionDecl.check, declareParameters_change, Checked,
      checkAll_mapSpans _ _ body, List.map_append]

/-- Methods with changed spans break the same rules, elsewhere. -/
theorem checkMethods_mapSpans (context : CodeContext) :
    (methods : List FunctionDecl) → checkMethods context (FunctionDecl.mapAllSpans change methods) =
      (checkMethods context methods).map (Diagnostic.mapSpan change)
  | [] => rfl
  | method :: rest => by
    simp only [FunctionDecl.mapAllSpans, checkMethods, FunctionDecl.methodContext_mapSpans,
      FunctionDecl.check_mapSpans _ method, checkMethods_mapSpans _ rest, List.map_append]

/-- Statements with changed spans break the same rules, elsewhere. -/
theorem checkAll_mapSpans (context : CodeContext) (scope : LocalScope) :
    (body : List Stmt) → checkAll context scope (Stmt.mapAllSpans change body) =
      Checked change (checkAll context scope body)
  | [] => rfl
  | first :: rest => by
    simp only [Stmt.mapAllSpans, checkAll, Stmt.check_mapSpans _ _ first,
      checkAll_mapSpans _ _ rest,
      Checked, List.map_append]

end

/-! ## Top level -/

/-- A program with changed spans breaks the same rules, elsewhere. -/
theorem Program.check_mapSpans (program : Program) :
    (program.mapSpans change).check = program.check.map (Diagnostic.mapSpan change) := by
  have checked := @checkAll_mapSpans change {} none program
  rw [Stmt.mapAllSpans_eq] at checked
  exact congrArg Prod.snd checked

/-- At top level no statement leaves a scope behind. -/
theorem Stmt.check_scope_none (context : CodeContext) :
    (stmt : Stmt) → (stmt.check context none).1 = none
  | .letDecl _ _ none | .letDecl _ _ (some _) => rfl
  | .function .. | .classDecl .. | .expression .. | .print .. | .block .. | .break _ => rfl
  | .return _ none | .return _ (some _) => rfl
  | .conditional _ _ thenBranch none => by
    simp only [Stmt.check, thenBranch.check_scope_none]
  | .conditional _ _ thenBranch (some elseBranch) => by
    simp only [Stmt.check, thenBranch.check_scope_none, elseBranch.check_scope_none]
  | .while _ _ body => by
    simp only [Stmt.check, body.check_scope_none]

/-- One program behind another is checked as it is by itself. -/
theorem Program.check_append (first second : Program) :
    (first ++ second : Program).check = first.check ++ second.check := by
  unfold Program.check
  induction first with
  | nil => rfl
  | cons stmt others ih =>
    simp only [List.cons_append, checkAll, stmt.check_scope_none, ih, List.append_assoc]

end EventScript
