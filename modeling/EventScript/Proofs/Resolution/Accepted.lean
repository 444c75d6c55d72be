import EventScript.Proofs.Syntax.Parts
import EventScript.Syntax.Check

/-!
# Accepted code

Code is accepted in a class context when it breaks no static rule somewhere in such a context. The
parts of accepted code are accepted in the same context, except that the methods of a class are
accepted in the context of that class. With `Expr.Accepted.this` and `Expr.Accepted.super` this is
all that running a program needs to know of its check as far as `this` and `super` are concerned.
-/

namespace EventScript

/-- The expression breaks no rule somewhere in a class context. -/
def Expr.Accepted (cls : ClassContext) (expr : Expr) : Prop :=
  ∃ context pending, context.cls = cls ∧ expr.check context pending = []

/-- The statement breaks no rule somewhere in a class context. -/
def Stmt.Accepted (cls : ClassContext) (stmt : Stmt) : Prop :=
  ∃ context scope, context.cls = cls ∧ (stmt.check context scope).2 = []

/-- The declaration breaks no rule somewhere in a class context. -/
def FunctionDecl.Accepted (cls : ClassContext) (decl : FunctionDecl) : Prop :=
  ∃ context, context.cls = cls ∧ decl.check context = []

/-- The arguments of a call break no rule if their check finds none. -/
theorem argument_clear {context : CodeContext} {pending : Option String} {arguments : List Expr}
    (clear : checkArguments context pending arguments = []) :
    ∀ argument ∈ arguments, argument.check context pending = [] := by
  induction arguments with
  | nil => exact nofun
  | cons first rest ih =>
    obtain ⟨firstClear, restClear⟩ := List.append_eq_nil_iff.mp clear
    intro argument member
    rcases List.mem_cons.mp member with rfl | inRest
    · exact firstClear
    · exact ih restClear argument inRest

/-- A conditional breaks no rule if its condition and its branches, one after the other, do not. -/
theorem conditional_clear {context : CodeContext} {scope : LocalScope} {span : Span}
    {condition : Expr}
    {thenBranch : Stmt} {elseBranch : Option Stmt} :
    ((Stmt.conditional span condition thenBranch elseBranch).check context scope).2 = [] ↔
      condition.check context none = [] ∧ (thenBranch.check context scope).2 = [] ∧
        ∀ branch ∈ elseBranch,
          (branch.check context (thenBranch.check context scope).1).2 = [] := by
  cases elseBranch with
  | none => exact List.append_eq_nil_iff.trans ⟨fun both => ⟨both.1, both.2, nofun⟩, fun all =>
      ⟨all.1, all.2.1⟩⟩
  | some branch =>
    refine List.append_eq_nil_iff.trans ⟨fun both => ?_, fun all => ?_⟩
    · obtain ⟨first, second⟩ := List.append_eq_nil_iff.mp both.1
      exact ⟨first, second, fun _ member => Option.some.inj member ▸ both.2⟩
    · exact ⟨List.append_eq_nil_iff.mpr ⟨all.1, all.2.1⟩, all.2.2 branch rfl⟩

/-- The parts of an accepted expression are accepted. -/
theorem Expr.Accepted.part {cls : ClassContext} {expr part : Expr} (accepted : expr.Accepted cls)
    (member : part ∈ expr.parts) : part.Accepted cls := by
  obtain ⟨context, pending, same, clear⟩ := accepted
  refine ⟨context, pending, same, ?_⟩
  cases expr with
  | literal | «variable» | this | super => contradiction
  | assign | unary | get | group =>
    rw [List.mem_singleton.mp member]
    exact clear
  | binary span op left right | logical span op left right =>
    obtain ⟨leftClear, rightClear⟩ := List.append_eq_nil_iff.mp clear
    rcases List.mem_cons.mp member with rfl | inRest
    · exact leftClear
    · rw [List.mem_singleton.mp inRest]
      exact rightClear
  | set span object name value =>
    obtain ⟨valueClear, objectClear⟩ := List.append_eq_nil_iff.mp clear
    rcases List.mem_cons.mp member with rfl | inRest
    · exact objectClear
    · rw [List.mem_singleton.mp inRest]
      exact valueClear
  | call span callee arguments =>
    obtain ⟨calleeClear, argumentsClear⟩ := List.append_eq_nil_iff.mp clear
    rcases List.mem_cons.mp member with rfl | inArguments
    · exact calleeClear
    · exact argument_clear argumentsClear part inArguments

/-- Where `this` is accepted there is a class around. -/
theorem Expr.Accepted.this {cls : ClassContext} {span : Span}
    (accepted : (Expr.this span).Accepted cls) : cls ≠ .none := by
  obtain ⟨context, pending, rfl, clear⟩ := accepted
  intro none
  rw [Expr.check, none] at clear
  contradiction

/-- Where `super` is accepted the class around has a superclass. -/
theorem Expr.Accepted.super {cls : ClassContext} {span : Span} {name : String}
    (accepted : (Expr.super span name).Accepted cls) : cls = .subclass := by
  obtain ⟨context, pending, rfl, clear⟩ := accepted
  cases inside : context.cls with
  | none =>
    rw [Expr.check, inside] at clear
    contradiction
  | baseClass =>
    rw [Expr.check, inside] at clear
    contradiction
  | subclass => rfl

/-- Statements one after the other break no rule if their check finds no violations. -/
theorem Stmt.clear_of_checkAll {context : CodeContext} {scope : LocalScope} {body : List Stmt}
    (clear : (checkAll context scope body).2 = []) :
    ∀ stmt ∈ body, ∃ scope, (stmt.check context scope).2 = [] := by
  induction body generalizing scope with
  | nil => exact nofun
  | cons first rest ih =>
    obtain ⟨firstClear, restClear⟩ := List.append_eq_nil_iff.mp clear
    exact List.forall_mem_cons.mpr ⟨⟨scope, firstClear⟩, ih restClear⟩

/-- Statements one after the other are accepted if their check finds no violations. -/
theorem Stmt.accepted_of_checkAll {context : CodeContext} {scope : LocalScope} {body : List Stmt}
    (clear : (checkAll context scope body).2 = []) : ∀ stmt ∈ body, stmt.Accepted context.cls :=
  fun stmt member =>
    (Stmt.clear_of_checkAll clear stmt member).imp' _ fun _ clear => ⟨_, rfl, clear⟩

/-- A function breaks no rule if its parameters and its body, in the scope with these, do not. -/
theorem FunctionDecl.clear_iff {context : CodeContext} {decl : FunctionDecl} :
    decl.check context = [] ↔
      (declareParameters (some []) decl.parameters).2 = [] ∧
        (checkAll context (declareParameters (some []) decl.parameters).1 decl.body).2 = [] := by
  obtain ⟨name, parameters, body, span⟩ := decl
  exact List.append_eq_nil_iff

/-- The statements of an accepted declaration are accepted. -/
theorem FunctionDecl.Accepted.body {cls : ClassContext} {decl : FunctionDecl}
    (accepted : decl.Accepted cls) : ∀ stmt ∈ decl.body, stmt.Accepted cls := by
  obtain ⟨context, rfl, clear⟩ := accepted
  exact Stmt.accepted_of_checkAll (FunctionDecl.clear_iff.mp clear).2

/-- The expressions of an accepted statement are accepted. -/
theorem Stmt.Accepted.expr {cls : ClassContext} {stmt : Stmt} {expr : Expr}
    (accepted : stmt.Accepted cls) (member : expr ∈ stmt.exprs) : expr.Accepted cls := by
  obtain ⟨context, scope, same, clear⟩ := accepted
  cases stmt with
  | function | classDecl | block | «break» => contradiction
  | letDecl span name initializer =>
    cases initializer with
    | none => contradiction
    | some value =>
      rw [List.mem_singleton.mp member]
      exact ⟨context, _, same, (List.append_eq_nil_iff.mp clear).2⟩
  | expression | print =>
    rw [List.mem_singleton.mp member]
    exact ⟨context, _, same, clear⟩
  | conditional span condition thenBranch elseBranch =>
    rw [List.mem_singleton.mp member]
    exact ⟨context, none, same, (conditional_clear.mp clear).1⟩
  | «while» =>
    rw [List.mem_singleton.mp member]
    exact ⟨context, none, same, (List.append_eq_nil_iff.mp clear).1⟩
  | «return» span value =>
    cases value with
    | none => contradiction
    | some value =>
      rw [List.mem_singleton.mp member]
      exact ⟨context, none, same, (List.append_eq_nil_iff.mp clear).2⟩

/-- The parts of an accepted statement are accepted. -/
theorem Stmt.Accepted.part {cls : ClassContext} {stmt part : Stmt} (accepted : stmt.Accepted cls)
    (member : part ∈ stmt.parts) : part.Accepted cls := by
  obtain ⟨context, scope, same, clear⟩ := accepted
  cases stmt with
  | letDecl | function | classDecl | expression | print | «return» | «break» => contradiction
  | block span body => exact same ▸ Stmt.accepted_of_checkAll clear part member
  | conditional span condition thenBranch elseBranch =>
    obtain ⟨-, thenClear, elseClear⟩ := conditional_clear.mp clear
    rcases List.mem_cons.mp member with rfl | inElse
    · exact ⟨context, scope, same, thenClear⟩
    · exact ⟨context, _, same, elseClear part (Option.mem_toList.mp inElse)⟩
  | «while» span condition body =>
    rw [List.mem_singleton.mp member]
    exact ⟨{ context with inLoop := true }, scope, same, (List.append_eq_nil_iff.mp clear).2⟩

/-- The function of an accepted declaration is accepted. -/
theorem Stmt.Accepted.function {cls : ClassContext} {span : Span} {decl : FunctionDecl}
    (accepted : (Stmt.function span decl).Accepted cls) : decl.Accepted cls := by
  obtain ⟨context, scope, same, clear⟩ := accepted
  exact ⟨context.insideFunction .function, same, (List.append_eq_nil_iff.mp clear).2⟩

/-- Methods are accepted if the check of all of them finds no violations. -/
theorem FunctionDecl.accepted_of_checkMethods {context : CodeContext} {methods : List FunctionDecl}
    (clear : checkMethods context methods = []) :
    ∀ method ∈ methods, method.Accepted context.cls := by
  induction methods with
  | nil => exact nofun
  | cons first rest ih =>
    obtain ⟨firstClear, restClear⟩ := List.append_eq_nil_iff.mp clear
    intro method member
    rcases List.mem_cons.mp member with rfl | inRest
    · exact ⟨context.insideFunction method.methodContext, rfl, firstClear⟩
    · exact ih restClear method inRest

/-- The methods of an accepted class declaration are accepted in the context of that class. -/
theorem Stmt.Accepted.methods {cls : ClassContext} {span : Span} {name : String}
    {superclass : Option SuperclassName} {methods : List FunctionDecl}
    (accepted : (Stmt.classDecl span name superclass methods).Accepted cls) :
    ∀ method ∈ methods,
      method.Accepted (if superclass.isSome then .subclass else .baseClass) := by
  obtain ⟨context, scope, same, clear⟩ := accepted
  exact FunctionDecl.accepted_of_checkMethods (List.append_eq_nil_iff.mp clear).2

/-- The statements of a program without violations are accepted outside of all classes. -/
theorem Program.accepted_of_check {program : Program} (clear : program.check = []) :
    ∀ stmt ∈ program, stmt.Accepted .none := Stmt.accepted_of_checkAll clear

end EventScript
