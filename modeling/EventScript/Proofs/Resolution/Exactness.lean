import EventScript.Proofs.Resolution.Breach
import EventScript.Proofs.Syntax.Branches

/-!
# The check reports every breach once

The check of a program reports all its breaches, each with one diagnostic, and nothing else
(`Program.check_exact`). What the check carries inward fits what is around each site, so the proof
is one pass over expressions and one over statements.
-/

namespace EventScript

open Breach

/-- The context and the pending variable say of what is around an expression what matters to it. -/
structure Site.Surrounds (around : Site) (context : CodeContext) (pending : Option String) :
    Prop where
  cls : context.cls = .ofNearest around.class?
  pending : ∀ name, pending = some name ↔ around.Initializes name

/-- What surrounds an expression surrounds its parts. -/
theorem Site.Surrounds.inner {around : Site} {context : CodeContext} {pending : Option String}
    (surrounds : around.Surrounds context pending) {position : Nat} {value : Expr} :
    Surrounds (⟨position, .expr value⟩ :: around) context pending where
  cls := surrounds.cls.trans (congrArg _ (Site.class?_cons_of_none rfl).symm)
  pending name := (surrounds.pending name).trans Site.initializes_expr.symm

mutual

/-- The check of an expression reports the breaches inside it. -/
theorem Expr.checksExactly {context : CodeContext} {pending : Option String} {around : Site}
    {position : Nat} (surrounds : around.Surrounds context pending) :
    (value : Expr) → ReportedBy (Inside (⟨position, .expr value⟩ :: around))
      (value.check context pending)
  | .literal .. => reported_among_nil.inner nofun
  | .variable span name => by
    refine .leaf (reported_at_one ?_ ?_) rfl
    · rw [surrounds.pending]
      exact ⟨fun | .readInOwnInitializer inside => inside, .readInOwnInitializer⟩
    · intro _ _ breaks
      cases breaks with
      | redeclared _ declares => contradiction
      | readInOwnInitializer => exact ⟨rfl, rfl⟩
  | .assign _ _ value => (ReportedBy.single (Expr.checksExactly surrounds.inner value)).inner nofun
  | .binary _ _ left right | .logical _ _ left right =>
    ((Expr.checksExactly surrounds.inner left).cons
      (.single (Expr.checksExactly surrounds.inner right))).inner nofun
  | .unary _ _ operand =>
      (ReportedBy.single (Expr.checksExactly surrounds.inner operand)).inner nofun
  | .call _ callee arguments =>
    ((Expr.checksExactly surrounds.inner callee).cons
      (checkArguments_exact surrounds.inner arguments)).inner nofun
  | .get _ object _ => (ReportedBy.single (Expr.checksExactly surrounds.inner object)).inner nofun
  | .set _ object _ value =>
    -- The value is checked before the object that stands before it.
    (ReportedBy.swap ((Expr.checksExactly surrounds.inner object).cons
      (.single (Expr.checksExactly surrounds.inner value)))).inner nofun
  | .group _ inner => (ReportedBy.single (Expr.checksExactly surrounds.inner inner)).inner nofun
  | .this span => by
    have own : (Expr.this span).check context pending =
        if context.cls = .none then [Violation.thisOutsideClass.diagnostic span] else [] := by
      rw [Expr.check]
      cases context.cls <;> rfl
    rw [own]
    refine .leaf (reported_at_one ?_ ?_) rfl
    · rw [surrounds.cls, ClassContext.ofNearest_eq_none]
      exact ⟨fun | .thisOutsideClass outside => outside, .thisOutsideClass⟩
    · intro _ _ breaks
      cases breaks with
      | redeclared _ declares => contradiction
      | thisOutsideClass => exact ⟨rfl, rfl⟩
  | .super span method => by
    have own : (Expr.super span method).check context pending =
        (if context.cls = .none then [Violation.superOutsideClass.diagnostic span] else []) ++
          if context.cls = .baseClass then [Violation.superWithoutSuperclass.diagnostic span]
          else [] := by
      rw [Expr.check]
      cases context.cls <;> rfl
    rw [own]
    refine .leaf (reported_at_two nofun ?_ ?_ ?_) rfl
    · rw [surrounds.cls, ClassContext.ofNearest_eq_none]
      exact ⟨fun | .superOutsideClass outside => outside, .superOutsideClass⟩
    · rw [surrounds.cls, ClassContext.ofNearest_eq_baseClass]
      exact ⟨fun | .superWithoutSuperclass inside => inside, .superWithoutSuperclass⟩
    · intro _ _ breaks
      cases breaks with
      | redeclared _ declares => contradiction
      | superOutsideClass => exact .inl ⟨rfl, rfl⟩
      | superWithoutSuperclass => exact .inr ⟨rfl, rfl⟩

/-- The check of arguments reports just the breaches among them. -/
theorem checkArguments_exact {context : CodeContext} {pending : Option String} {around : Site}
    {position : Nat} (surrounds : around.Surrounds context pending) :
    (arguments : List Expr) → ReportedBy (Among around position (arguments.map .expr))
      (checkArguments context pending arguments)
  | [] => reported_among_nil
  | first :: rest =>
    (Expr.checksExactly surrounds first).cons (checkArguments_exact surrounds rest)

end

/-! ## Statements -/

/-- The expressions of a statement that declares nothing initialize no variable. -/
theorem CodeContext.Fits.surrounds {context : CodeContext} {parent : Step} {around : Site}
    {position : Nat} (fits : context.Fits (parent :: around)) (form : Stmt)
    (bare : form.declared? = none) :
    Site.Surrounds (⟨position, .stmt form⟩ :: parent :: around) context none where
  cls := by
    have notClass : (Node.stmt form).class? = none := by
      cases form with
      | classDecl => contradiction
      | _ => rfl
    exact fits.cls.trans (congrArg _ (Site.class?_cons_of_none notClass).symm)
  pending name := by
    rw [Site.initializes_stmt]
    refine iff_of_false nofun ?_
    rintro ⟨-, span, initializer, rfl⟩
    contradiction

/-- What declaring a name reports. -/
theorem LocalScope.declare_eq (scope : LocalScope) (name : String) (span : Span) :
    scope.declare name span = (scope.map (name :: ·),
      if name ∈ scope.getD [] then [(Violation.redeclared name).diagnostic span] else []) := by
  cases scope <;> rfl

/-- Only what declares a name declares it again. -/
theorem Site.Breaks.declared {position : Nat} {node : Node} {around : Site} {name : String}
    {span : Span}
    (breaks : Site.Breaks (⟨position, node⟩ :: around) (.redeclared name) span) :
    node.declared? = some (name, span) := by
  cases breaks with
  | redeclared _ declares => exact declares

/-- Declaring a name reports what is wrong with a node that can break no other rule. -/
theorem LocalScope.Fits.declare_exact {scope : LocalScope} {parent : Step} {around : Site}
    {position : Nat} {node : Node} {name : String} {span : Span}
    (fits : scope.Fits parent.node position) (declares : node.declared? = some (name, span))
    (only : ∀ violation target,
      Site.Breaks (⟨position, node⟩ :: parent :: around) violation target →
      ∃ other, violation = .redeclared other) :
    ReportedBy (At (⟨position, node⟩ :: parent :: around)) (scope.declare name span).2 := by
  rw [LocalScope.declare_eq]
  refine reported_at_one (fits.redeclared_iff declares) fun violation target breaks => ?_
  obtain ⟨other, rfl⟩ := only violation target breaks
  obtain ⟨rfl, rfl⟩ := Prod.mk.inj (Option.some.inj (declares.symm.trans breaks.declared))
  exact ⟨rfl, rfl⟩

/-- The node at a position, and those behind it. -/
theorem Node.drop_children {parent node : Node} {position : Nat} {rest : List Node}
    (stand : parent.children.drop position = node :: rest) :
    parent.children[position]? = some node ∧ parent.children.drop (position + 1) = rest := by
  constructor
  · rw [← List.head?_drop, stand, List.head?_cons]
  · rw [← List.tail_drop, stand, List.tail_cons]

/-- The check of the statement reports the breaches inside it, wherever what the check carries fits
what is around. Only if it declares a name does the scope matter. -/
def Stmt.ChecksExactly (form : Stmt) : Prop :=
  ∀ {context : CodeContext} {scope : LocalScope} {position : Nat} {parent : Step} {around : Site},
    context.Fits (parent :: around) → (form.declared? ≠ none → scope.Fits parent.node position) →
    ReportedBy (Inside (⟨position, .stmt form⟩ :: parent :: around)) (form.check context scope).2

variable {context : CodeContext} {scope : LocalScope} {position : Nat} {parent : Step}
    {around : Site}

/-- Statements in a row are checked exactly if each of them is. -/
theorem checkAll_exact {body : List Stmt} (each : ∀ form ∈ body, form.Tidy ∧ form.ChecksExactly)
    (fits : context.Fits (parent :: around)) (names : scope.Fits parent.node position)
    (stand : parent.node.children.drop position = body.map .stmt) :
    ReportedBy (Among (parent :: around) position (body.map .stmt))
      (checkAll context scope body).2 := by
  induction body generalizing scope position with
  | nil => exact reported_among_nil
  | cons first rest ih =>
    obtain ⟨⟨tidy, exact⟩, others⟩ := List.forall_mem_cons.mp each
    obtain ⟨stands, behind⟩ := Node.drop_children stand
    have later : LocalScope.Fits (first.check context scope).1 parent.node (position + 1) := by
      have same : (Node.stmt first).declared?.map Prod.fst = first.declared? := by
        cases first <;> rfl
      rw [tidy.check_names, ← same]
      exact names.onward stands
    exact (exact fits fun _ => names).cons (ih others later behind)

/-- Parameters are checked exactly, and so is what is behind them if its scope fits. -/
theorem declareParameters_exact {parameters : List Parameter} {tail : List Node}
    {diagnostics : List Diagnostic} (names : scope.Fits parent.node position)
    (stand : parent.node.children.drop position = parameters.map .parameter ++ tail)
    (behind : ∀ {position}, (declareParameters scope parameters).1.Fits parent.node position →
      parent.node.children.drop position = tail →
      ReportedBy (Among (parent :: around) position tail) diagnostics) :
    ReportedBy (Among (parent :: around) position (parameters.map .parameter ++ tail))
      ((declareParameters scope parameters).2 ++ diagnostics) := by
  induction parameters generalizing scope position with
  | nil => exact behind names stand
  | cons first rest ih =>
    obtain ⟨stands, others⟩ := Node.drop_children stand
    have declares : (Node.parameter first).declared? = some (first.name, first.span) := rfl
    have own : ReportedBy (Inside (⟨position, .parameter first⟩ :: parent :: around))
        (scope.declare first.name first.span).2 :=
      .leaf (names.declare_exact declares fun _ _ breaks => by
        cases breaks
        exact ⟨_, rfl⟩) rfl
    have later : (scope.declare first.name first.span).1.Fits parent.node (position + 1) := by
      rw [LocalScope.declare_eq]
      exact names.onward stands
    have rows := ih later others behind
    simp only [declareParameters, List.append_assoc]
    exact own.cons rows

/-- A function or method whose statements are checked exactly is checked exactly itself. -/
theorem FunctionDecl.checksExactly {decl : FunctionDecl} {node : Node} {around : Site}
    (isCallable : node = .function decl ∨ node = .method decl)
    (each : ∀ form ∈ decl.body, form.Tidy ∧ form.ChecksExactly)
    (fits : context.Fits (⟨position, node⟩ :: around)) :
    ReportedBy (Inside (⟨position, node⟩ :: around)) (decl.check context) := by
  have children : node.children = decl.parameters.map .parameter ++ decl.body.map .stmt := by
    rcases isCallable with rfl | rfl <;> rfl
  have isScope : node.isScope = true := by
    rcases isCallable with rfl | rfl <;> rfl
  apply ReportedBy.inner
  · obtain ⟨name, parameters, body, span⟩ := decl
    rw [FunctionDecl.check, children]
    refine declareParameters_exact (LocalScope.fits_start isScope) children ?_
    intro position names stand
    exact checkAll_exact each fits names stand
  · intro _ _ breaks
    rcases isCallable with rfl | rfl <;> cases breaks <;> contradiction

/-- The methods of a class are checked exactly if their statements are. -/
theorem checkMethods_exact {methods : List FunctionDecl} {around : Site}
    (each : ∀ decl ∈ methods, ∀ form ∈ decl.body, form.Tidy ∧ form.ChecksExactly)
    (fits : context.Fits around) :
    ReportedBy (Among around position (methods.map .method)) (checkMethods context methods) := by
  induction methods generalizing position with
  | nil => exact reported_among_nil
  | cons first rest ih =>
    obtain ⟨body, others⟩ := List.forall_mem_cons.mp each
    exact (FunctionDecl.checksExactly (.inr rfl) body (fits.insideFunction rfl)).cons (ih others)

/-- The check of a class declaration itself. -/
theorem Stmt.check_classDecl {span : Span} {name : String} {superclass : Option SuperclassName}
    {methods : List FunctionDecl} :
    ((Stmt.classDecl span name superclass methods).check context scope).2 =
      (scope.declare name span).2 ++ (superclass.elim [] (SuperclassName.check name)) ++
        checkMethods (context.insideClass superclass) methods := by
  cases superclass <;> rfl

/-- A class declaration may declare a name again, and may name itself as superclass. -/
theorem LocalScope.Fits.classDecl_exact {span : Span} {name : String}
    {superclass : Option SuperclassName} {methods : List FunctionDecl}
    (names : scope.Fits parent.node position) :
    ReportedBy (At (⟨position, .stmt (.classDecl span name superclass methods)⟩ :: parent ::
      around))
      ((scope.declare name span).2 ++ superclass.elim [] (SuperclassName.check name)) := by
  cases superclass with
  | none =>
    rw [Option.elim_none, List.append_nil]
    refine names.declare_exact rfl fun _ _ breaks => ?_
    cases breaks
    exact ⟨_, rfl⟩
  | some superclass =>
    rw [LocalScope.declare_eq]
    refine reported_at_two nofun (names.redeclared_iff rfl) ⟨?_, ?_⟩ fun _ _ breaks => ?_
    · intro breaks
      cases breaks
      rfl
    · rintro rfl
      exact .inheritsFromItself
    · cases breaks with
      | inheritsFromItself => exact .inr ⟨rfl, rfl⟩
      | redeclared _ declares =>
        obtain ⟨rfl, rfl⟩ := Prod.mk.inj (Option.some.inj declares)
        exact .inl ⟨rfl, rfl⟩

/-- The check of a `return` itself. -/
theorem checkReturn_eq (context : CodeContext) (span : Span) (withValue : Bool) :
    checkReturn context span withValue =
      (if context.function = .none then [Violation.returnOutsideFunction.diagnostic
        span] else []) ++
        if context.function = .initializer ∧ withValue = true then
          [Violation.returnFromInitializer.diagnostic span]
        else [] := by
  rw [checkReturn]
  cases context.function <;> cases withValue <;> rfl

/-- A `return` may stand outside of all functions, or give a value in an initializer. -/
theorem CodeContext.Fits.return_exact {span : Span} {value : Option Expr}
    (fits : context.Fits (parent :: around)) :
    ReportedBy (At (⟨position, .stmt (.return span value)⟩ :: parent :: around))
      (checkReturn context span value.isSome) := by
  rw [checkReturn_eq]
  refine reported_at_two nofun ?_ ?_ ?_
  · rw [fits.function, FunctionContext.ofNearest_eq_none]
    constructor
    · rintro ⟨outside⟩
      exact outside
    · exact .returnOutsideFunction
  · rw [fits.function, FunctionContext.ofNearest_eq_initializer]
    constructor
    · intro breaks
      cases breaks with
      | returnFromInitializer inside init => exact ⟨⟨_, inside, init⟩, rfl⟩
    · rintro ⟨⟨decl, inside, init⟩, present⟩
      obtain ⟨value, rfl⟩ := Option.isSome_iff_exists.mp present
      exact .returnFromInitializer inside init
  · intro _ _ breaks
    cases breaks with
    | redeclared _ declares => contradiction
    | returnOutsideFunction => exact .inl ⟨rfl, rfl⟩
    | returnFromInitializer => exact .inr ⟨rfl, rfl⟩

/-- A `break` may stand outside of all loops of its function. -/
theorem CodeContext.Fits.break_exact {span : Span} (fits : context.Fits (parent :: around)) :
    ReportedBy (At (⟨position, .stmt (.break span)⟩ :: parent :: around))
      ((Stmt.break span).check context scope).2 := by
  have own : ((Stmt.break span).check context scope).2 =
      if context.inLoop = false then [Violation.breakOutsideLoop.diagnostic span] else [] := by
    rw [Stmt.check]
    cases context.inLoop <;> rfl
  rw [own]
  refine reported_at_one ?_ fun _ _ breaks => ?_
  · rw [Bool.eq_false_iff, Ne, fits.inLoop]
    refine ⟨fun breaks => ?_, .breakOutsideLoop⟩
    cases breaks with
    | breakOutsideLoop outside => exact outside
  · cases breaks with
    | redeclared _ declares => contradiction
    | breakOutsideLoop => exact ⟨rfl, rfl⟩

/-- The initial value of a variable is checked with that variable pending, if it is local. -/
theorem CodeContext.Fits.surrounds_let {span : Span} {name : String} {value : Expr}
    (fits : context.Fits (parent :: around)) (names : scope.Fits parent.node position) :
    Site.Surrounds (⟨position, .stmt (.letDecl span name (some value))⟩ :: parent :: around) context
      (if scope.isSome then some name else none) where
  cls := fits.cls.trans (congrArg _ (Site.class?_cons_of_none rfl).symm)
  pending other := by
    rw [Site.initializes_stmt]
    rcases names with ⟨isGlobal, rfl⟩ | ⟨isLocal, _, rfl, -⟩
    · apply iff_of_false nofun
      rintro ⟨isLocal, -⟩
      rw [isGlobal] at isLocal
      contradiction
    · constructor
      · rintro ⟨⟩
        exact ⟨isLocal, span, some value, rfl⟩
      · rintro ⟨-, _, _, same⟩
        obtain ⟨-, rfl, -⟩ := Stmt.letDecl.inj same
        rfl

/-- Tidy statements are checked exactly. -/
theorem Stmt.Tidy.checksExactly {form : Stmt} (tidy : form.Tidy) : form.ChecksExactly := by
  induction tidy with
  | @intro form branches parts bodies partsExact bodiesExact =>
    intro context scope position parent around fits names
    have parts : ∀ part ∈ form.parts, part.Tidy ∧ part.ChecksExactly := fun part member =>
      ⟨parts part member, partsExact part member⟩
    have bodies : ∀ decl ∈ form.functions, ∀ inner ∈ decl.body, inner.Tidy ∧ inner.ChecksExactly :=
      fun decl declared inner member =>
        ⟨bodies decl declared inner member, bodiesExact decl declared inner member⟩
    cases form with
    | letDecl span name initializer =>
      have own : ReportedBy
        (At (⟨position, .stmt (.letDecl span name initializer)⟩ :: parent :: around))
          (scope.declare name span).2 :=
        (names nofun).declare_exact rfl fun _ _ breaks => by
          cases breaks
          exact ⟨_, rfl⟩
      cases initializer with
      | none => exact own.leaf rfl
      | some value =>
        refine own.whole (.single ?_)
        exact Expr.checksExactly (fits.surrounds_let (names nofun)) value
    | function span decl =>
      refine ReportedBy.whole ((names nofun).declare_exact rfl fun _ _ breaks => ?_) (.single ?_)
      · cases breaks
        exact ⟨_, rfl⟩
      · have here : context.Fits (⟨position, .stmt (.function span decl)⟩ :: parent :: around) :=
          fits.step rfl rfl nofun
        have inside : (context.insideFunction (.ofNearest (some (.function decl)))).Fits
            (⟨0, .function decl⟩ :: ⟨position, .stmt (.function span decl)⟩ :: parent :: around) :=
          here.insideFunction rfl
        exact FunctionDecl.checksExactly (.inl rfl) (bodies decl List.mem_cons_self) inside
    | classDecl span name superclass methods =>
      rw [Stmt.check_classDecl]
      exact (names nofun).classDecl_exact.whole (checkMethods_exact bodies fits.insideClass)
    | expression span value | print span value =>
      refine ReportedBy.inner ?_ fun _ _ breaks => by cases breaks; contradiction
      exact .single (Expr.checksExactly (fits.surrounds _ rfl) value)
    | block span body =>
      refine ReportedBy.inner ?_ fun _ _ breaks => by cases breaks; contradiction
      exact checkAll_exact parts (fits.step rfl rfl nofun) (LocalScope.fits_start rfl) rfl
    | conditional span condition thenBranch elseBranch =>
      refine ReportedBy.inner ?_ fun _ _ breaks => by cases breaks; contradiction
      have here : context.Fits
          (⟨position, .stmt (.conditional span condition thenBranch elseBranch)⟩ :: parent ::
            around) :=
        fits.step rfl rfl nofun
      have surrounds : Site.Surrounds
          (⟨position, .stmt (.conditional span condition thenBranch elseBranch)⟩ :: parent ::
            around) context none :=
        fits.surrounds _ rfl
      have first : thenBranch ∈ thenBranch :: elseBranch.toList := List.mem_cons_self
      have thenBare := branches thenBranch first
      cases elseBranch with
      | none =>
        refine ReportedBy.cons (Expr.checksExactly surrounds condition) (.single ?_)
        exact partsExact thenBranch first here (absurd thenBare)
      | some branch =>
        have second : branch ∈ [thenBranch, branch] := List.mem_cons_of_mem _ List.mem_cons_self
        have elseBare := branches branch second
        simp only [Stmt.check, List.append_assoc]
        refine ReportedBy.cons (Expr.checksExactly surrounds condition) (.cons ?_ (.single ?_))
        · exact partsExact thenBranch first here (absurd thenBare)
        · exact partsExact branch second here (absurd elseBare)
    | «while» span condition body =>
      refine ReportedBy.inner ?_ fun _ _ breaks => by cases breaks; contradiction
      have only := List.mem_singleton_self body
      have bare := branches body only
      refine ReportedBy.cons (Expr.checksExactly (fits.surrounds _ rfl) condition) (.single ?_)
      exact partsExact body only fits.while (absurd bare)
    | «return» span value =>
      cases value with
      | none => exact fits.return_exact.leaf rfl
      | some value =>
        refine fits.return_exact.whole (.single ?_)
        exact Expr.checksExactly (fits.surrounds _ rfl) value
    | «break» span => exact fits.break_exact.leaf rfl

/-! ## Programs -/

/-- A text whose program has violations is rejected with all of them. -/
theorem Program.accept_of_violations {source : String} {program : Program}
    (found : Program.ofText source = .ok program) (violations : program.check ≠ []) :
    Program.accept source = .error (.rejected program.check) := by
  unfold Program.accept
  simp only [found]

/-- A program that is read from a text is accepted exactly if none of its sites breaks a rule, and
otherwise it is rejected. Its check reports the breaches in it, each with exactly one diagnostic. -/
theorem Program.check_exact {source : String} {program : Program}
    (found : Program.ofText source = .ok program) :
    (Program.accept source = .ok program ↔ ∀ breach : Breach, program.Has breach.site →
      ¬breach.Real) ∧
      ((∃ breach : Breach, program.Has breach.site ∧ breach.Real) →
        Program.accept source = .error (.rejected program.check)) ∧
      ReportedBy (fun breach => program.Has breach.site ∧ breach.Real) program.check := by
  have reported : ReportedBy (Inside [⟨0, .program program⟩]) program.check := by
    refine ReportedBy.inner ?_ nofun
    have tidy := Program.tidy_of_ofText found
    have each : ∀ form ∈ program, form.Tidy ∧ form.ChecksExactly := fun form member =>
      ⟨tidy form member, (tidy form member).checksExactly⟩
    exact checkAll_exact each CodeContext.fits_top (.inl ⟨rfl, rfl⟩) rfl
  have clear : program.check = [] ↔ ∀ breach : Breach, program.Has breach.site → ¬breach.Real :=
    reported.eq_nil_iff.trans (forall_congr' fun _ => not_and)
  refine ⟨?_, ?_, reported⟩
  · rw [Program.accept_iff, clear]
    exact and_iff_right found
  · rintro ⟨breach, has, real⟩
    apply Program.accept_of_violations found
    intro none
    exact clear.mp none breach has real

/-- A variable that reads itself and is declared twice, and a misplaced `return`: three breaches. -/
theorem Program.check_exact_three :
    ∃ program : Program, Program.ofText "{let a=a;let a;}return;" = .ok program ∧
      program.check.length = 3 ∧
      ReportedBy (fun breach => program.Has breach.site ∧ breach.Real) program.check := by
  have counted : (Program.ofText "{let a=a;let a;}return;").toOption.any
      (fun program => program.check.length == 3) = true := by decide +kernel
  cases found : Program.ofText "{let a=a;let a;}return;" with
  | error => rw [found] at counted; contradiction
  | ok program =>
    rw [found] at counted
    exact ⟨program, rfl, beq_iff_eq.mp counted, (Program.check_exact found).2.2⟩

end EventScript
