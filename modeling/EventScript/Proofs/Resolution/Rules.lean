import EventScript.Proofs.Syntax.Site
import EventScript.Syntax.Check

/-!
# The static rules, site by site

A site breaks a rule because of what is around it: the nearest function, the nearest class, the
loops of that function, what stands before it in its scope, or the variable that it helps to
initialize (`Site.Breaks`). This says nothing about how a program is checked. The context that the
check carries is read off the site (`CodeContext.Fits`), and so is its scope (`LocalScope.Fits`).
-/

namespace EventScript

/-- Whether the node is a function or method, with a body of its own. -/
def Node.isFunction : Node → Bool
  | .function _ | .method _ => true
  | _ => false

/-- Whether names declared directly in the node are local to it. -/
def Node.isScope : Node → Bool
  | .function _ | .method _ | .stmt (.block ..) => true
  | _ => false

/-- Whether a node is an expression. -/
def Node.isExpr : Node → Bool
  | .expr _ => true
  | _ => false

/-- The superclass that a class declaration names or does not name. -/
def Node.class? : Node → Option (Option SuperclassName)
  | .stmt (.classDecl _ _ superclass _) => some superclass
  | _ => none

/-- The name that a statement or parameter declares in the scope around it, and where. -/
def Node.declared? : Node → Option (String × Span)
  | .stmt (.letDecl span name _) | .stmt (.classDecl span name _ _) => some (name, span)
  | .stmt (.function _ decl) => some (decl.name, decl.span)
  | .parameter declared => some (declared.name, declared.span)
  | _ => none

/-- One of the first children declares the name. -/
def Node.DeclaresBefore (scope : Node) (position : Nat) (name : String) : Prop :=
  ∃ earlier node span, earlier < position ∧ scope.children[earlier]? = some node ∧
    node.declared? = some (name, span)

namespace Site

/-- The nearest function or method. -/
def function? (around : Site) : Option Node :=
  (around.find? fun step => step.node.isFunction).map Step.node

/-- The superclass that the nearest class declaration names or does not name. -/
def class? (around : Site) : Option (Option SuperclassName) :=
  around.findSome? fun step => step.node.class?

/-- There is a loop around that the nearest function is not inside of. -/
def InLoop (around : Site) : Prop :=
  ∃ (inner outer : Site) (position : Nat) (span : Span) (condition : Expr) (body : Stmt),
    around = inner ++ ⟨position, .stmt (.while span condition body)⟩ :: outer ∧
      ∀ step ∈ inner, step.node.isFunction = false

/-- All that is around belongs to the initial value of a local variable of that name. -/
def Initializes (around : Site) (name : String) : Prop :=
  ∃ (inner outer : Site) (position : Nat) (span : Span) (initializer : Option Expr) (scope : Step),
    around = inner ++ ⟨position, .stmt (.letDecl span name initializer)⟩ :: scope :: outer ∧
      scope.node.isScope = true ∧ ∀ step ∈ inner, step.node.isExpr = true

/-- The site breaks the rule, and the violation is reported at that span. -/
inductive Breaks : Site → Violation → Span → Prop where
  | returnOutsideFunction {position : Nat} {span : Span} {value : Option Expr} {around : Site}
      (outside : around.function? = none) :
      Breaks (⟨position, .stmt (.return span value)⟩ :: around) .returnOutsideFunction span
  | returnFromInitializer {position : Nat} {span : Span} {value : Expr} {decl : FunctionDecl}
      {around : Site} (inside : around.function? = some (.method decl))
      (init : decl.name = "init") :
      Breaks (⟨position, .stmt (.return span (some value))⟩ :: around) .returnFromInitializer span
  | breakOutsideLoop {position : Nat} {span : Span} {around : Site} (outside : ¬around.InLoop) :
      Breaks (⟨position, .stmt (.break span)⟩ :: around) .breakOutsideLoop span
  | thisOutsideClass {position : Nat} {span : Span} {around : Site}
      (outside : around.class? = none) :
      Breaks (⟨position, .expr (.this span)⟩ :: around) .thisOutsideClass span
  | superOutsideClass {position : Nat} {span : Span} {method : String} {around : Site}
      (outside : around.class? = none) :
      Breaks (⟨position, .expr (.super span method)⟩ :: around) .superOutsideClass span
  | superWithoutSuperclass {position : Nat} {span : Span} {method : String} {around : Site}
      (inside : around.class? = some none) :
      Breaks (⟨position, .expr (.super span method)⟩ :: around) .superWithoutSuperclass span
  | inheritsFromItself {position : Nat} {span : Span} {superclass : SuperclassName}
      {methods : List FunctionDecl} {around : Site} :
      Breaks (⟨position,
        .stmt (.classDecl span superclass.name (some superclass) methods)⟩ :: around)
        .inheritsFromItself superclass.span
  | redeclared {position : Nat} {node : Node} {scope : Step} {around : Site} {name : String}
      {span : Span} (isLocal : scope.node.isScope = true)
      (declares : node.declared? = some (name, span))
      (before : scope.node.DeclaresBefore position name) :
      Breaks (⟨position, node⟩ :: scope :: around) (.redeclared name) span
  | readInOwnInitializer {position : Nat} {span : Span} {name : String} {around : Site}
      (inside : around.Initializes name) :
      Breaks (⟨position, .expr (.variable span name)⟩ :: around) .readInOwnInitializer span

/-- Right inside a function, that is the nearest one. -/
theorem function?_cons_of_pos {step : Step} {around : Site}
    (isFunction : step.node.isFunction = true) :
    function? (step :: around) = some step.node := by
  simp only [function?, List.find?_cons, isFunction, Option.map_some]

/-- Inside any other node the nearest function is the one around it. -/
theorem function?_cons_of_neg {step : Step} {around : Site}
    (notFunction : step.node.isFunction = false) :
    function? (step :: around) = around.function? := by
  simp only [function?, List.find?_cons, notFunction]

/-- Right inside a class, that is the nearest one. -/
theorem class?_cons_of_some {step : Step} {around : Site} {superclass : Option SuperclassName}
    (isClass : step.node.class? = some superclass) : class? (step :: around) = some superclass := by
  rw [class?, List.findSome?_cons, isClass]

/-- Inside any other node the nearest class is the one around it. -/
theorem class?_cons_of_none {step : Step} {around : Site} (notClass : step.node.class? = none) :
    class? (step :: around) = around.class? := by
  rw [class?, class?, List.findSome?_cons, notClass]

/-- A step inward is inside a loop if it is one, or if there was one and no function begins. -/
theorem inLoop_cons {step : Step} {around : Site} :
    InLoop (step :: around) ↔
      (∃ span condition body, step.node = .stmt (.while span condition body)) ∨
      step.node.isFunction = false ∧ around.InLoop := by
  constructor
  · rintro ⟨inner, outer, position, span, condition, body, same, within⟩
    cases inner with
    | nil =>
      obtain ⟨rfl, -⟩ := List.cons.inj same
      exact .inl ⟨span, condition, body, rfl⟩
    | cons first inner =>
      obtain ⟨rfl, rfl⟩ := List.cons.inj same
      obtain ⟨head, tail⟩ := List.forall_mem_cons.mp within
      exact .inr ⟨head, inner, outer, position, span, condition, body, rfl, tail⟩
  · rintro (⟨span, condition, body, same⟩ |
      ⟨head, inner, outer, position, span, condition, body, rfl, tail⟩)
    · obtain ⟨position, node⟩ := step
      obtain rfl : node = _ := same
      exact ⟨[], around, position, span, condition, body, rfl, nofun⟩
    · exact ⟨step :: inner, outer, position, span, condition, body, rfl,
        List.forall_mem_cons.mpr ⟨head, tail⟩⟩

/-- The parts of an expression help to initialize what it does. -/
theorem initializes_expr {position : Nat} {value : Expr} {around : Site} {name : String} :
    Initializes (⟨position, .expr value⟩ :: around) name ↔ around.Initializes name := by
  constructor
  · rintro ⟨inner, outer, position, span, initializer, scope, same, isLocal, within⟩
    cases inner with
    | nil => cases same
    | cons first inner =>
      obtain ⟨rfl, rfl⟩ := List.cons.inj same
      exact ⟨inner, outer, position, span, initializer, scope, rfl, isLocal,
        (List.forall_mem_cons.mp within).2⟩
  · rintro ⟨inner, outer, other, span, initializer, scope, rfl, isLocal, within⟩
    have all : ∀ step ∈ (⟨position, .expr value⟩ : Step) :: inner, step.node.isExpr = true :=
      List.forall_mem_cons.mpr ⟨rfl, within⟩
    exact ⟨_ :: inner, outer, other, span, initializer, scope, rfl, isLocal, all⟩

/-- Of the statements only a local variable declaration has expressions that initialize a
variable. -/
theorem initializes_stmt {position : Nat} {form : Stmt} {scope : Step} {around : Site}
    {name : String} :
    Initializes (⟨position, .stmt form⟩ :: scope :: around) name ↔
      scope.node.isScope = true ∧ ∃ span initializer, form = .letDecl span name initializer := by
  constructor
  · rintro ⟨inner, outer, other, span, initializer, first, same, isLocal, within⟩
    cases inner with
    | nil =>
      obtain ⟨head, tail⟩ := List.cons.inj same
      obtain ⟨rfl, rfl⟩ := List.cons.inj tail
      obtain rfl := Node.stmt.inj (congrArg Step.node head)
      exact ⟨isLocal, span, initializer, rfl⟩
    | cons first inner =>
      obtain ⟨rfl, -⟩ := List.cons.inj same
      exact nomatch within _ List.mem_cons_self
  · rintro ⟨isLocal, span, initializer, rfl⟩
    exact ⟨[], around, position, span, initializer, scope, rfl, isLocal, nofun⟩

end Site

/-! ## What the check carries -/

/-- The function context of a nearest function. -/
def FunctionContext.ofNearest : Option Node → FunctionContext
  | .some (.method decl) => decl.methodContext
  | .some _ => .function
  | .none => .none

/-- The class context of a nearest class. -/
def ClassContext.ofNearest : Option (Option SuperclassName) → ClassContext
  | .some (.some _) => .subclass
  | .some .none => .baseClass
  | .none => .none

/-- Code is outside functions if there is none around it. -/
theorem FunctionContext.ofNearest_eq_none {nearest : Option Node} :
    ofNearest nearest = .none ↔ nearest = .none := by
  rcases nearest with _ | node
  · exact iff_of_true rfl rfl
  · refine iff_of_false ?_ nofun
    cases node with
    | method decl =>
      simp only [ofNearest, FunctionDecl.methodContext]
      split <;> exact nofun
    | _ => exact nofun

/-- The nearest function is an initializer if it is a method of that name. -/
theorem FunctionContext.ofNearest_eq_initializer {nearest : Option Node} :
    ofNearest nearest = .initializer ↔ ∃ decl, nearest = some (.method decl) ∧
    decl.name = "init" := by
  rcases nearest with _ | node
  · exact iff_of_false nofun nofun
  · cases node with
    | method decl =>
      simp only [ofNearest, FunctionDecl.methodContext, FunctionDecl.isInitializer,
        FunctionDecl.initializerName, beq_iff_eq, ite_eq_left_iff, reduceCtorEq, imp_false,
        Decidable.not_not, Option.some.injEq, Node.method.injEq, exists_eq_left']
    | _ => exact iff_of_false nofun nofun

/-- Code is outside classes if there is none around it. -/
theorem ClassContext.ofNearest_eq_none {nearest : Option (Option SuperclassName)} :
    ofNearest nearest = .none ↔ nearest = .none := by
  rcases nearest with _ | (_ | _)
  · exact iff_of_true rfl rfl
  · exact iff_of_false nofun nofun
  · exact iff_of_false nofun nofun

/-- Code is in a base class if the nearest class inherits from none. -/
theorem ClassContext.ofNearest_eq_baseClass {nearest : Option (Option SuperclassName)} :
    ofNearest nearest = .baseClass ↔ nearest = .some .none := by
  rcases nearest with _ | (_ | _)
  · exact iff_of_false nofun nofun
  · exact iff_of_true rfl rfl
  · exact iff_of_false nofun nofun

/-- The context says what is around. -/
structure CodeContext.Fits (context : CodeContext) (around : Site) : Prop where
  function : context.function = .ofNearest around.function?
  cls : context.cls = .ofNearest around.class?
  inLoop : context.inLoop = true ↔ around.InLoop

/-- At top level there is nothing around. -/
theorem CodeContext.fits_top {program : Program} : Fits {} [⟨0, .program program⟩] where
  function := rfl
  cls := rfl
  inLoop := by
    rw [Site.inLoop_cons]
    refine ⟨nofun, ?_⟩
    rintro (⟨_, _, _, same⟩ | ⟨-, inner, outer, _, _, _, _, same, -⟩)
    · contradiction
    · exact nomatch (List.append_eq_nil_iff.mp same.symm).2

/-- Most nodes add nothing to the context. -/
theorem CodeContext.Fits.step {context : CodeContext} {around : Site} (fits : context.Fits around)
    {position : Nat} {node : Node} (notFunction : node.isFunction = false)
    (notClass : node.class? = none)
    (notLoop : ∀ span condition body, node ≠ .stmt (.while span condition body)) :
    context.Fits (⟨position, node⟩ :: around) where
  function := by rw [fits.function, Site.function?_cons_of_neg notFunction]
  cls := by rw [fits.cls, Site.class?_cons_of_none notClass]
  inLoop := by
    rw [fits.inLoop, Site.inLoop_cons]
    refine ⟨fun inside => .inr ⟨notFunction, inside⟩, ?_⟩
    rintro (⟨span, condition, body, same⟩ | ⟨-, inside⟩)
    · exact absurd same (notLoop span condition body)
    · exact inside

/-- The body of a loop is in a loop. -/
theorem CodeContext.Fits.while {context : CodeContext} {around : Site} (fits : context.Fits around)
    {position : Nat} {span : Span} {condition : Expr} {body : Stmt} :
    Fits { context with inLoop := true }
      (⟨position, .stmt (.while span condition body)⟩ :: around) where
  function := by rw [fits.function, Site.function?_cons_of_neg rfl]
  cls := by rw [fits.cls, Site.class?_cons_of_none rfl]
  inLoop := iff_of_true rfl (Site.inLoop_cons.mpr (.inl ⟨span, condition, body, rfl⟩))

/-- The methods of a class are in that class. -/
theorem CodeContext.Fits.insideClass {context : CodeContext} {around : Site}
    (fits : context.Fits around) {position : Nat} {span : Span} {name : String}
    {superclass : Option SuperclassName} {methods : List FunctionDecl} :
    (context.insideClass superclass).Fits
      (⟨position, .stmt (.classDecl span name superclass methods)⟩ :: around) where
  function := by
    rw [Site.function?_cons_of_neg rfl]
    exact fits.function
  cls := by
    rw [Site.class?_cons_of_some rfl]
    cases superclass <;> rfl
  inLoop := by
    refine fits.inLoop.trans ?_
    rw [Site.inLoop_cons]
    refine ⟨fun inside => .inr ⟨rfl, inside⟩, ?_⟩
    rintro (⟨_, _, _, same⟩ | ⟨-, inside⟩)
    · cases same
    · exact inside

/-- The body of a function is in that function, and in no loop yet. -/
theorem CodeContext.Fits.insideFunction {context : CodeContext} {around : Site}
    (fits : context.Fits around) {position : Nat} {node : Node}
    (isFunction : node.isFunction = true) :
    (context.insideFunction (.ofNearest (some node))).Fits (⟨position, node⟩ :: around) where
  function := by
    rw [Site.function?_cons_of_pos isFunction]
    rfl
  cls := by
    have notClass : node.class? = none := by
      cases node with
      | stmt => contradiction
      | _ => rfl
    rw [Site.class?_cons_of_none notClass]
    exact fits.cls
  inLoop := by
    rw [Site.inLoop_cons]
    refine ⟨nofun, ?_⟩
    rintro (⟨_, _, _, same⟩ | ⟨notFunction, -⟩)
    · obtain rfl : node = _ := same
      contradiction
    · exact Bool.noConfusion (isFunction.symm.trans notFunction)

/-- The scope has the names that the first children of the scope around declare. -/
def LocalScope.Fits (scope : LocalScope) (around : Node) (position : Nat) : Prop :=
  around.isScope = false ∧ scope = none ∨
    around.isScope = true ∧
      ∃ names, scope = some names ∧ ∀ name, name ∈ names ↔ around.DeclaresBefore position name

/-- What the first children declare is what those before the last of them do, or that one. -/
theorem Node.declaresBefore_succ {scope node : Node} {position : Nat} {name : String}
    (stands : scope.children[position]? = some node) :
    scope.DeclaresBefore (position + 1) name ↔
      (∃ span, node.declared? = some (name, span)) ∨ scope.DeclaresBefore position name := by
  constructor
  · rintro ⟨earlier, other, span, before, found, declares⟩
    rcases Nat.lt_succ_iff_lt_or_eq.mp before with before | rfl
    · exact .inr ⟨earlier, other, span, before, found, declares⟩
    · obtain rfl := Option.some.inj (stands.symm.trans found)
      exact .inl ⟨span, declares⟩
  · rintro (⟨span, declares⟩ | ⟨earlier, other, span, before, found, declares⟩)
    · exact ⟨position, node, span, Nat.lt_succ_self _, stands, declares⟩
    · exact ⟨earlier, other, span, Nat.lt_succ_of_lt before, found, declares⟩

/-- Nothing is declared before the first child. -/
theorem LocalScope.fits_start {around : Node} (isScope : around.isScope = true) :
    Fits (some []) around 0 :=
  .inr ⟨isScope, [], rfl, fun _ => iff_of_false nofun fun ⟨_, _, _, before, _⟩ => nomatch before⟩

/-- Behind a node the scope has the name that it declares, too. -/
theorem LocalScope.Fits.onward {scope : LocalScope} {around node : Node} {position : Nat}
    (fits : scope.Fits around position) (stands : around.children[position]? = some node) :
    Fits (scope.map ((node.declared?.map Prod.fst).toList ++ ·)) around (position + 1) := by
  rcases fits with ⟨isGlobal, rfl⟩ | ⟨isLocal, names, rfl, exact⟩
  · exact .inl ⟨isGlobal, rfl⟩
  · refine .inr ⟨isLocal, _, rfl, fun name => ?_⟩
    rw [Node.declaresBefore_succ stands, List.mem_append, exact, Option.mem_toList,
      Option.map_eq_some_iff]
    refine or_congr_left ⟨?_, ?_⟩
    · rintro ⟨⟨_, span⟩, declares, rfl⟩
      exact ⟨span, declares⟩
    · rintro ⟨span, declares⟩
      exact ⟨_, declares, rfl⟩

/-- A name is declared again exactly if the scope has it. -/
theorem LocalScope.Fits.redeclared_iff {scope : LocalScope} {parent : Step} {around : Site}
    {position : Nat} {node : Node} {name : String} {span : Span}
    (fits : scope.Fits parent.node position) (declares : node.declared? = some (name, span)) :
    Site.Breaks (⟨position, node⟩ :: parent :: around) (.redeclared name) span ↔
      name ∈ scope.getD [] := by
  rcases fits with ⟨isGlobal, rfl⟩ | ⟨isLocal, names, rfl, exact⟩
  · refine iff_of_false ?_ nofun
    rintro (_ | _ | _ | _ | _ | _ | _ | ⟨isLocal, -, -⟩ | _)
    exact Bool.noConfusion (isGlobal.symm.trans isLocal)
  · refine Iff.trans ⟨?_, .redeclared isLocal declares⟩ (exact name).symm
    rintro (_ | _ | _ | _ | _ | _ | _ | ⟨-, -, before⟩ | _)
    exact before

end EventScript
