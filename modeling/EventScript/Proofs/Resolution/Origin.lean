import EventScript.Proofs.Evaluation.Binding
import EventScript.Proofs.Evaluation.Disciplined
import EventScript.Proofs.Resolution.Inheritance
import EventScript.Proofs.Resolution.Soundness
import EventScript.Proofs.Syntax.Names

/-!
# Where methods come from

A record lists all that was run. The calls of methods started somewhere in it (`Occasion.Starts`),
and the classes were made there, each by a class declaration (`Occasion.Makes`). A value is rooted
in the record when it goes back to that: a class has the methods of the declarations that made it
and its ancestors, a method belongs to such a class and is bound to an instance of it, and a
function that lies in the text of a method was made while a call of the method ran, which is still
around it. That all values are rooted is a discipline (`originDiscipline`).
-/

namespace EventScript

/-- A call of a method, with the scope that its body starts in. -/
structure MethodCall where
  receiver : Value
  method : Method
  scope : Nat

/-- The occasion at which the body of the method starts. -/
inductive Occasion.Starts : Occasion → MethodCall → Prop where
  | intro {receiver : Value} {method : Method} {arguments : List Value} {machine later : Machine}
      {scope : Nat}
      (checked : Run.checkCall method.decl arguments.length machine = .done () machine)
      (entered : Run.bodyScope (.ofMethod receiver method) arguments machine = .done scope later) :
      Starts ⟨.activation (.ofMethod receiver method) arguments, machine⟩ ⟨receiver, method, scope⟩

/-- The occasion at which a class declaration with these methods makes the class. -/
inductive Occasion.Makes : Occasion → List FunctionDecl → Class → Prop where
  | intro {span : Span} {name : String} {superclass : Option SuperclassName}
      {methods : List FunctionDecl} {machine later : Machine} {parent : Option Class} {cls : Class}
      (resolved : Run.resolveSuperclass superclass machine = .done parent machine)
      (made : Run.makeClass name parent methods machine = .done (.classObject cls) later) :
      Makes ⟨.stmt (.classDecl span name superclass methods), machine⟩ methods cls

/-! ## The text of a method -/

/-- The statement lies in the text of the function, directly or in functions nested in it, but not
in a class nested in it. -/
inductive FunctionDecl.EnclosesStmt (decl : FunctionDecl) : Stmt → Prop where
  | body {stmt : Stmt} (member : stmt ∈ decl.body) : EnclosesStmt decl stmt
  | part {stmt part : Stmt} (encloses : EnclosesStmt decl stmt) (member : part ∈ stmt.parts) :
      EnclosesStmt decl part
  | nested {span : Span} {inner : FunctionDecl} {stmt : Stmt}
      (encloses : EnclosesStmt decl (.function span inner)) (member : stmt ∈ inner.body) :
      EnclosesStmt decl stmt

/-- The expression lies in the text of the function, directly or in functions nested in it, but not
in a class nested in it. -/
inductive FunctionDecl.EnclosesExpr (decl : FunctionDecl) : Expr → Prop where
  | expr {stmt : Stmt} {expr : Expr} (encloses : decl.EnclosesStmt stmt)
      (member : expr ∈ stmt.exprs) :
      EnclosesExpr decl expr
  | part {expr part : Expr} (encloses : EnclosesExpr decl expr) (member : part ∈ expr.parts) :
      EnclosesExpr decl part

/-- The expression spares `this`, and lies in the text of the method that is called or, without a
call, is accepted outside of all classes. -/
structure Expr.LiesIn (place : Option MethodCall) (expr : Expr) : Prop where
  spares : expr.Spares "this"
  outside : place = none → expr.Accepted .none
  inside : ∀ call ∈ place, call.method.decl.EnclosesExpr expr

/-- The statement spares `this`, and lies in the text of the method that is called or, without a
call, is accepted outside of all classes. -/
structure Stmt.LiesIn (place : Option MethodCall) (stmt : Stmt) : Prop where
  spares : stmt.Spares "this"
  outside : place = none → stmt.Accepted .none
  inside : ∀ call ∈ place, call.method.decl.EnclosesStmt stmt

section Text

variable {place : Option MethodCall}

/-- The parts of an expression lie where it does. -/
theorem Expr.LiesIn.part {expr part : Expr} (lies : expr.LiesIn place)
    (member : part ∈ expr.parts) :
    part.LiesIn place where
  spares := lies.spares.part member
  outside := fun none => (lies.outside none).part member
  inside := fun call inside => .part (lies.inside call inside) member

/-- The expressions of a statement lie where it does. -/
theorem Stmt.LiesIn.expr {stmt : Stmt} {expr : Expr} (lies : stmt.LiesIn place)
    (member : expr ∈ stmt.exprs) : expr.LiesIn place where
  spares := lies.spares.expr member
  outside := fun none => (lies.outside none).expr member
  inside := fun call inside => .expr (lies.inside call inside) member

/-- The parts of a statement lie where it does. -/
theorem Stmt.LiesIn.part {stmt part : Stmt} (lies : stmt.LiesIn place)
    (member : part ∈ stmt.parts) :
    part.LiesIn place where
  spares := lies.spares.part member
  outside := fun none => (lies.outside none).part member
  inside := fun call inside => .part (lies.inside call inside) member

/-- The body of a function lies where the function is declared. -/
theorem Stmt.LiesIn.body {span : Span} {decl : FunctionDecl} {stmt : Stmt}
    (lies : (Stmt.function span decl).LiesIn place) (member : stmt ∈ decl.body) :
    stmt.LiesIn place where
  spares := (lies.spares.function List.mem_cons_self).body stmt member
  outside := fun none => (lies.outside none).function.body stmt member
  inside := fun call inside => .nested (lies.inside call inside) member

end Text

/-! ## Rooted values -/

variable {record : List Occasion}

/-- The class of the method was made by a class declaration that declares it. -/
structure Method.Rooted (record : List Occasion) (method : Method) : Prop where
  spares : method.decl.Spares "this"
  declared : ∃ occasion ∈ record, ∃ decls, occasion.Makes decls method.owner ∧ method.decl ∈ decls

/-- All methods of the class and its ancestors are rooted. -/
def Class.Rooted (record : List Occasion) (cls : Class) : Prop :=
  ∀ ancestor, cls.Inherits ancestor →
    ancestor.methods.All fun decl => Method.Rooted record ⟨ancestor, decl⟩

/-- The ancestors of a rooted class are rooted. -/
theorem Class.Rooted.ancestor {cls ancestor : Class} (rooted : cls.Rooted record)
    (inherits : cls.Inherits ancestor) : ancestor.Rooted record :=
  fun further onward => rooted further (inherits.trans onward)

/-- The methods that a rooted class has are rooted. -/
theorem Class.Rooted.method {cls : Class} {name : String} {method : Method}
    (rooted : cls.Rooted record) (nearest : cls.Nearest name method) : method.Rooted record :=
  (rooted method.owner nearest.inherits).find? nearest.declared

/-- The value is an instance of the class or of a class that inherits from it. -/
def Heap.IsInstance (heap : Heap) (value : Value) (cls : Class) : Prop :=
  ∃ ref object, value = .object ref ∧ heap.instances.get? ref = some object ∧
    object.cls.Inherits cls

/-- An instance remains one. -/
theorem Heap.IsInstance.grows {before after : Heap} {value : Value} {cls : Class}
    (isInstance : before.IsInstance value cls) (grows : before.Grows after) :
    after.IsInstance value cls := by
  obtain ⟨ref, object, rfl, stored, inherits⟩ := isInstance
  obtain ⟨later, storedLater, same⟩ := grows.instances ref object stored
  refine ⟨ref, later, rfl, storedLater, ?_⟩
  rw [show later.cls = object.cls from same]
  exact inherits

/-- An instance of a class is one of its ancestors. -/
theorem Heap.IsInstance.inherits {heap : Heap} {value : Value} {cls ancestor : Class}
    (isInstance : heap.IsInstance value cls) (inherits : cls.Inherits ancestor) :
    heap.IsInstance value ancestor := by
  obtain ⟨ref, object, same, stored, below⟩ := isInstance
  exact ⟨ref, object, same, stored, below.trans inherits⟩

/-- The method is rooted and bound to an instance of its class. -/
structure Method.Bound (record : List Occasion) (heap : Heap) (receiver : Value) (method : Method) :
    Prop where
  rooted : method.Rooted record
  owner : method.owner.Rooted record
  receives : heap.IsInstance receiver method.owner

/-- The nearest method of a rooted class that a value is an instance of is bound to the value. -/
theorem Class.Rooted.bound {heap : Heap} {receiver : Value} {cls : Class} {name : String}
    {method : Method} (rooted : cls.Rooted record) (receives : heap.IsInstance receiver cls)
    (nearest : cls.Nearest name method) : method.Bound record heap receiver where
  rooted := rooted.method nearest
  owner := rooted.ancestor nearest.inherits
  receives := receives.inherits nearest.inherits

/-- What code in the text of the called method finds around it: it is run for the class of the
method, and the nearest `this` is the object, in the scope that the body of the method started
in. -/
structure MethodCall.Surrounds (record : List Occasion) (heap : Heap) (home : Option Class)
    (scope : Nat) (call : MethodCall) : Prop where
  started : ∃ occasion ∈ record, occasion.Starts call
  bound : call.method.Bound record heap call.receiver
  home : home = some call.method.owner
  finds : heap.Finds "this" call.scope call.receiver scope

/-- The function spares `this`, and is closed over where the call around its text surrounds it. -/
structure Closure.Rooted (record : List Occasion) (heap : Heap) (closure : Closure) : Prop where
  parameters : ∀ parameter ∈ closure.decl.parameters, parameter.name ≠ "this"
  around : ∃ place : Option MethodCall,
    (∀ call ∈ place, call.Surrounds record heap closure.home closure.scope) ∧
      ∀ stmt ∈ closure.decl.body, stmt.LiesIn place

/-- The classes, methods and functions that the value is about go back to what was recorded. -/
def Value.Rooted (record : List Occasion) (heap : Heap) : Value → Prop
  | .function _ closure => closure.Rooted record heap
  | .method _ receiver found => found.Bound record heap receiver
  | .classObject cls => cls.Rooted record
  | _ => True

/-- The activations of rooted functions and methods. -/
inductive Activation.Rooted (record : List Occasion) (heap : Heap) : Activation → Prop where
  | closure {closure : Closure} (rooted : closure.Rooted record heap) :
      Rooted record heap (.ofClosure closure)
  | method {receiver : Value} {method : Method} (bound : method.Bound record heap receiver) :
      Rooted record heap (.ofMethod receiver method)

/-- All values are rooted in the record. -/
def originDiscipline (record : List Occasion) : Discipline where
  Place := Option MethodCall
  holds := Value.Rooted record
  grows before after := before.Grows after ∧ before.Retains "this" after
  expr := Expr.LiesIn
  stmt := Stmt.LiesIn
  around place heap home scope := ∀ call ∈ place, call.Surrounds record heap home scope
  calls := Activation.Rooted record
  names name := name ≠ "this"
  occurs occasion := occasion ∈ record

end EventScript
