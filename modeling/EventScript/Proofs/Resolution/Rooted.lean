import EventScript.Proofs.Resolution.Origin

/-!
# Evaluation keeps values rooted

The discipline of rooted values is lawful (`originDiscipline_lawful`). Wherever code makes a
function, a method or a class, the record holds where it came from.
-/

namespace EventScript

open Run

variable {record : List Occasion} {before after heap : Heap}

/-- A bound method stays bound. -/
theorem Method.Bound.grows {receiver : Value} {method : Method}
    (bound : method.Bound record before receiver) (grows : before.Grows after) :
    method.Bound record after receiver :=
  { bound with receives := bound.receives.grows grows }

/-- A call stays around the code that it surrounds. -/
theorem MethodCall.Surrounds.grows {call : MethodCall} {home : Option Class} {scope : Nat}
    (surrounds : call.Surrounds record before home scope) (grows : before.Grows after)
    (retains : before.Retains "this" after) : call.Surrounds record after home scope :=
  { surrounds with
    bound := surrounds.bound.grows grows
    finds := surrounds.finds.retains retains }

/-- A rooted function stays rooted. -/
theorem Closure.Rooted.grows {closure : Closure} (rooted : closure.Rooted record before)
    (grows : before.Grows after) (retains : before.Retains "this" after) :
    closure.Rooted record after := by
  obtain ⟨parameters, place, surrounds, lies⟩ := rooted
  exact ⟨parameters, place, fun call inside => (surrounds call inside).grows grows retains, lies⟩

/-- A rooted value stays rooted. -/
theorem Value.Rooted.grows {value : Value} (rooted : value.Rooted record before)
    (grows : before.Grows after) (retains : before.Retains "this" after) :
    value.Rooted record after := by
  cases value with
  | function identity closure => exact Closure.Rooted.grows rooted grows retains
  | method identity receiver method => exact Method.Bound.grows rooted grows
  | classObject cls => exact rooted
  | _ => trivial

/-- The activation of a rooted function or method stays so. -/
theorem Activation.Rooted.grows {called : Activation} (rooted : called.Rooted record before)
    (grows : before.Grows after) (retains : before.Retains "this" after) :
    called.Rooted record after := by
  cases rooted with
  | closure rooted => exact .closure (rooted.grows grows retains)
  | method bound => exact .method (bound.grows grows)

/-- A class has the methods of its declaration and those of its superclass. -/
theorem Class.rooted_of_makes {span : Span} {name : String} {superclass : Option SuperclassName}
    {methods : List FunctionDecl} {parent : Option Class} {cls : Class} {machine later : Machine}
    (spares : (Stmt.classDecl span name superclass methods).Spares "this")
    (recorded : ⟨.stmt (.classDecl span name superclass methods), machine⟩ ∈ record)
    (resolved : resolveSuperclass superclass machine = .done parent machine)
    (inherited : ∀ ancestor ∈ parent, ancestor.Rooted record)
    (made : makeClass name parent methods machine = .done (.classObject cls) later) :
    cls.Rooted record := by
  have makes : Occasion.Makes ⟨.stmt (.classDecl span name superclass methods),
    machine⟩ methods cls :=
    .intro resolved made
  obtain rfl := Value.classObject.inj (Outcome.done.inj made).1
  -- The class itself is made here. Its ancestors were made before, and stay what they were.
  intro ancestor inherits
  cases inherits with
  | same =>
    refine OrderedMap.all_ofList fun entry member => ?_
    obtain ⟨decl, declared, rfl⟩ := List.mem_map.mp member
    exact ⟨spares.function declared, _, recorded, methods, makes, declared⟩
  | onward superclass inherits =>
    cases parent with
    | none => contradiction
    | some parent =>
      obtain rfl := Option.some.inj superclass
      exact inherited parent rfl ancestor inherits

/-- A function lies where it is declared. -/
theorem Closure.rooted_of_declared {machine : Machine} {place : Option MethodCall} {span : Span}
    {decl : FunctionDecl}
    (surrounds : ∀ call ∈ place, call.Surrounds record machine.heap machine.home machine.scope)
    (lies : (Stmt.function span decl).LiesIn place) :
    Closure.Rooted record machine.heap { decl, scope := machine.scope, home := machine.home } where
  parameters := (lies.spares.function List.mem_cons_self).parameters
  around := ⟨place, surrounds, fun _ member => lies.body member⟩

/-- A method that is found in the superclass is bound to the object of the call around. -/
theorem MethodCall.Surrounds.super {machine : Machine} {call : MethodCall} {parent : Class}
    {name : String} {receiver : Value} {method : Method}
    (surrounds : call.Surrounds record machine.heap machine.home machine.scope)
    (superclass : machine.home.bind Class.superclass? = some parent)
    (this : machine.heap.lookup? machine.scope "this" = some receiver)
    (found : parent.findMethod? name = some method) :
    method.Bound record machine.heap receiver := by
  obtain rfl := Option.some.inj (this.symm.trans surrounds.finds.lookup?)
  rw [surrounds.home] at superclass
  have above : call.method.owner.Inherits parent := .onward superclass (.same parent)
  have rooted := surrounds.bound.owner.ancestor above
  have receives := surrounds.bound.receives.inherits above
  exact rooted.bound receives (Class.findMethod?_iff.mp found)

/-- The start of a body leaves alone what the scopes that were there say about a name. -/
theorem Activation.retains_start (name : String) (activation : Activation) (arguments : List Value)
    (heap : Heap) : heap.Retains name (activation.start arguments heap).2 := by
  have new : heap.scopes.get? (heap.newScope (some activation.scope)).1 = none :=
    Array.getElem?_size
  exact (Heap.retains_newScope name heap _).defineAll new _

/-- The parameters bind no name that they all differ from. -/
theorem FunctionDecl.ne_of_mem_zip {decl : FunctionDecl} {name : String}
    (parameters : ∀ parameter ∈ decl.parameters, parameter.name ≠ name) (arguments : List Value) :
    ∀ binding ∈ (decl.parameters.map Parameter.name).zip arguments, binding.1 ≠ name := by
  intro binding member
  obtain ⟨parameter, declared, same⟩ := List.mem_map.mp (List.of_mem_zip member).1
  rw [← same]
  exact parameters parameter declared

/-- The body of a rooted function starts with the call around it that is around the function. -/
theorem Closure.Rooted.body {closure : Closure} (rooted : closure.Rooted record heap)
    (arguments : List Value) :
    ∃ place : Option MethodCall,
      (∀ call ∈ place, call.Surrounds record
        ((Activation.ofClosure closure).start arguments heap).2 closure.home
        ((Activation.ofClosure closure).start arguments heap).1) ∧
      ∀ stmt ∈ closure.decl.body, stmt.LiesIn place := by
  obtain ⟨parameters, place, surrounds, lies⟩ := rooted
  refine ⟨place, ?_, lies⟩
  intro call inside
  have around := surrounds call inside
  have bound := around.bound.grows
    (Activation.grows_start (.ofClosure closure) arguments heap)
  -- The new scope binds only parameters, none of them `this`, so the search goes on outward.
  have others := FunctionDecl.ne_of_mem_zip parameters arguments
  have retains := fun scope =>
    Heap.retains_defineAll others (heap.newScope (some closure.scope)).2 scope
  exact { around with bound, finds := around.finds.newScope.retains (retains _) }

/-- The body of a bound method starts as the call of the method on the object, in its own scope. -/
theorem Method.Bound.body {receiver : Value} {method : Method} {arguments : List Value}
    {machine : Machine} (bound : method.Bound record machine.heap receiver)
    (recorded : ⟨.activation (.ofMethod receiver method) arguments, machine⟩ ∈ record)
    (checked : checkCall method.decl arguments.length machine = .done () machine) :
    MethodCall.Surrounds record
      ((Activation.ofMethod receiver method).start arguments machine.heap).2 (some method.owner)
      ((Activation.ofMethod receiver method).start arguments machine.heap).1
      ⟨receiver, method,
        ((Activation.ofMethod receiver method).start arguments machine.heap).1⟩ where
  started := ⟨_, recorded, .intro checked rfl⟩
  bound := bound.grows (Activation.grows_start _ arguments machine.heap)
  home := rfl
  finds :=
    -- The body's own scope binds `this` first, and no parameter takes its place.
    have others := FunctionDecl.ne_of_mem_zip bound.rooted.spares.parameters arguments
    (Heap.finds_define (machine.heap.get?_newScope _) "this" receiver).retains
      (Heap.retains_defineAll others _ _)

/-- The nearest initializer of a class is bound to a new instance of it. -/
theorem Class.Rooted.initializer {cls : Class} {name : String} {method : Method}
    (rooted : cls.Rooted record) (nearest : cls.Nearest name method) :
    method.Bound record (heap.newInstance cls).2 (heap.newInstance cls).1 := by
  have stored : (heap.newInstance cls).2.instances.get? heap.instances.size = some { cls } := by
    show (heap.instances.alloc _).2.get? heap.instances.size = _
    rw [Store.get?_alloc, if_pos rfl]
  exact rooted.bound ⟨heap.instances.size, { cls }, rfl, stored, .same cls⟩ nearest

/-- Evaluation keeps values rooted, as far as it is recorded. -/
theorem originDiscipline_lawful (record : List Occasion) : (originDiscipline record).Lawful where
  grows_trans := fun left right => ⟨left.1.trans right.1, left.2.trans right.2⟩
  grows_of_keeps := fun keeps => ⟨keeps.grows, .of_same keeps.scopes⟩
  grows_define := fun heap scope value different =>
    ⟨heap.grows_define scope _ value, Heap.retains_define different heap scope value⟩
  grows_newScope := fun heap parent =>
    ⟨heap.grows_newScope parent, Heap.retains_newScope "this" heap parent⟩
  grows_start := fun activation arguments heap =>
    ⟨activation.grows_start arguments heap, activation.retains_start "this" arguments heap⟩
  holds_grows := fun rooted grows => rooted.grows grows.1 grows.2
  around_grows := fun surrounds grows call inside =>
    (surrounds call inside).grows grows.1 grows.2
  calls_grows := fun rooted grows => rooted.grows grows.1 grows.2
  plain := by
    intro heap value plain
    cases value with
    | function | method | classObject | builtin => contradiction
    | _ => trivial
  global := fun _ _ => trivial
  builtin := fun _ _ _ => trivial
  bareClass := by
    intro heap identity name scope ancestor inherits
    cases inherits with
    | same => exact OrderedMap.all_empty
    | onward superclass => contradiction
  expr_part := fun lies member => lies.part member
  expr_assigned := fun lies assigned same => lies.spares.assigned (same ▸ assigned)
  stmt_expr := fun lies member => lies.expr member
  stmt_part := fun lies member => lies.part member
  stmt_declared := fun lies declared same => lies.spares.declared (same ▸ declared)
  method := fun stored rooted found =>
    Class.Rooted.bound rooted ⟨_, _, rfl, stored, .same _⟩ (Class.findMethod?_iff.mp found)
  super := by
    intro machine place span name parent receiver method _ _ surrounds lies superclass this found
    cases place with
    | none => exact absurd (lies.outside rfl).super nofun
    | some call => exact (surrounds call rfl).super superclass this found
  closure := fun _ surrounds lies => Closure.rooted_of_declared surrounds lies
  made := by
    intro machine later place span name superclass methods parent cls lies recorded resolved
      inherited made
    obtain ⟨rfl, -⟩ := Outcome.done.inj made
    exact Class.rooted_of_makes lies.spares recorded resolved inherited rfl
  block := fun surrounds call inside =>
    have around := surrounds call inside
    { around with
      bound := around.bound.grows (Heap.grows_newScope _ _)
      finds := around.finds.newScope }
  calls_function := fun rooted => .closure rooted
  calls_method := fun bound => .method bound
  calls_initializer := fun rooted found =>
    .method (Class.Rooted.initializer rooted (Class.findMethod?_iff.mp found))
  receiver := by
    intro heap called rooted value member
    cases rooted with
    | closure => contradiction
    | method bound =>
      obtain ⟨ref, object, same, -⟩ := bound.receives
      rw [← Option.some.inj member, same]
      trivial
  body := by
    intro machine called arguments rooted recorded checked
    cases rooted with
    | closure rooted => exact rooted.body arguments
    | method bound =>
      refine ⟨some _, fun call inside => Option.some.inj inside ▸ bound.body recorded checked, ?_⟩
      intro stmt member
      exact ⟨bound.rooted.spares.body stmt member, nofun, fun call inside =>
        Option.some.inj inside ▸ .body member⟩

end EventScript
