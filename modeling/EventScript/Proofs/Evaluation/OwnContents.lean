import EventScript.Proofs.Evaluation.Handling
import EventScript.Proofs.Evaluation.Stable

/-!
# Whose contents change

Strings, lists and maps are changed through their own methods only. `Heap.KeepsOthers` says of two
heaps that the contents of strings, lists and maps are the same, but for the one object whose method
is run. All code other than a call of a built-in function leaves all these contents and the event
loop alone (`Machine.LeavesAlone`, `Code.plan_leavesAlone`).
-/

namespace EventScript

open Run Plan

/-- What there was is as it was, but for the contents that are to be changed. -/
def Store.KeepsOthers {α : Type} (own : Nat → Prop) (before after : Store α) : Prop :=
  ∀ index content, ¬own index → before.get? index = some content → after.get? index = some content

namespace Store

variable {α : Type} {own : Nat → Prop} {store : Store α}

/-- A store that nothing happens to keeps all but its own places. -/
theorem keepsOthers_refl (own : Nat → Prop) (store : Store α) : store.KeepsOthers own store :=
  fun _ _ _ present => present

/-- What is kept twice is kept. -/
theorem KeepsOthers.trans {second third : Store α} (left : store.KeepsOthers own second)
    (right : second.KeepsOthers own third) : store.KeepsOthers own third :=
  fun index content other present => right index content other (left index content other present)

/-- Something new changes nothing that there was. -/
theorem keepsOthers_alloc (own : Nat → Prop) (store : Store α) (content : α) :
    store.KeepsOthers own (store.alloc content).2 := by
  intro index old _ present
  have inside : index ≠ store.size := by
    rintro rfl
    have outside : store.cells[store.cells.size]? = none := Array.getElem?_size
    rw [get?, size, outside] at present
    contradiction
  rw [get?_alloc, if_neg inside]
  exact present

/-- A change concerns the content that is to be changed. -/
theorem keepsOthers_modify {changed : Nat} (isOwn : own changed) (store : Store α)
    (change : α → α) :
    store.KeepsOthers own (store.modify changed change) := by
  intro index old other present
  have different : changed ≠ index := fun same => other (same ▸ isOwn)
  rw [get?_modify, if_neg different]
  exact present

/-- Setting a place of one's own keeps the others. -/
theorem keepsOthers_set {changed : Nat} (isOwn : own changed) (store : Store α) (content : α) :
    store.KeepsOthers own (store.set changed content) := by
  intro index old other present
  have different : changed ≠ index := fun same => other (same ▸ isOwn)
  rw [get?_set, if_neg fun inside => different inside.1]
  exact present

end Store

/-- All strings, lists and maps that there were are as they were, but for the own object. -/
structure Heap.KeepsOthers (own : Option Value) (before after : Heap) : Prop where
  strings : before.strings.KeepsOthers (fun ref => own = some (.string ref)) after.strings
  lists : before.lists.KeepsOthers (fun ref => own = some (.list ref)) after.lists
  maps : before.maps.KeepsOthers (fun ref => own = some (.map ref)) after.maps

namespace Heap

variable {own : Option Value} {heap after : Heap}

/-- Only strings, lists and maps matter. -/
theorem KeepsOthers.of_same (strings : after.strings = heap.strings)
    (lists : after.lists = heap.lists)
    (maps : after.maps = heap.maps) : heap.KeepsOthers own after where
  strings := strings ▸ Store.keepsOthers_refl _ _
  lists := lists ▸ Store.keepsOthers_refl _ _
  maps := maps ▸ Store.keepsOthers_refl _ _

/-- A heap that nothing happens to keeps all other contents. -/
theorem keepsOthers_refl (own : Option Value) (heap : Heap) : heap.KeepsOthers own heap :=
  .of_same rfl rfl rfl

/-- Contents that are kept twice are kept. -/
theorem KeepsOthers.trans {later : Heap} (left : heap.KeepsOthers own after)
    (right : after.KeepsOthers own later) : heap.KeepsOthers own later where
  strings := left.strings.trans right.strings
  lists := left.lists.trans right.lists
  maps := left.maps.trans right.maps

/-- A new string leaves all that there were. -/
theorem keepsOthers_newString (own : Option Value) (heap : Heap) (content : String) :
    heap.KeepsOthers own (heap.newString content).2 :=
  { heap.keepsOthers_refl own with strings := Store.keepsOthers_alloc _ _ _ }

/-- A new list leaves all that there were. -/
theorem keepsOthers_newList (own : Option Value) (heap : Heap) (items : Array Value) :
    heap.KeepsOthers own (heap.newList items).2 :=
  { heap.keepsOthers_refl own with lists := Store.keepsOthers_alloc _ _ _ }

/-- A new map leaves all that there were. -/
theorem keepsOthers_newMap (own : Option Value) (heap : Heap) (content : MapContent) :
    heap.KeepsOthers own (heap.newMap content).2 :=
  { heap.keepsOthers_refl own with maps := Store.keepsOthers_alloc _ _ _ }

/-- Changing the text of a string leaves all others. -/
theorem keepsOthers_setText (heap : Heap) (ref : Nat) (content : String) :
    heap.KeepsOthers (some (.string ref)) (heap.setText ref content) :=
  { heap.keepsOthers_refl _ with strings := Store.keepsOthers_set (by rfl) _ _ }

/-- Changing the items of a list leaves all others. -/
theorem keepsOthers_modifyItems (heap : Heap) (ref : Nat) (change : Array Value → Array Value) :
    heap.KeepsOthers (some (.list ref)) (heap.modifyItems ref change) :=
  { heap.keepsOthers_refl _ with lists := Store.keepsOthers_modify (by rfl) _ _ }

/-- Changing the content of a map leaves all others. -/
theorem keepsOthers_modifyContent (heap : Heap) (ref : Nat) (change : MapContent → MapContent) :
    heap.KeepsOthers (some (.map ref)) (heap.modifyContent ref change) :=
  { heap.keepsOthers_refl _ with maps := Store.keepsOthers_modify (by rfl) _ _ }

/-- Binding names concerns scopes only. -/
theorem keepsOthers_defineAll (own : Option Value) (heap : Heap) (scope : Nat)
    (bindings : List (String × Value)) : heap.KeepsOthers own (heap.defineAll scope bindings) := by
  unfold defineAll
  induction bindings generalizing heap with
  | nil => exact heap.keepsOthers_refl own
  | cons first rest ih =>
    have here : heap.KeepsOthers own (heap.define scope first.1 first.2) := .of_same rfl rfl rfl
    exact here.trans (ih _)

end Heap

/-- The event loop is as it was, and so are all strings, lists and maps that there were. -/
structure Machine.LeavesAlone (before after : Machine) : Prop where
  events : after.events = before.events
  heap : before.heap.KeepsOthers none after.heap

namespace Machine

/-- A machine that nothing happens to is left alone. -/
theorem leavesAlone_refl (machine : Machine) : machine.LeavesAlone machine :=
  ⟨rfl, machine.heap.keepsOthers_refl none⟩

/-- Going back to the global scope leaves all contents alone. -/
theorem leavesAlone_toTopLevel (machine : Machine) : machine.LeavesAlone machine.toTopLevel :=
  ⟨rfl, .of_same rfl rfl rfl⟩

/-- What is left alone twice is left alone. -/
theorem LeavesAlone.trans {first second third : Machine} (left : first.LeavesAlone second)
    (right : second.LeavesAlone third) : first.LeavesAlone third :=
  ⟨right.events.trans left.events, left.heap.trans right.heap⟩

end Machine

namespace Run

variable {α β : Type}

/-- However the computation ends, it has left the event loop and all contents alone. -/
def LeavesAlone (run : Run α) : Prop :=
  ∀ machine : Machine, (run machine).Leaves machine.LeavesAlone

/-- Giving a value leaves everything alone. -/
theorem LeavesAlone.pure (value : α) : (pure value : Run α).LeavesAlone :=
  fun machine => machine.leavesAlone_refl

/-- Failing leaves everything alone. -/
theorem LeavesAlone.raise (diagnostic : Diagnostic) : (raise diagnostic : Run α).LeavesAlone :=
  fun machine => machine.leavesAlone_refl

/-- A fault that points nowhere leaves everything alone. -/
theorem LeavesAlone.fault (fault : Fault) : (Run.fault fault : Run α).LeavesAlone := .raise _

/-- A fault at a span leaves everything alone. -/
theorem LeavesAlone.faultAt (fault : Fault) (span : Span) :
    (Run.faultAt fault span : Run α).LeavesAlone :=
  .raise _

/-- One computation after another leaves alone what both leave alone. -/
theorem LeavesAlone.bind {first : Run α} {rest : α → Run β} (alone : first.LeavesAlone)
    (onward : ∀ value, (rest value).LeavesAlone) : (first >>= rest).LeavesAlone := by
  intro machine
  refine bind_leaves (alone machine) fun value later left => ?_
  exact (onward value later).imp fun _ right => left.trans right

/-- Rewriting the diagnostics of failures changes nothing on the machine. -/
theorem LeavesAlone.mapFailure {run : Run α} (alone : run.LeavesAlone)
    (change : Diagnostic → Diagnostic) :
    (run.mapFailure change).LeavesAlone := by
  intro machine
  have left := alone machine
  unfold Run.mapFailure
  cases ended : run machine <;> rw [ended] at left <;> exact left

/-- A computation for every element of a list leaves alone what each of them does. -/
theorem LeavesAlone.mapM {run : α → Run β} (list : List α)
    (alone : ∀ element, (run element).LeavesAlone) :
    (list.mapM run).LeavesAlone := by
  induction list with
  | nil => exact .pure _
  | cons first rest ih =>
    rw [List.mapM_cons]
    exact (alone first).bind fun _ => ih.bind fun _ => .pure _

/-- Looking at the heap leaves everything alone. -/
theorem LeavesAlone.heap : heap.LeavesAlone := fun machine => machine.leavesAlone_refl

/-- Looking at the machine leaves everything alone. -/
theorem LeavesAlone.machine : Run.machine.LeavesAlone := fun machine => machine.leavesAlone_refl

/-- Making something on the heap leaves alone what the new heap keeps. -/
theorem LeavesAlone.create {new : Heap → α × Heap}
    (keeps : ∀ heap : Heap, heap.KeepsOthers none (new heap).2) : (create new).LeavesAlone :=
  fun machine => ⟨rfl, keeps machine.heap⟩

/-- Changing the heap leaves alone what the changed heap keeps. -/
theorem LeavesAlone.modifyHeap {change : Heap → Heap}
    (keeps : ∀ heap : Heap, heap.KeepsOthers none (change heap)) :
    (modifyHeap change).LeavesAlone :=
  fun machine => ⟨rfl, keeps machine.heap⟩

/-- Making a string leaves the event loop and all contents alone. -/
theorem newString_leavesAlone (content : Heap → String) :
    (create fun heap => heap.newString (content heap)).LeavesAlone :=
  .create fun heap => heap.keepsOthers_newString none _

/-- Reading a variable leaves the event loop and all contents alone. -/
theorem readVariable_leavesAlone (span : Span) (name : String) :
    (readVariable span name).LeavesAlone := by
  intro machine
  unfold readVariable
  split <;> exact machine.leavesAlone_refl

/-- Assigning to a variable leaves the event loop and all contents alone. -/
theorem assignVariable_leavesAlone (span : Span) (name : String) (value : Value) :
    (assignVariable span name value).LeavesAlone := by
  intro machine
  unfold assignVariable
  split
  · exact ⟨rfl, .of_same rfl rfl rfl⟩
  · exact machine.leavesAlone_refl

/-- Binding a name leaves the event loop and all contents alone. -/
theorem declare_leavesAlone (name : String) (value : Value) : (declare name value).LeavesAlone :=
  fun _ => ⟨rfl, .of_same rfl rfl rfl⟩

/-- Evaluating a literal leaves the event loop and all contents alone. -/
theorem literal_leavesAlone (value : Literal) : (literal value).LeavesAlone := by
  cases value with
  | text content => exact newString_leavesAlone fun _ => content
  | number | bool | nil => exact .pure _

/-- A numeric operator leaves the event loop and all contents alone. -/
theorem numeric_leavesAlone (op : BinaryOp) (left right : Value) :
    (numeric op left right).LeavesAlone := by
  unfold numeric
  split
  · exact .pure _
  · split <;> exact .fault _

/-- A binary operator leaves the event loop and all contents alone. -/
theorem binary_leavesAlone (op : BinaryOp) (left right : Value) :
    (Run.binary op left right).LeavesAlone := by
  unfold Run.binary
  split
  · exact LeavesAlone.heap.bind fun _ => .pure _
  · exact LeavesAlone.heap.bind fun _ => .pure _
  · exact newString_leavesAlone _
  · exact numeric_leavesAlone op _ _

/-- A unary operator leaves the event loop and all contents alone. -/
theorem unary_leavesAlone (span : Span) (op : UnaryOp) (operand : Value) :
    (Run.unary span op operand).LeavesAlone := by
  unfold Run.unary
  split
  · exact .pure _
  · split
    · exact .pure _
    · exact .faultAt _ _

/-- Getting a property leaves the event loop and all contents alone. -/
theorem property_leavesAlone (value : Value) (name : String) :
    (property value name).LeavesAlone := by
  have built : ∀ method : Builtin,
      (create fun heap => heap.newBuiltin method (some value)).LeavesAlone := fun _ =>
    .create fun _ => .of_same rfl rfl rfl
  unfold property
  split
  · refine LeavesAlone.heap.bind fun heap => ?_
    dsimp only
    split
    · exact .pure _
    · split
      · exact .create fun _ => .of_same rfl rfl rfl
      · exact .fault _
  · split
    · exact built _
    · exact .fault _
  · split
    · exact built _
    · exact .fault _
  · split
    · exact built _
    · exact .fault _
  · exact .fault _

/-- Asking for the class of the running method leaves the event loop and all contents alone. -/
theorem home_leavesAlone : home.LeavesAlone := fun machine => machine.leavesAlone_refl

/-- Getting a method of the superclass leaves the event loop and all contents alone. -/
theorem superMethod_leavesAlone (span : Span) (name : String) :
    (superMethod span name).LeavesAlone := by
  refine home_leavesAlone.bind fun cls => ?_
  split
  · exact .faultAt _ _
  · refine (readVariable_leavesAlone span "this").bind fun receiver => ?_
    split
    · exact .faultAt _ _
    · exact .create fun _ => .of_same rfl rfl rfl

/-- Closing a declaration leaves the event loop and all contents alone. -/
theorem close_leavesAlone (decl : FunctionDecl) : (close decl).LeavesAlone :=
  home_leavesAlone.bind fun _ => LeavesAlone.machine.bind fun _ => .create fun _ =>
    .of_same rfl rfl rfl

/-- Finding the class that a declaration inherits from leaves the event loop and all contents
alone. -/
theorem resolveSuperclass_leavesAlone (superclass : Option SuperclassName) :
    (resolveSuperclass superclass).LeavesAlone := by
  unfold resolveSuperclass
  split
  · exact .pure _
  · refine (readVariable_leavesAlone _ _).bind fun value => ?_
    split
    · exact .pure _
    · exact .faultAt _ _

/-- Making a class leaves the event loop and all contents alone. -/
theorem makeClass_leavesAlone (name : String) (superclass : Option Class)
    (methods : List FunctionDecl) :
    (makeClass name superclass methods).LeavesAlone := by
  refine LeavesAlone.machine.bind fun _ => ?_
  exact (LeavesAlone.create fun _ => .of_same rfl rfl rfl).bind fun _ => .pure _

/-- Printing a value leaves the event loop and all contents alone. -/
theorem printValue_leavesAlone (value : Value) : (printValue value).LeavesAlone := by
  intro machine
  unfold printValue Machine.print
  split <;> exact ⟨rfl, .of_same rfl rfl rfl⟩

/-- Checking a call leaves the event loop and all contents alone. -/
theorem checkCall_leavesAlone (decl : FunctionDecl) (count : Nat) :
    (checkCall decl count).LeavesAlone := by
  intro machine
  unfold checkCall
  split
  · exact machine.leavesAlone_refl
  · split <;> exact machine.leavesAlone_refl

/-- Opening the scope of a block leaves the event loop and all contents alone. -/
theorem blockScope_leavesAlone : blockScope.LeavesAlone := fun _ => ⟨rfl, .of_same rfl rfl rfl⟩

/-- Opening the scope of a body leaves the event loop and all contents alone. -/
theorem bodyScope_leavesAlone (activation : Activation) (arguments : List Value) :
    (bodyScope activation arguments).LeavesAlone := by
  refine .create fun heap => ?_
  have scope : heap.KeepsOthers none (heap.newScope (some activation.scope)).2 :=
    .of_same rfl rfl rfl
  exact scope.trans (Heap.keepsOthers_defineAll _ _ _ _)

end Run

/-- The arguments of a callback are new. -/
theorem Payload.arguments_leavesAlone (payload : Payload) : payload.arguments.LeavesAlone := by
  unfold Payload.arguments
  split
  · exact .pure _
  · exact (newString_leavesAlone _).bind fun _ => .pure _
  · refine (LeavesAlone.create fun _ => .of_same rfl rfl rfl).bind fun identity => ?_
    refine LeavesAlone.machine.bind fun machine => ?_
    refine (newString_leavesAlone _).bind fun body => ?_
    refine LeavesAlone.bind (.mapM _ fun header => ?_) fun pairs => ?_
    · refine (newString_leavesAlone _).bind fun name => ?_
      exact (newString_leavesAlone _).bind fun value => .pure _
    · refine (LeavesAlone.create fun heap => heap.keepsOthers_newMap none _).bind fun headers => ?_
      exact (LeavesAlone.create fun _ => .of_same rfl rfl rfl).bind fun _ => .pure _

/-- Every step of the plan leaves the event loop and all contents alone. -/
def Plan.LeavesAlone {α : Type} : Plan α → Prop
  | give _ => True
  | perform run next => run.LeavesAlone ∧ ∀ value, (next value).LeavesAlone
  | visit _ _ next => ∀ result, (next result).LeavesAlone

namespace Plan

variable {α : Type}

/-- A plan of one last step leaves alone what the step does. -/
theorem leavesAlone_last {run : Run α} (alone : run.LeavesAlone) : (last run).LeavesAlone :=
  ⟨alone, fun _ => trivial⟩

/-- A plan that binds a name leaves all contents alone. -/
theorem leavesAlone_declare (name : String) (value : Value) :
    (perform (declare name value) fun _ => give Flow.next).LeavesAlone :=
  ⟨declare_leavesAlone name value, fun _ => trivial⟩

end Plan

/-- The plan of an expression leaves the event loop and all contents alone. -/
theorem Expr.plan_leavesAlone (form : Expr) : form.plan.LeavesAlone := by
  cases form with
  | literal span value => exact leavesAlone_last (literal_leavesAlone value)
  | «variable» span name => exact leavesAlone_last (readVariable_leavesAlone span name)
  | this span => exact leavesAlone_last (readVariable_leavesAlone span "this")
  | super span name => exact leavesAlone_last (superMethod_leavesAlone span name)
  | group => exact fun _ => trivial
  | assign span name value =>
    exact fun value => ⟨assignVariable_leavesAlone span name value, fun _ => trivial⟩
  | binary span op left right =>
    exact fun left right => leavesAlone_last ((binary_leavesAlone op left right).mapFailure _)
  | logical span op left right =>
    intro left
    dsimp only
    split
    · trivial
    · exact fun _ => trivial
  | unary span op operand =>
    exact fun operand => leavesAlone_last (unary_leavesAlone span op operand)
  | call => exact fun _ _ _ => trivial
  | get span object name =>
    exact fun object => leavesAlone_last ((property_leavesAlone object name).mapFailure _)
  | set span object name value =>
    intro object
    cases object with
    | object ref => exact fun value => ⟨.modifyHeap fun _ => .of_same rfl rfl rfl, fun _ => trivial⟩
    | _ => exact leavesAlone_last (.faultAt _ _)

/-- The plan of a statement leaves the event loop and all contents alone. -/
theorem Stmt.plan_leavesAlone (form : Stmt) : form.plan.LeavesAlone := by
  cases form with
  | letDecl span name initializer =>
    cases initializer with
    | none => exact leavesAlone_declare name .nil
    | some value => exact fun value => leavesAlone_declare name value
  | function span decl =>
    exact ⟨close_leavesAlone decl, fun function => leavesAlone_declare decl.name function⟩
  | classDecl span name superclass methods =>
    refine ⟨resolveSuperclass_leavesAlone superclass, fun parent => ?_⟩
    exact ⟨makeClass_leavesAlone name parent methods, fun cls => leavesAlone_declare name cls⟩
  | expression | «while» => exact fun _ => trivial
  | print span value => exact fun value => ⟨printValue_leavesAlone value, fun _ => trivial⟩
  | block span body => exact ⟨blockScope_leavesAlone, fun _ _ => trivial⟩
  | conditional span condition thenBranch elseBranch =>
    intro value
    dsimp only
    split
    · exact fun _ => trivial
    · cases elseBranch with
      | none => trivial
      | some branch => exact fun _ => trivial
  | «return» span value =>
    cases value with
    | none => trivial
    | some value => exact fun _ => trivial
  | «break» => trivial

/-- The plan of an instantiation leaves the event loop and all contents alone. -/
theorem Class.plan_leavesAlone (cls : Class) (arguments : List Value) :
    (cls.plan arguments).LeavesAlone := by
  unfold Class.plan
  split
  · exact leavesAlone_last (.fault _)
  · refine ⟨.create fun _ => .of_same rfl rfl rfl, fun object => ?_⟩
    cases cls.findMethod? FunctionDecl.initializerName with
    | none => trivial
    | some method => exact fun _ => trivial

/-- Code other than a call of a built-in function leaves the event loop and all contents alone, but
for what code inside it does. -/
theorem Code.plan_leavesAlone {kind : ResultKind} (code : Code kind)
    (other : code.isBuiltin = false) :
    code.plan.LeavesAlone := by
  cases code with
  | expr form => exact form.plan_leavesAlone
  | exprs forms =>
    cases forms with
    | nil => trivial
    | cons first rest => exact fun _ _ => trivial
  | stmt form => exact form.plan_leavesAlone
  | stmts forms =>
    cases forms with
    | nil => trivial
    | cons first rest =>
      intro ending
      cases ending with
      | next => exact fun _ => trivial
      | returned | broke => trivial
  | loop condition body =>
    intro value
    dsimp only
    split
    · intro ending
      cases ending with
      | next => exact fun _ => trivial
      | returned | broke => trivial
    · trivial
  | call callee arguments span =>
    cases callee with
    | function | method | classObject => exact fun _ => trivial
    | builtin identity builtin receiver => contradiction
    | _ => exact leavesAlone_last (.fault _)
  | instantiation cls arguments => exact cls.plan_leavesAlone arguments
  | activation called arguments =>
    exact ⟨checkCall_leavesAlone _ _, fun _ => ⟨bodyScope_leavesAlone _ _, fun _ _ => trivial⟩⟩

end EventScript
