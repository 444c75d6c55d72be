import EventScript.Builtin.Call
import EventScript.Evaluation
import EventScript.Proofs.Evaluation.Contents

/-!
# Computations that keep what a machine holds

A computation keeps a property of values when, started on a machine whose values have it, it leaves
such a machine behind, with the scopes as they were, and gives a good result. So do all steps of the
evaluator but declaring a variable, assigning to one, and starting a block or the body of a
function. The rules for `pure`, `bind` and failures reduce it to the single operations on the heap.
-/

namespace EventScript

/-- The outcome leaves a machine with the same scopes that holds only values with the property, and
gives a good result. -/
def Outcome.Keeps {α : Type} (property : Value → Prop) (good : α → Prop) (before : Machine) :
    Outcome α → Prop
  | .done value later => later.All property ∧ before.KeepsScopes later ∧ good value
  | .failed _ later => later.All property ∧ before.KeepsScopes later
  | .exhausted => True

/-- From every machine that holds only values with the property, the outcome keeps it. -/
def Run.Keeps {α : Type} (property : Value → Prop) (good : α → Prop) (run : Run α) : Prop :=
  ∀ machine : Machine, machine.All property → (run machine).Keeps property good machine

/-- Whether a value is data that refers to nothing but contents on the heap. -/
def Value.isPlain : Value → Bool
  | .nil | .bool _ | .number _ | .string _ | .list _ | .map _ | .object _ => true
  | _ => false

/-- All plain data has the property. -/
def Value.Plain (property : Value → Prop) : Prop := ∀ value, value.isPlain = true → property value

namespace Run

variable {α β : Type} {property : Value → Prop} {good : α → Prop} {next : β → Prop}

/-- Giving a good value keeps the property. -/
theorem Keeps.pure {value : α} (isGood : good value) : Keeps property good (pure value) :=
  fun machine all => ⟨all, machine.keepsScopes_refl, isGood⟩

/-- Failing keeps the property. -/
theorem Keeps.raise (diagnostic : Diagnostic) : Keeps property good (raise diagnostic) :=
  fun machine all => ⟨all, machine.keepsScopes_refl⟩

/-- Failing with a fault keeps the property. -/
theorem Keeps.fault (fault : Fault) : Keeps property good (Run.fault fault) := .raise _

/-- Failing with a fault at a span keeps the property. -/
theorem Keeps.faultAt (fault : Fault) (span : Span) :
    Keeps property good (Run.faultAt fault span) :=
  .raise _

/-- One computation after another keeps what both keep. -/
theorem Keeps.bind {first : Run α} {rest : α → Run β} (keeps : Keeps property good first)
    (onward : ∀ value, good value → Keeps property next (rest value)) :
    Keeps property next (first >>= rest) := by
  intro machine all
  have outcome := keeps machine all
  cases done : first machine with
  | exhausted =>
    rw [bind_exhausted done]
    trivial
  | failed diagnostic later =>
    rw [done] at outcome
    rw [bind_failed done]
    exact outcome
  | done value later =>
    rw [done] at outcome
    obtain ⟨laterAll, kept, isGood⟩ := outcome
    have final := onward value isGood later laterAll
    rw [bind_done done]
    cases ended : rest value later with
    | exhausted => trivial
    | failed diagnostic last =>
      rw [ended] at final
      exact ⟨final.1, kept.trans final.2⟩
    | done result last =>
      rw [ended] at final
      exact ⟨final.1, kept.trans final.2.1, final.2.2⟩

/-- Only the wording of failures changes. -/
theorem keeps_mapFailure {run : Run α} {machine : Machine}
    (keeps : (run machine).Keeps property good machine) (change : Diagnostic → Diagnostic) :
    (run.mapFailure change machine).Keeps property good machine := by
  unfold Run.mapFailure
  cases done : run machine <;> rw [done] at keeps <;> exact keeps

/-- Rewriting the diagnostics of failures keeps the property. -/
theorem Keeps.mapFailure {run : Run α} (keeps : Keeps property good run)
    (change : Diagnostic → Diagnostic) : Keeps property good (run.mapFailure change) :=
  fun machine all => keeps_mapFailure (keeps machine all) change

/-- Pointing failures at a span keeps the property. -/
theorem Keeps.withSpan {run : Run α} (keeps : Keeps property good run) (span : Span) :
    Keeps property good (run.withSpan span) := keeps.mapFailure _

/-- A computation for every element of a list keeps what each of them keeps. -/
theorem Keeps.mapM {run : α → Run β} (list : List α)
    (keeps : ∀ element ∈ list, Keeps property next (run element)) :
    Keeps property (fun results => ∀ result ∈ results, next result) (list.mapM run) := by
  induction list with
  | nil => exact .pure nofun
  | cons first rest ih =>
    rw [List.mapM_cons]
    refine (keeps first List.mem_cons_self).bind fun result good => ?_
    refine (ih fun element member => keeps element (List.mem_cons_of_mem _ member)).bind
      fun results others => .pure ?_
    intro other member
    rcases List.mem_cons.mp member with rfl | inRest
    · exact good
    · exact others other inRest

/-- Looking at the heap gives one with good values only. -/
theorem Keeps.heap : Keeps property (Heap.All property) heap :=
  fun machine all => ⟨all, machine.keepsScopes_refl, all.heap⟩

/-- Looking at the machine keeps the property. -/
theorem Keeps.machine : Keeps property (fun _ => True) machine :=
  fun machine all => ⟨all, machine.keepsScopes_refl, trivial⟩

/-- Creating something keeps the property if the heap does. -/
theorem Keeps.create {new : Heap → α × Heap}
    (keeps : ∀ heap : Heap, heap.All property →
      good (new heap).1 ∧ (new heap).2.All property ∧ heap.KeepsScopes (new heap).2) :
    Keeps property good (create new) := by
  intro machine all
  obtain ⟨isGood, heapAll, kept⟩ := keeps machine.heap all.heap
  exact ⟨⟨heapAll, all.events⟩, ⟨kept, rfl, rfl⟩, isGood⟩

/-- Changing the heap keeps the property if the heap does. -/
theorem Keeps.modifyHeap {change : Heap → Heap}
    (keeps : ∀ heap : Heap, heap.All property →
      (change heap).All property ∧ heap.KeepsScopes (change heap)) :
    Keeps property (fun _ => True) (modifyHeap change) := by
  intro machine all
  obtain ⟨heapAll, kept⟩ := keeps machine.heap all.heap
  exact ⟨⟨heapAll, all.events⟩, ⟨kept, rfl, rfl⟩, trivial⟩

/-- Changing other parts of the machine than its heap, scope and calls keeps the property if the
event loop does. -/
theorem Keeps.modify {change : Machine → Machine}
    (heap : ∀ machine, (change machine).heap = machine.heap)
    (scope : ∀ machine, (change machine).scope = machine.scope)
    (frames : ∀ machine, (change machine).frames = machine.frames)
    (events : ∀ machine, machine.events.All property → (change machine).events.All property) :
    Keeps property (fun _ => True) (modify change) := by
  intro machine all
  refine ⟨⟨heap machine ▸ all.heap, events machine all.events⟩, ?_, trivial⟩
  exact ⟨heap machine ▸ machine.heap.keepsScopes_refl, scope machine, frames machine⟩

/-- Reading a variable keeps the property of all values. -/
theorem readVariable_keeps (span : Span) (name : String) :
    Keeps property property (readVariable span name) := by
  intro machine all
  unfold readVariable
  cases found : machine.heap.lookup? machine.scope name with
  | none => exact ⟨all, machine.keepsScopes_refl⟩
  | some value => exact ⟨all, machine.keepsScopes_refl, all.heap.lookup? found⟩

/-- Making a string keeps the property of all values. -/
theorem newString_keeps (plain : Value.Plain property) (content : Heap → String) :
    Keeps property property (create fun heap => heap.newString (content heap)) :=
  .create fun _ all => ⟨plain _ rfl, all.newString _, .of_same rfl rfl⟩

/-- Evaluating a literal keeps the property of all values. -/
theorem literal_keeps (plain : Value.Plain property) (value : Literal) :
    Keeps property property (literal value) := by
  cases value with
  | text content => exact newString_keeps plain fun _ => content
  | number | bool | nil => exact .pure (plain _ rfl)

/-- A numeric operator keeps the property of all values. -/
theorem numeric_keeps (plain : Value.Plain property) (op : BinaryOp) (left right : Value) :
    Keeps property property (numeric op left right) := by
  unfold numeric
  split
  · refine .pure (plain _ ?_)
    cases op <;> rfl
  · split <;> exact .fault _

/-- A binary operator keeps the property of all values. -/
theorem binary_keeps (plain : Value.Plain property) (op : BinaryOp) (left right : Value) :
    Keeps property property (binary op left right) := by
  unfold binary
  split
  · exact Keeps.heap.bind fun _ _ => .pure (plain _ rfl)
  · exact Keeps.heap.bind fun _ _ => .pure (plain _ rfl)
  · exact newString_keeps plain _
  · exact numeric_keeps plain op _ _

/-- A unary operator keeps the property of all values. -/
theorem unary_keeps (plain : Value.Plain property) (span : Span) (op : UnaryOp) (operand : Value) :
    Keeps property property (unary span op operand) := by
  unfold unary
  split
  · exact .pure (plain _ rfl)
  · split
    · exact .pure (plain _ rfl)
    · exact .faultAt _ _

/-- Binding a method keeps the property of all values. -/
theorem newMethod_keeps {receiver : Value} {method : Method}
    (good : ∀ identity, property (.method identity receiver method)) :
    Keeps property property (create fun heap => heap.newMethod receiver method) :=
  .create fun heap all => ⟨good heap.nextIdentity, all.newIdentity, .of_same rfl rfl⟩

section Machines

variable {machine : Machine}

/-- A field of an object has the property, and the methods found have to have it. -/
theorem property_keeps (all : machine.All property) (value : Value) (name : String)
    (builtin : ∀ (identity : Nat) {found : Builtin}, value.builtinMethod? name = some found →
      property (.builtin identity found (some value)))
    (method : ∀ {ref identity : Nat} {object : Instance} {found : Method}, value = .object ref →
      machine.heap.instances.get? ref = some object → property (.classObject object.cls) →
      object.cls.findMethod? name = some found → property (.method identity value found)) :
    (Run.property value name machine).Keeps property property machine := by
  have built : ∀ found, value.builtinMethod? name = some found →
      (create (fun heap => heap.newBuiltin found (some value)) machine).Keeps property property
        machine :=
    fun _ found => ⟨⟨all.heap.newIdentity, all.events⟩, ⟨.of_same rfl rfl, rfl, rfl⟩,
      builtin _ found⟩
  have fault : ∀ fault : Fault, (Run.fault fault machine : Outcome Value).Keeps property property
      machine := fun _ => ⟨all, machine.keepsScopes_refl⟩
  cases value with
  | object ref =>
    simp only [Run.property, bind, Run.heap]
    unfold Heap.object
    cases present : machine.heap.instances.get? ref with
    | none => exact fault _
    | some object =>
      obtain ⟨cls, fields⟩ := all.heap.instances ref object present
      simp only [Option.getD_some]
      cases stored : object.fields.find? name with
      | some field => exact ⟨all, machine.keepsScopes_refl, fields.find? stored⟩
      | none =>
        cases found : object.cls.findMethod? name with
        | none => exact fault _
        | some found' => exact newMethod_keeps (fun _ => method rfl present cls found) machine all
  | string ref | list ref | map ref =>
    simp only [Run.property]
    cases found : Value.builtinMethod? _ name with
    | some method => exact built method found
    | none => exact fault _
  | _ => exact fault _

/-- With `this` seen and a superclass there, all that is left to find is the method. -/
theorem superMethod_eq {parent : Class} {receiver : Value}
    (superclass : machine.home.bind Class.superclass? = some parent)
    (this : machine.heap.lookup? machine.scope "this" = some receiver) (span : Span)
    (name : String) :
    superMethod span name machine =
      match parent.findMethod? name with
      | none => .failed ((Fault.undefinedProperty name).diagnosticAt span) machine
      | some method =>
        .done (machine.heap.newMethod receiver method).1
          { machine with heap := (machine.heap.newMethod receiver method).2 } := by
  have read : readVariable span "this" machine = .done receiver machine := by
    unfold readVariable
    rw [this]
  have home : home machine = .done machine.home machine := rfl
  unfold superMethod
  simp only [bind, home, superclass, read]
  cases parent.findMethod? name <;> rfl

/-- The method of the superclass that is found has to have the property. -/
theorem superMethod_keeps (all : machine.All property) (span : Span) (name : String)
    (method : ∀ {parent : Class} {receiver : Value} {found : Method} (identity : Nat),
      machine.home.bind Class.superclass? = some parent →
      machine.heap.lookup? machine.scope "this" = some receiver →
      parent.findMethod? name = some found → property (.method identity receiver found)) :
    (superMethod span name machine).Keeps property property machine := by
  have home : home machine = .done machine.home machine := rfl
  cases superclass : machine.home.bind Class.superclass? with
  | none =>
    simp only [superMethod, bind, home, superclass]
    exact ⟨all, machine.keepsScopes_refl⟩
  | some parent =>
    cases this : machine.heap.lookup? machine.scope "this" with
    | none =>
      simp only [superMethod, bind, home, superclass, readVariable, this]
      exact ⟨all, machine.keepsScopes_refl⟩
    | some receiver =>
      rw [superMethod_eq superclass this]
      cases found : parent.findMethod? name with
      | none => exact ⟨all, machine.keepsScopes_refl⟩
      | some method' =>
        exact newMethod_keeps (fun identity => method identity superclass this found) machine all

/-- The function that is made has to have the property. -/
theorem close_keeps (all : machine.All property) {decl : FunctionDecl}
    (good : ∀ identity, property
      (.function identity { decl, scope := machine.scope, home := machine.home })) :
    (close decl machine).Keeps property property machine :=
  ⟨⟨all.heap.newIdentity, all.events⟩, ⟨.of_same rfl rfl, rfl, rfl⟩, good _⟩

/-- The class that is made has to have the property. -/
theorem makeClass_keeps (all : machine.All property) {name : String} {superclass : Option Class}
    {methods : List FunctionDecl}
    (good : ∀ {cls : Value} {later : Machine},
      makeClass name superclass methods machine = .done cls later → property cls) :
    (makeClass name superclass methods machine).Keeps property property machine :=
  ⟨⟨all.heap.newIdentity, all.events⟩, ⟨.of_same rfl rfl, rfl, rfl⟩, good rfl⟩

end Machines

/-- Checking a call keeps the property of all values. -/
theorem checkCall_keeps (decl : FunctionDecl) (count : Nat) :
    Keeps property (fun _ => True) (checkCall decl count) := by
  intro machine all
  unfold checkCall
  split
  · exact ⟨all, machine.keepsScopes_refl⟩
  · split
    · exact ⟨all, machine.keepsScopes_refl⟩
    · exact ⟨all, machine.keepsScopes_refl, trivial⟩

/-- Finding the class that a declaration inherits from keeps the property of all values. -/
theorem resolveSuperclass_keeps (superclass : Option SuperclassName) :
    Keeps property (fun found => ∀ cls ∈ found, property (.classObject cls))
      (resolveSuperclass superclass) := by
  unfold resolveSuperclass
  split
  · exact .pure fun _ member => absurd member (Option.not_mem_none _)
  · refine (readVariable_keeps _ _).bind fun value good => ?_
    split
    · exact .pure fun cls member => Option.some.inj member ▸ good
    · exact .faultAt _ _

/-- Looking up the superclass changes nothing, and finds one if one is named. -/
theorem resolveSuperclass_done {superclass : Option SuperclassName} {parent : Option Class}
    {machine later : Machine}
    (resolved : resolveSuperclass superclass machine = .done parent later) :
    later = machine ∧ parent.isSome = superclass.isSome := by
  cases superclass with
  | none =>
    obtain ⟨rfl, rfl⟩ := Outcome.done.inj resolved
    exact ⟨rfl, rfl⟩
  | some named =>
    simp only [resolveSuperclass, bind, readVariable] at resolved
    cases found : machine.heap.lookup? machine.scope named.name with
    | none =>
      rw [found] at resolved
      contradiction
    | some value =>
      rw [found] at resolved
      cases value with
      | classObject cls =>
        obtain ⟨rfl, rfl⟩ := Outcome.done.inj resolved
        exact ⟨rfl, rfl⟩
      | _ => contradiction

/-- Printing a value keeps the property of all values. -/
theorem printValue_keeps (value : Value) :
    Keeps property (fun _ => True) (printValue value) := by
  intro machine all
  unfold printValue Machine.print
  cases machine.sink <;>
    exact ⟨⟨all.heap, all.events⟩, ⟨machine.heap.keepsScopes_refl, rfl, rfl⟩, trivial⟩

/-- Making an instance keeps the property of all values. -/
theorem newInstance_keeps (plain : Value.Plain property) {cls : Class}
    (good : property (.classObject cls)) :
    Keeps property property (create fun heap => heap.newInstance cls) :=
  .create fun heap all => ⟨plain _ rfl, all.allocInstance { cls } good OrderedMap.all_empty,
    heap.keepsScopes_allocInstance _⟩

/-- Setting a field keeps the property of all values. -/
theorem setField_keeps (ref : Nat) (name : String) {value : Value} (good : property value) :
    Keeps property (fun _ => True) (modifyHeap fun heap => heap.setField ref name value) :=
  .modifyHeap fun heap all => ⟨all.setField ref name good, heap.keepsScopes_setField ref name value⟩

end Run

end EventScript
