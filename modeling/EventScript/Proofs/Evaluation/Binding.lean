import EventScript.Proofs.Evaluation.Visibility

/-!
# Where a variable is found

`Heap.Finds` says which scope the search for a name ends at, going outward from a scope, and which
value is found there. The search has the same end for as long as every scope retains what it says
about the name (`Heap.Retains`): other names may be bound, and new scopes may bind the name.
-/

namespace EventScript

/-- The scope is inside the same one, and says the same about the name. -/
def Scope.Retains (name : String) (before after : Scope) : Prop :=
  after.parent = before.parent ∧ after.bindings.find? name = before.bindings.find? name

/-- A scope that nothing happens to retains its names. -/
theorem Scope.retains_refl (name : String) (scope : Scope) : scope.Retains name scope := ⟨rfl, rfl⟩

/-- The scopes that are there retain what they say about the name. -/
def Heap.Retains (name : String) (before after : Heap) : Prop :=
  before.scopes.Extends (Scope.Retains name) after.scopes

namespace Heap

variable {heap before after : Heap} {name : String}

/-- A heap with the same scopes retains all names. -/
theorem Retains.of_same (scopes : after.scopes = before.scopes) : before.Retains name after := by
  unfold Retains
  rw [scopes]
  exact Store.extends_refl (Scope.retains_refl name)

/-- A heap that nothing happens to retains all names. -/
theorem retains_refl (name : String) (heap : Heap) : heap.Retains name heap := .of_same rfl

/-- Names that are retained twice are retained. -/
theorem Retains.trans {later : Heap} (first : before.Retains name after)
    (second : after.Retains name later) : before.Retains name later :=
  Store.Extends.trans first second fun _ _ _ left right =>
    ⟨right.1.trans left.1, right.2.trans left.2⟩

/-- A new scope leaves the names of the others. -/
theorem retains_newScope (name : String) (heap : Heap) (parent : Option Nat) :
    heap.Retains name (heap.newScope parent).2 :=
  Store.extends_alloc (Scope.retains_refl name) _

/-- Binding another name leaves alone what scopes say about this one. -/
theorem retains_define {other : String} (different : other ≠ name) (heap : Heap) (scope : Nat)
    (value : Value) : heap.Retains name (heap.define scope other value) := by
  refine Store.extends_modify (Scope.retains_refl name) scope fun content => ⟨rfl, ?_⟩
  show (content.bindings.insert other value).find? name = content.bindings.find? name
  rw [OrderedMap.find?_insert, if_neg different]

/-- Binding other names leaves alone what scopes say about this one. -/
theorem retains_defineAll {bindings : List (String × Value)}
    (different : ∀ binding ∈ bindings, binding.1 ≠ name) (heap : Heap) (scope : Nat) :
    heap.Retains name (heap.defineAll scope bindings) := by
  induction bindings generalizing heap with
  | nil => exact retains_refl name heap
  | cons first rest ih =>
    obtain ⟨differentFirst, differentRest⟩ := List.forall_mem_cons.mp different
    have head := retains_define differentFirst heap scope first.2
    exact head.trans (ih differentRest _)

/-- A scope that was not there before may bind any name. -/
theorem Retains.define {scope : Nat} (retains : before.Retains name after)
    (new : before.scopes.get? scope = none) (other : String) (value : Value) :
    before.Retains name (after.define scope other value) := by
  intro index content present
  obtain ⟨later, stored, same⟩ := retains index content present
  have outside : scope ≠ index := by
    rintro rfl
    rw [present] at new
    contradiction
  refine ⟨later, ?_, same⟩
  show (after.scopes.modify scope _).get? index = some later
  rw [Store.get?_modify, if_neg outside, stored]

/-- A scope that was not there before may bind any names. -/
theorem Retains.defineAll {scope : Nat} (retains : before.Retains name after)
    (new : before.scopes.get? scope = none) (bindings : List (String × Value)) :
    before.Retains name (after.defineAll scope bindings) := by
  induction bindings generalizing after with
  | nil => exact retains
  | cons first rest ih => exact ih (retains.define new first.1 first.2)

/-- The search for a name from a scope outward ends at `binder`, where the name has that value. -/
inductive Finds (heap : Heap) (name : String) (binder : Nat) (value : Value) : Nat → Prop where
  | here {content : Scope} (stored : heap.scopes.get? binder = some content)
      (bound : content.bindings.find? name = some value) : Finds heap name binder value binder
  | outer {scope parent : Nat} {content : Scope} (stored : heap.scopes.get? scope = some content)
      (unbound : content.bindings.find? name = none) (around : content.parent = some parent)
      (older : parent < scope) (finds : Finds heap name binder value parent) :
      Finds heap name binder value scope

variable {binder scope : Nat} {value : Value}

/-- Only a scope that exists finds something. -/
theorem Finds.lt_size (finds : heap.Finds name binder value scope) : scope < heap.scopes.size := by
  cases finds with
  | here stored => exact (Array.getElem?_eq_some_iff.mp stored).1
  | outer stored => exact (Array.getElem?_eq_some_iff.mp stored).1

/-- What is found stays so while scopes retain what they say about the name. -/
theorem Finds.retains (finds : before.Finds name binder value scope)
    (retains : before.Retains name after) : after.Finds name binder value scope := by
  induction finds with
  | here stored bound =>
    obtain ⟨content, storedLater, _, same⟩ := retains _ _ stored
    exact .here storedLater (same.trans bound)
  | outer stored unbound around older _ ih =>
    obtain ⟨content, storedLater, parent, same⟩ := retains _ _ stored
    exact .outer storedLater (same.trans unbound) (parent.trans around) older ih

/-- The scope at which the search ends binds the name. -/
theorem Finds.stored (finds : heap.Finds name binder value scope) :
    ∃ content, heap.scopes.get? binder = some content ∧
      content.bindings.find? name = some value := by
  induction finds with
  | here stored bound => exact ⟨_, stored, bound⟩
  | outer _ _ _ _ _ ih => exact ih

/-- The bounded search ends there if the bound suffices. -/
theorem Finds.binderWithin? (finds : heap.Finds name binder value scope) {bound : Nat}
    (enough : scope < bound) : heap.binderWithin? name bound scope = some binder := by
  induction finds generalizing bound with
  | here stored bound' =>
    obtain ⟨rest, rfl⟩ := Nat.exists_eq_succ_of_ne_zero (Nat.ne_zero_of_lt enough)
    rw [Heap.binderWithin?, stored]
    simp only [OrderedMap.contains, bound', Option.isSome_some, if_true]
  | @outer scope parent content stored unbound around older _ ih =>
    obtain ⟨rest, rfl⟩ := Nat.exists_eq_succ_of_ne_zero (Nat.ne_zero_of_lt enough)
    have left : parent < rest := by omega
    rw [Heap.binderWithin?, stored]
    simp only [OrderedMap.contains, unbound, around, Option.isSome_none, Bool.false_eq_true,
      if_false]
    exact ih left

/-- The scope where the search ends is the one that is found to bind the name. -/
theorem Finds.binder? (finds : heap.Finds name binder value scope) :
    heap.binder? scope name = some binder := finds.binderWithin? (Nat.lt_succ_self scope)

/-- The value where the search ends is the one that is looked up. -/
theorem Finds.lookup? (finds : heap.Finds name binder value scope) :
    heap.lookup? scope name = some value := by
  obtain ⟨content, stored, bound⟩ := finds.stored
  unfold Heap.lookup?
  rw [finds.binder?]
  simp only [stored, Option.bind_some]
  exact bound

/-- A new scope finds what the scope around it finds. -/
theorem Finds.newScope (finds : heap.Finds name binder value scope) :
    (heap.newScope (some scope)).2.Finds name binder value (heap.newScope (some scope)).1 :=
  .outer (heap.get?_newScope _) rfl rfl finds.lt_size (finds.retains (retains_newScope name heap _))

/-- A scope finds a name that is bound in it. -/
theorem finds_define {content : Scope} (stored : heap.scopes.get? scope = some content)
    (name : String) (value : Value) :
    (heap.define scope name value).Finds name scope value scope := by
  have changed : (heap.define scope name value).scopes.get? scope =
      some { content with bindings := content.bindings.insert name value } := by
    show (heap.scopes.modify scope _).get? scope = _
    rw [Store.get?_modify, if_pos rfl, stored]
    rfl
  refine .here changed ?_
  show (content.bindings.insert name value).find? name = some value
  rw [OrderedMap.find?_insert, if_pos rfl]

end Heap

end EventScript
