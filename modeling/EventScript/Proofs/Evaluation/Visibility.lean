import EventScript.Evaluation
import EventScript.Proofs.Evaluation.Contents

/-!
# Visible variables

A scope sees a name when it binds it or the scope around it, which is older, sees it. What a scope
sees it sees for ever, as scopes keep what they bind (`Heap.Sees.grows`), and a variable that is
seen has a value (`Heap.Sees.lookup?`): the search outward reaches the scope that binds it in time.
-/

namespace EventScript

namespace Heap

variable {heap : Heap} {name : String} {scope : Nat}

/-- The scope, or one around it, binds the name. -/
inductive Sees (heap : Heap) (name : String) : Nat → Prop where
  | here {scope : Nat} {content : Scope} (stored : heap.scopes.get? scope = some content)
      (bound : content.bindings.contains name = true) : Sees heap name scope
  | outer {scope parent : Nat} {content : Scope} (stored : heap.scopes.get? scope = some content)
      (around : content.parent = some parent) (older : parent < scope)
      (sees : Sees heap name parent) : Sees heap name scope

/-- Only a scope that exists sees something. -/
theorem Sees.lt_size (sees : heap.Sees name scope) : scope < heap.scopes.size := by
  have inside : ∀ content, heap.scopes.get? scope = some content → scope < heap.scopes.size := by
    intro content stored
    exact (Array.getElem?_eq_some_iff.mp stored).1
  cases sees with
  | here stored => exact inside _ stored
  | outer stored => exact inside _ stored

/-- What a scope sees it sees later. -/
theorem Sees.grows {later : Heap} (sees : heap.Sees name scope) (grows : heap.Grows later) :
    later.Sees name scope := by
  induction sees with
  | here stored bound =>
    obtain ⟨content, storedLater, _, keeps⟩ := grows.scopes _ _ stored
    exact .here storedLater (keeps name bound)
  | outer stored around older _ ih =>
    obtain ⟨content, storedLater, parent, _⟩ := grows.scopes _ _ stored
    exact .outer storedLater (parent.trans around) older ih

/-- Where a scope sees a name, the search for it ends at a scope that binds it. -/
theorem Sees.binderWithin? (sees : heap.Sees name scope) {bound : Nat} (enough : scope < bound) :
    ∃ binder content, heap.binderWithin? name bound scope = some binder ∧
      heap.scopes.get? binder = some content ∧ content.bindings.contains name = true := by
  induction sees generalizing bound with
  | @here scope content stored bound' =>
    obtain ⟨rest, rfl⟩ := Nat.exists_eq_succ_of_ne_zero (Nat.ne_zero_of_lt enough)
    refine ⟨scope, content, ?_, stored, bound'⟩
    rw [Heap.binderWithin?, stored]
    exact if_pos bound'
  | @outer scope parent content stored around older _ ih =>
    obtain ⟨rest, rfl⟩ := Nat.exists_eq_succ_of_ne_zero (Nat.ne_zero_of_lt enough)
    by_cases here : content.bindings.contains name = true
    · refine ⟨scope, content, ?_, stored, here⟩
      rw [Heap.binderWithin?, stored]
      exact if_pos here
    · have left : parent < rest := by omega
      obtain ⟨binder, found, search, storedBinder, binds⟩ := ih left
      refine ⟨binder, found, ?_, storedBinder, binds⟩
      rw [Heap.binderWithin?, stored]
      simp only [if_neg here, around]
      exact search

/-- A variable that is seen has a value. -/
theorem Sees.lookup? (sees : heap.Sees name scope) :
    ∃ value, heap.lookup? scope name = some value := by
  obtain ⟨binder, content, search, stored, binds⟩ := sees.binderWithin? (Nat.lt_succ_self scope)
  obtain ⟨value, found⟩ := Option.isSome_iff_exists.mp binds
  refine ⟨value, ?_⟩
  unfold Heap.lookup? Heap.binder?
  rw [search]
  simp only [stored, Option.bind_some]
  exact found

/-- A new scope is there and binds nothing. -/
theorem get?_newScope (heap : Heap) (parent : Option Nat) :
    (heap.newScope parent).2.scopes.get? (heap.newScope parent).1 = some { parent } := by
  show (heap.scopes.alloc _).2.get? heap.scopes.size = _
  rw [Store.get?_alloc, if_pos rfl]

/-- A new scope sees what the scope around it sees. -/
theorem Sees.newScope (sees : heap.Sees name scope) :
    (heap.newScope (some scope)).2.Sees name (heap.newScope (some scope)).1 :=
  .outer (heap.get?_newScope _) rfl sees.lt_size (sees.grows (heap.grows_newScope _))

/-- A scope sees a name that is bound in it. -/
theorem sees_define {content : Scope} (stored : heap.scopes.get? scope = some content)
    (value : Value) : (heap.define scope name value).Sees name scope := by
  have changed : (heap.define scope name value).scopes.get? scope =
      some { content with bindings := content.bindings.insert name value } := by
    show (heap.scopes.modify scope _).get? scope = _
    rw [Store.get?_modify, if_pos rfl, stored]
    rfl
  exact .here changed (content.bindings.contains_insert name value (.inl rfl))

/-- Binding several names lets the heap grow. -/
theorem grows_defineAll (heap : Heap) (scope : Nat) (bindings : List (String × Value)) :
    heap.Grows (heap.defineAll scope bindings) := by
  induction bindings generalizing heap with
  | nil => exact heap.grows_refl
  | cons first rest ih =>
    exact (heap.grows_define scope first.1 first.2).trans (ih _)

/-- The values bound have to have the property. -/
theorem All.defineAll {property : Value → Prop} (all : heap.All property) (scope : Nat)
    {bindings : List (String × Value)} (good : ∀ binding ∈ bindings, property binding.2) :
    (heap.defineAll scope bindings).All property := by
  induction bindings generalizing heap with
  | nil => exact all
  | cons first rest ih =>
    obtain ⟨goodFirst, goodRest⟩ := List.forall_mem_cons.mp good
    exact ih (all.define scope first.1 goodFirst) goodRest

end Heap

/-- The body of a function starts in a scope that sees what the scope around the function sees and,
for a method, the object. -/
theorem Activation.sees_this (activation : Activation) (arguments : List Value) (heap : Heap)
    (given : activation.receiver.isSome = true ∨ heap.Sees "this" activation.scope) :
    ((heap.newScope (some activation.scope)).2.defineAll (heap.newScope (some activation.scope)).1
      (activation.bindings arguments)).Sees "this" (heap.newScope (some activation.scope)).1 := by
  rcases given with method | around
  · obtain ⟨receiver, present⟩ := Option.isSome_iff_exists.mp method
    unfold Activation.bindings
    simp only [present]
    exact (Heap.sees_define (heap.get?_newScope _) receiver).grows (Heap.grows_defineAll _ _ _)
  · exact around.newScope.grows (Heap.grows_defineAll _ _ _)

end EventScript
