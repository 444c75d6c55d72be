/-!
# Stores

A store holds the current contents of all objects of one kind. Objects are known by their index, are
never removed, and keep their index for ever. The main statements say what reading gives after an
allocation (`get?_alloc`) or a write (`get?_set`).
-/

namespace EventScript

/-- The contents of all objects of one kind, by index. -/
structure Store (α : Type) where
  cells : Array α := #[]

namespace Store

variable {α : Type}

instance : Inhabited (Store α) := ⟨{}⟩

/-- The number of objects, which is also the index of the next one. -/
def size (store : Store α) : Nat := store.cells.size

/-- Adds an object and gives its index. -/
def alloc (store : Store α) (content : α) : Nat × Store α :=
  (store.size, ⟨store.cells.push content⟩)

/-- The content of an object, if there is one of that index. -/
def get? (store : Store α) (index : Nat) : Option α := store.cells[index]?

/-- Replaces the content of an object, if there is one of that index. -/
def set (store : Store α) (index : Nat) (content : α) : Store α :=
  ⟨store.cells.setIfInBounds index content⟩

/-- Changes the content of an object, if there is one of that index. -/
def modify (store : Store α) (index : Nat) (change : α → α) : Store α :=
  ⟨store.cells.modify index change⟩

/-- An allocation adds the new object and leaves the others as they are. -/
theorem get?_alloc (store : Store α) (content : α) (index : Nat) :
    (store.alloc content).2.get? index =
      if index = store.size then some content else store.get? index := by
  simp only [alloc, get?, size, Array.getElem?_push]
  rfl

/-- A write changes the content at its index only. -/
theorem get?_set (store : Store α) (written index : Nat) (content : α) :
    (store.set written content).get? index =
      if written = index ∧ written < store.size then some content else store.get? index := by
  simp only [set, get?, size, Array.getElem?_setIfInBounds]
  by_cases same : written = index
  · subst same
    by_cases inside : written < store.cells.size
    · simp [inside]
    · simp [inside]
  · simp [same]

/-- A change concerns the content at its index only. -/
theorem get?_modify (store : Store α) (changed index : Nat) (change : α → α) :
    (store.modify changed change).get? index =
      if changed = index then (store.get? index).map change else store.get? index := by
  simp [modify, get?, Array.getElem?_modify]

/-- Allocating adds one place. -/
@[simp] theorem size_alloc (store : Store α) (content : α) :
    (store.alloc content).2.size = store.size + 1 := by
  simp [alloc, size]

/-- Setting a place adds none. -/
@[simp] theorem size_set (store : Store α) (index : Nat) (content : α) :
    (store.set index content).size = store.size := by
  simp [set, size]

/-- Changing a place adds none. -/
@[simp] theorem size_modify (store : Store α) (index : Nat) (change : α → α) :
    (store.modify index change).size = store.size := by
  simp [modify, size]

end Store

end EventScript
