import EventScript.Proofs.Evaluation.Assignment
import EventScript.Proofs.Maps.Filing
import EventScript.Proofs.Resolution.Classes

/-!
# Fields and methods

An instance gives the field of a name if it has one, and else the method that its class has: the
last one of this name that the class declaration lists, and if it lists none, the one that the
superclass has (`Class.Has`). Searching the lineage of a class that was made by declarations finds
just that method (`Class.Declared.has_iff`), so this is what a property comes to
(`Run.property_looked`). Storing a field changes this one property of the one instance and no other
property of anything (`Run.property_setField`).
-/

namespace EventScript

open Run

/-- The last of the declarations that has the name. -/
def FunctionDecl.last? (name : String) (decls : List FunctionDecl) : Option FunctionDecl :=
  (decls.filter fun decl => decl.name == name).getLast?

/-- Filing the declarations one after the other keeps the last one of each name. -/
theorem FunctionDecl.find?_ofList (name : String) (decls : List FunctionDecl) :
    (OrderedMap.ofList (decls.map fun decl => (decl.name, decl))).find? name =
      FunctionDecl.last? name decls := by
  induction decls using List.reverseRecOn with
  | nil => rfl
  | append_singleton decls last ih =>
    unfold last? at ih ⊢
    rw [List.map_append, List.map_singleton, OrderedMap.ofList_concat, OrderedMap.find?_insert, ih,
      List.filter_append]
    by_cases same : last.name = name
    · simp [same]
    · simp [same]

/-- The class files what its declaration lists. -/
theorem Occasion.Makes.find?_eq {occasion : Occasion} {decls : List FunctionDecl} {cls : Class}
    (makes : occasion.Makes decls cls) (name : String) :
    cls.methods.find? name = FunctionDecl.last? name decls := by
  cases makes with
  | intro resolved made =>
    obtain rfl := Value.classObject.inj (Outcome.done.inj made).1
    exact FunctionDecl.find?_ofList name decls

namespace Class

variable {record : List Occasion} {name : String}

/-- The method that a class has under a name: the last one that the class declaration lists which
has made the class, and if it lists none, the one that the superclass has. -/
inductive Has (record : List Occasion) (name : String) : Class → Method → Prop where
  | own {cls : Class} {occasion : Occasion} {decls : List FunctionDecl} {decl : FunctionDecl}
      (ran : occasion ∈ record) (makes : occasion.Makes decls cls)
      (last : FunctionDecl.last? name decls = some decl) : Has record name cls ⟨cls, decl⟩
  | inherited {cls parent : Class} {method : Method}
      (unlisted : ∀ occasion ∈ record, ∀ decls, occasion.Makes decls cls →
        FunctionDecl.last? name decls = none)
      (superclass : cls.superclass? = some parent) (has : Has record name parent method) :
      Has record name cls method

/-- The class and its ancestors were made by class declarations that were run, or else have no
methods. -/
def Declared (record : List Occasion) (cls : Class) : Prop :=
  ∀ ancestor, cls.Inherits ancestor →
    ancestor.methods = {} ∨ ∃ occasion ∈ record, ∃ decls, occasion.Makes decls ancestor

/-- All classes are declared. -/
theorem declared_passed (record : List Occasion) :
    Class.Passed (Class.Declared record) (· ∈ record) where
  bare identity name scope := by
    intro ancestor inherits
    cases inherits with
    | same => exact .inl rfl
    | onward superclass => contradiction
  inherits declared inherits further onward := declared further (inherits.trans onward)
  made := by
    intro occasion decls cls ran makes inherited ancestor inherits
    cases inherits with
    | same => exact .inr ⟨occasion, ran, decls, makes⟩
    | onward superclass inherits => exact inherited _ superclass ancestor inherits

namespace Declared

variable {cls parent : Class} {decl : FunctionDecl} {method : Method}

/-- The superclass of a class that was declared was declared. -/
theorem superclass (declared : cls.Declared record) (superclass : cls.superclass? = some parent) :
    parent.Declared record :=
  (declared_passed record).inherits declared (.onward superclass (.same parent))

/-- A declared class files only what declarations list that have made it. -/
theorem exists_of_find? (declared : cls.Declared record)
    (filed : cls.methods.find? name = some decl) :
    ∃ occasion ∈ record, ∃ decls, occasion.Makes decls cls ∧
      FunctionDecl.last? name decls = some decl := by
  rcases declared cls (.same cls) with none | ⟨occasion, ran, decls, makes⟩
  · rw [none] at filed
    contradiction
  · exact ⟨occasion, ran, decls, makes, (makes.find?_eq name).symm.trans filed⟩

/-- What a declared class has under a name is the nearest method. -/
theorem has_iff (declared : cls.Declared record) :
    cls.Has record name method ↔ cls.Nearest name method := by
  constructor
  · intro has
    induction has with
    | own ran makes last => exact .own ((makes.find?_eq name).trans last)
    | @inherited cls parent method unlisted superclass _ ih =>
      have unfiled : cls.methods.find? name = none := by
        by_contra listed
        obtain ⟨decl, filed⟩ := Option.ne_none_iff_exists'.mp listed
        obtain ⟨occasion, ran, decls, makes, last⟩ := declared.exists_of_find? filed
        rw [unlisted occasion ran decls makes] at last
        contradiction
      exact .inherited unfiled superclass (ih (declared.superclass superclass))
  · intro nearest
    induction nearest with
    | own filed =>
      obtain ⟨occasion, ran, decls, makes, last⟩ := declared.exists_of_find? filed
      exact .own ran makes last
    | inherited unfiled superclass _ ih =>
      have unlisted : ∀ occasion ∈ record, ∀ decls, occasion.Makes decls _ →
          FunctionDecl.last? name decls = none :=
        fun _ _ _ makes => (makes.find?_eq name).symm.trans unfiled
      exact .inherited unlisted superclass (ih (declared.superclass superclass))

end Declared

end Class

/-- What looking up a property of an instance comes to: its field, and if it has none, the method
that its class has, bound to it. -/
inductive Instance.Looked (record : List Occasion) (object : Instance) (ref : Nat) (name : String)
    (machine : Machine) : Outcome Value → Prop where
  | field {value : Value} (stored : object.fields.find? name = some value) :
      Looked record object ref name machine (.done value machine)
  | method {method : Method} (unset : object.fields.find? name = none)
      (has : object.cls.Has record name method) :
      Looked record object ref name machine
        (.done (.method machine.heap.nextIdentity (.object ref) method)
          { machine with heap := machine.heap.newIdentity.2 })
  | undefined (unset : object.fields.find? name = none)
      (lacks : ∀ method, ¬object.cls.Has record name method) :
      Looked record object ref name machine
        (.failed (Fault.undefinedProperty name).diagnostic machine)

namespace Run

variable {record : List Occasion} {machine : Machine} {ref : Nat}

/-- A property is searched for in the fields and then in the lineage of the class. -/
theorem property_object (ref : Nat) (name : String) (machine : Machine) :
    property (.object ref) name machine =
      match (machine.heap.object ref).fields.find? name,
        (machine.heap.object ref).cls.findMethod? name with
      | some value, _ => .done value machine
      | none, some method =>
        .done (.method machine.heap.nextIdentity (.object ref) method)
          { machine with heap := machine.heap.newIdentity.2 }
      | none, none => .failed (Fault.undefinedProperty name).diagnostic machine := by
  have read : heap machine = .done machine.heap machine := rfl
  simp only [property, bind, read]
  cases (machine.heap.object ref).fields.find? name with
  | some value => rfl
  | none =>
    cases (machine.heap.object ref).cls.findMethod? name with
    | some method => rfl
    | none => rfl

/-- The property of an instance is its field, or else the method that its class has. -/
theorem property_looked {object : Instance}
    (present : machine.heap.instances.get? ref = some object)
    (declared : object.cls.Declared record) (name : String) :
    object.Looked record ref name machine (property (.object ref) name machine) := by
  have content : machine.heap.object ref = object := by
    unfold Heap.object
    rw [present]
    rfl
  rw [property_object, content]
  cases stored : object.fields.find? name with
  | some value => exact .field stored
  | none =>
    cases found : object.cls.findMethod? name with
    | some method =>
      have nearest := Class.findMethod?_iff.mp found
      exact .method stored (declared.has_iff.mpr nearest)
    | none =>
      refine .undefined stored fun method has => ?_
      have nearest := Class.findMethod?_iff.mpr (declared.has_iff.mp has)
      rw [found] at nearest
      contradiction

end Run

/-! ## Storing a field -/

namespace Heap

variable {heap : Heap} {ref other : Nat} {name key : String}

/-- Storing a field changes the instance only. -/
theorem object_setField (heap : Heap) (ref : Nat) (name : String) (value : Value) (other : Nat) :
    (heap.setField ref name value).instances.get? other =
      if ref = other then (heap.instances.get? other).map fun object =>
        { object with fields := object.fields.insert name value }
      else heap.instances.get? other :=
  Store.get?_modify ..

/-- Storing a field leaves the classes of all instances as they are. -/
theorem cls_setField (heap : Heap) (ref : Nat) (name : String) (value : Value) (other : Nat) :
    ((heap.setField ref name value).object other).cls = (heap.object other).cls := by
  unfold Heap.object
  rw [object_setField]
  split
  · cases heap.instances.get? other <;> rfl
  · rfl

/-- The field that was stored is there. -/
theorem find?_setField_self {object : Instance} (present : heap.instances.get? ref = some object)
    (name : String) (value : Value) :
    ((heap.setField ref name value).object ref).fields.find? name = some value := by
  unfold Heap.object
  rw [object_setField, if_pos rfl, present]
  exact (OrderedMap.find?_insert object.fields name name value).trans (if_pos rfl)

/-- All other fields are as they were. -/
theorem find?_setField (different : other ≠ ref ∨ key ≠ name) (value : Value) :
    ((heap.setField ref name value).object other).fields.find? key =
      (heap.object other).fields.find? key := by
  unfold Heap.object
  rw [object_setField]
  split
  · rename_i same
    have apart : name ≠ key := fun again => different.elim (· same.symm) (· again.symm)
    cases heap.instances.get? other with
    | none => rfl
    | some object =>
      exact (OrderedMap.find?_insert object.fields name key value).trans (if_neg apart)
  · rfl

end Heap

namespace Run

variable {machine : Machine} {ref : Nat} {name : String}

/-- An instance gives the field that was stored last. -/
theorem property_setField_self {object : Instance}
    (present : machine.heap.instances.get? ref = some object) (name : String) (value : Value) :
    property (.object ref) name { machine with heap := machine.heap.setField ref name value } =
      .done value { machine with heap := machine.heap.setField ref name value } := by
  rw [property_object, Heap.find?_setField_self present]

/-- Storing a field changes no other property, whether of this instance or of any other value. -/
theorem property_setField {owner : Value} {key : String}
    (different : owner ≠ .object ref ∨ key ≠ name)
    (value : Value) :
    (property owner key { machine with heap := machine.heap.setField ref name value }).answer =
      (property owner key machine).answer := by
  cases owner with
  | object other =>
    have apart : other ≠ ref ∨ key ≠ name := different.imp_left fun apart same => apart (same ▸ rfl)
    rw [property_object, property_object, Heap.find?_setField apart, Heap.cls_setField]
    cases (machine.heap.object other).fields.find? key with
    | some value => rfl
    | none =>
      cases (machine.heap.object other).cls.findMethod? key with
      | some method => rfl
      | none => rfl
  | string inner | list inner | map inner =>
    simp only [property]
    cases Value.builtinMethod? _ key with
    | some method => rfl
    | none => rfl
  | _ => rfl

end Run

end EventScript
