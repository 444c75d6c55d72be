import EventScript.Evaluation
import EventScript.Proofs.Evaluation.Contents

/-!
# Inheritance

`Class.Inherits` goes from a class up along its superclasses, and `Class.Nearest` says which method
a class has under a name: the one it declares, and if it declares none, the one its superclass has.
Searching the list of ancestors finds just that method (`Class.findMethod?_iff`). What all methods
of a class have (`Class.AllMethods`) the methods have that are found in it, and a class that is made
has methods of its declaration and of its superclass only.
-/

namespace EventScript.Class

/-- The class is the other one or inherits from it. -/
inductive Inherits : Class → Class → Prop where
  | same (cls : Class) : Inherits cls cls
  | onward {cls parent ancestor : Class} (superclass : cls.superclass? = some parent)
      (inherits : Inherits parent ancestor) : Inherits cls ancestor

/-- The method that a class has under a name. -/
inductive Nearest (name : String) : Class → Method → Prop where
  | own {cls : Class} {decl : FunctionDecl} (declared : cls.methods.find? name = some decl) :
      Nearest name cls ⟨cls, decl⟩
  | inherited {cls parent : Class} {method : Method} (undeclared : cls.methods.find? name = none)
      (superclass : cls.superclass? = some parent) (nearest : Nearest name parent method) :
      Nearest name cls method

variable {cls parent ancestor : Class} {name : String} {method : Method}

/-- What is inherited from an ancestor of an ancestor is inherited. -/
theorem Inherits.trans (first : cls.Inherits parent) (second : parent.Inherits ancestor) :
    cls.Inherits ancestor := by
  induction first with
  | same => exact second
  | onward superclass _ ih => exact .onward superclass (ih second)

/-- The class of the method is the class itself or an ancestor. -/
theorem Nearest.inherits (nearest : cls.Nearest name method) : cls.Inherits method.owner := by
  induction nearest with
  | own => exact .same _
  | inherited _ superclass _ ih => exact .onward superclass ih

/-- The class of the method declares it. -/
theorem Nearest.declared (nearest : cls.Nearest name method) :
    method.owner.methods.find? name = some method.decl := by
  induction nearest with
  | own declared => exact declared
  | inherited _ _ _ ih => exact ih

/-- The superclass has one ancestor less. -/
theorem ancestors_of_superclass? (superclass : cls.superclass? = some parent) :
    cls.ancestors = parent.lineage := by
  unfold superclass? at superclass
  split at superclass
  · contradiction
  · rename_i body rest ancestors
    obtain rfl := Option.some.inj superclass
    exact ancestors

/-- A method that is found is the nearest one. -/
theorem nearest_of_findMethod? {cls : Class} (found : cls.findMethod? name = some method) :
    cls.Nearest name method := by
  rw [findMethod?_eq] at found
  cases declared : cls.methods.find? name with
  | some decl =>
    rw [declared] at found
    obtain rfl := Option.some.inj found
    exact .own declared
  | none =>
    rw [declared] at found
    obtain ⟨parent, superclass, inherited⟩ := Option.bind_eq_some_iff.mp found
    have shorter : parent.ancestors.length < cls.ancestors.length := by
      rw [ancestors_of_superclass? superclass, lineage, List.length_cons]
      exact Nat.lt_succ_self _
    exact .inherited declared superclass (nearest_of_findMethod? inherited)
termination_by cls.ancestors.length

/-- Searching the class and its ancestors finds the nearest method. -/
theorem findMethod?_iff : cls.findMethod? name = some method ↔ cls.Nearest name method := by
  constructor
  · exact nearest_of_findMethod?
  · intro nearest
    induction nearest with
    | own declared => rw [findMethod?_eq, declared]
    | inherited undeclared superclass _ ih =>
      rw [findMethod?_eq, undeclared, superclass]
      exact ih

/-- All methods of the class, its own and those of its ancestors, have a property. -/
def AllMethods (property : FunctionDecl → Prop) (cls : Class) : Prop :=
  ∀ body ∈ cls.lineage, body.methods.All property

section AllMethods

variable {property : FunctionDecl → Prop}

/-- A method that is found has the property, and so have all methods of its class. -/
theorem AllMethods.findMethod? (all : cls.AllMethods property)
    (found : cls.findMethod? name = some method) :
    method.owner.AllMethods property ∧ property method.decl := by
  have search : ∀ lineage : List ClassBody, (∀ body ∈ lineage, body.methods.All property) →
      findIn name lineage = some method →
      method.owner.AllMethods property ∧ property method.decl := by
    intro lineage
    induction lineage with
    | nil => exact fun _ none => nomatch none
    | cons body ancestors ih =>
      intro all found
      unfold findIn at found
      split at found
      · rename_i decl declared
        obtain rfl := Option.some.inj found
        exact ⟨all, (all body List.mem_cons_self).find? declared⟩
      · exact ih (fun other member => all other (List.mem_cons_of_mem _ member)) found
  exact search cls.lineage all found

/-- The superclass has the methods that are inherited. -/
theorem AllMethods.superclass (all : cls.AllMethods property)
    (superclass : cls.superclass? = some parent) :
    parent.AllMethods property := by
  intro body member
  rw [← ancestors_of_superclass? superclass] at member
  exact all body (List.mem_cons_of_mem _ member)

/-- A class that is made has the methods of its declaration and those of its superclass. -/
theorem allMethods_of_makes {machine later : Machine} {methods : List FunctionDecl}
    {superclass : Option Class} {made : Value} (declared : ∀ decl ∈ methods, property decl)
    (inherited : ∀ ancestor ∈ superclass, ancestor.AllMethods property)
    (makes : Run.makeClass name superclass methods machine = .done made later) :
    ∃ cls : Class, made = .classObject cls ∧ cls.AllMethods property := by
  obtain ⟨rfl, -⟩ := Outcome.done.inj makes
  refine ⟨_, rfl, List.forall_mem_cons.mpr ⟨OrderedMap.all_ofList ?_, ?_⟩⟩
  · intro entry member
    obtain ⟨decl, inMethods, rfl⟩ := List.mem_map.mp member
    exact declared decl inMethods
  · cases superclass with
    | none => exact List.forall_mem_nil _
    | some ancestor => exact inherited ancestor rfl

end AllMethods

end EventScript.Class
