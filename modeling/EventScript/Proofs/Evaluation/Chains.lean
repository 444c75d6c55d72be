import EventScript.Proofs.Evaluation.ScopeTree
import EventScript.Proofs.Resolution.Inheritance

/-!
# Chains

A scope is linked to the scope around it and a class to its superclass. Following such links from
the first on, as far as they go, gives a `Chain`. If scopes are inside older ones and only one scope
is inside none, the way outward from any scope ends in this one (`Machine.outward`), and looking for
a variable goes through the scopes on the way, however far the search is allowed to go beyond them.
Looking for a method goes likewise through the class and those above it (`Class.Descends.ends`).
-/

namespace EventScript

open Run

/-- What one comes to on following links from the first on, as far as they go. -/
inductive Chain {α : Type} (link : α → Option α) : α → List α → Prop where
  | last {only : α} (ends : link only = none) : Chain link only [only]
  | onward {first next : α} {rest : List α} (links : link first = some next)
      (chain : Chain link next rest) : Chain link first (first :: rest)

namespace Chain

variable {α : Type} {link : α → Option α} {rank : α → Nat} {first : α} {members : List α}

/-- Links that lead downward come to an end. -/
theorem exists_of_rank (falls : ∀ {one next}, link one = some next → rank next < rank one)
    (first : α) :
    ∃ members, Chain link first members := by
  cases links : link first with
  | none => exact ⟨[first], .last links⟩
  | some next =>
    obtain ⟨rest, chain⟩ := exists_of_rank falls next
    exact ⟨first :: rest, .onward links chain⟩
termination_by rank first
decreasing_by exact falls links

/-- Links that lead downward never lead up again. -/
theorem rank_le (chain : Chain link first members)
    (falls : ∀ {one next}, link one = some next → rank next < rank one) :
    ∀ member ∈ members, rank member ≤ rank first := by
  induction chain with
  | last => exact List.forall_mem_singleton.mpr (Nat.le_refl _)
  | onward links _ ih =>
    refine List.forall_mem_cons.mpr ⟨Nat.le_refl _, fun member later => ?_⟩
    exact Nat.le_trans (ih member later) (Nat.le_of_lt (falls links))

/-- Links that lead downward lead to nothing twice. -/
theorem nodup (chain : Chain link first members)
    (falls : ∀ {one next}, link one = some next → rank next < rank one) : members.Nodup := by
  induction chain with
  | last => exact List.pairwise_singleton _ _
  | @onward first next rest links chain ih =>
    refine List.nodup_cons.mpr ⟨fun again => ?_, ih⟩
    exact Nat.not_le.mpr (falls links) (chain.rank_le falls first again)

/-- At the end of a chain is what has no link. -/
theorem exists_last (chain : Chain link first members) :
    ∃ last ∈ members, members.getLast? = some last ∧ link last = none := by
  induction chain with
  | @last only ends => exact ⟨only, List.mem_cons_self, rfl, ends⟩
  | @onward first next rest links chain ih =>
    obtain ⟨last, member, same, ends⟩ := ih
    refine ⟨last, List.mem_cons_of_mem _ member, ?_, ends⟩
    rw [List.getLast?_cons, same]
    rfl

end Chain

/-! ## Scopes -/

section Scopes

variable {heap : Heap} {scope : Nat} {scopes : List Nat}

/-- The search for a name goes through the chain, within every bound that suffices. -/
theorem Chain.binderWithin? (chain : Chain heap.parent? scope scopes) (nested : heap.Nested)
    (name : String) {bound : Nat} (enough : scope < bound) :
    heap.binderWithin? name bound scope = scopes.find? (heap.binds · name) := by
  induction chain generalizing bound with
  | @last only ends =>
    obtain ⟨rest, rfl⟩ := Nat.exists_eq_succ_of_ne_zero (Nat.ne_zero_of_lt enough)
    rw [Heap.binderWithin?_succ, ends, List.find?_cons]
    cases heap.binds only name <;> rfl
  | @onward first next _ links chain ih =>
    obtain ⟨rest, rfl⟩ := Nat.exists_eq_succ_of_ne_zero (Nat.ne_zero_of_lt enough)
    have further := ih (Nat.lt_of_lt_of_le (nested links) (Nat.le_of_lt_succ enough))
    rw [Heap.binderWithin?_succ, links, List.find?_cons, Option.bind_some, further]
    cases heap.binds first name <;> rfl

/-- The way from a scope outward. It comes to no scope twice and ends in the global one. A variable
is looked for in one scope on the way after the other, and read or assigned to in the first that
binds it. If none does, the variable is undefined. -/
structure Machine.Outward (machine : Machine) (scope : Nat) (scopes : List Nat) : Prop where
  chain : Chain machine.heap.parent? scope scopes
  once : scopes.Nodup
  ends : scopes.getLast? = some machine.globals
  searched : ∀ name bound, scope < bound →
    machine.heap.binderWithin? name bound scope = scopes.find? (machine.heap.binds · name)
  found : ∀ span name binder, scopes.find? (machine.heap.binds · name) = some binder →
    (∃ value, machine.heap.bound? binder name = some value ∧
      readVariable span name { machine with scope } = .done value { machine with scope }) ∧
    ∀ value, assignVariable span name value { machine with scope } =
      .done () { machine with scope, heap := machine.heap.define binder name value }
  missing : ∀ span name, scopes.find? (machine.heap.binds · name) = none →
    readVariable span name { machine with scope } =
      .failed ((Fault.undefinedVariable name).diagnosticAt span) { machine with scope } ∧
    ∀ value, assignVariable span name value { machine with scope } =
      .failed ((Fault.undefinedVariable name).diagnosticAt span) { machine with scope }

/-- In a tree of scopes with the global scope at its root, the way from every scope outward is such
a way. -/
theorem Machine.outward {machine : Machine} (nested : machine.heap.Nested)
    (roots : machine.heap.Roots machine.globals) (there : scope < machine.heap.scopes.size) :
    ∃ scopes, machine.Outward scope scopes := by
  have older : ∀ {one next}, machine.heap.parent? one = some next → id next < id one :=
    fun around => nested around
  obtain ⟨scopes, chain⟩ := Chain.exists_of_rank older scope
  have binder :
    ∀ name, machine.heap.binder? scope name = scopes.find? (machine.heap.binds · name) :=
    fun name => chain.binderWithin? nested name (Nat.lt_succ_self scope)
  refine ⟨scopes, chain, chain.nodup older, ?ends,
    fun name _ => chain.binderWithin? nested name, ?found,
    ?missing⟩
  case ends =>
    obtain ⟨last, member, same, outermost⟩ := chain.exists_last
    have inside := Nat.lt_of_le_of_lt (chain.rank_le older last member) there
    rw [same, roots last inside outermost]
  case found =>
    intro span name place found
    have binds := List.find?_some found
    obtain ⟨value, bound⟩ := Option.isSome_iff_exists.mp (machine.heap.binds_eq place name ▸ binds)
    rw [← binder] at found
    refine ⟨⟨value, bound, readVariable_done ?_ span⟩, fun value => ?_⟩
    · rw [Heap.lookup?_eq, found, Option.bind_some, bound]
    · simp only [assignVariable, found]
  case missing =>
    intro span name missing
    rw [← binder] at missing
    refine ⟨?_, fun value => ?_⟩
    · rw [readVariable_eq, Heap.lookup?_eq, missing]
      rfl
    · simp only [assignVariable, missing]
      rfl

end Scopes

/-! ## Classes -/

/-- The class, if the value is one. -/
def Value.class? : Value → Option Class
  | .classObject cls => some cls
  | _ => none

/-- Only a class is found as a class. -/
theorem Value.eq_of_class? {value : Value} {cls : Class} (found : value.class? = some cls) :
    value = .classObject cls := by
  cases value with
  | classObject other => exact congrArg Value.classObject (Option.some.inj found)
  | _ => contradiction

namespace Class

variable {cls parent ancestor : Class} {classes : List Class}

/-- The method of a name that the class itself declares. -/
def own? (name : String) (cls : Class) : Option Method :=
  (cls.methods.find? name).map (Method.mk cls)

/-- Each class of the lineage is younger than those above it. -/
def Descends (cls : Class) : Prop :=
  cls.lineage.Pairwise fun younger older => older.identity < younger.identity

/-- The class and those above it, which are all different. A method is looked for in one after the
other. -/
structure Upward (cls : Class) (classes : List Class) : Prop where
  chain : Chain superclass? cls classes
  once : (classes.map fun cls => cls.identity).Nodup
  finds : ∀ name, cls.findMethod? name = classes.findSome? (own? name)

/-- Going up from the class comes to an end. -/
def Ends (cls : Class) : Prop := ∃ classes, cls.Upward classes

/-- A class that inherits from none has no ancestors. -/
theorem ancestors_of_superclass?_eq_none (none : cls.superclass? = none) : cls.ancestors = [] := by
  unfold superclass? at none
  split at none
  · assumption
  · contradiction

end Class

/-- The chain of a class goes through its lineage. -/
theorem Chain.lineage {cls : Class} {classes : List Class}
    (chain : Chain Class.superclass? cls classes) :
    classes.map Class.toClassBody = cls.lineage := by
  induction chain with
  | last ends => rw [Class.lineage, Class.ancestors_of_superclass?_eq_none ends, List.map_singleton]
  | onward superclass _ ih =>
    rw [Class.lineage, Class.ancestors_of_superclass? superclass, List.map_cons, ih]

/-- The search for a method goes through the chain. -/
theorem Chain.findMethod? {cls : Class} {classes : List Class}
    (chain : Chain Class.superclass? cls classes) (name : String) :
    cls.findMethod? name = classes.findSome? (Class.own? name) := by
  induction chain with
  | @last only ends =>
    rw [Class.findMethod?_eq, ends, List.findSome?_cons, Class.own?]
    cases only.methods.find? name <;> rfl
  | @onward first next _ superclass _ ih =>
    rw [Class.findMethod?_eq, superclass, List.findSome?_cons, Class.own?, Option.bind_some, ih]
    cases first.methods.find? name <;> rfl

namespace Class

variable {cls parent ancestor : Class}

/-- Where classes are younger than those above them, going up comes to no class twice. -/
theorem Descends.ends (descends : cls.Descends) : cls.Ends := by
  have shorter : ∀ {one next : Class}, one.superclass? = some next →
      next.ancestors.length < one.ancestors.length := by
    intro one next superclass
    rw [ancestors_of_superclass? superclass]
    exact Nat.lt_succ_self _
  obtain ⟨classes, chain⟩ := Chain.exists_of_rank shorter cls
  refine ⟨classes, chain, ?_, chain.findMethod?⟩
  have identities : (classes.map fun cls => cls.identity) = cls.lineage.map ClassBody.identity := by
    rw [← chain.lineage, List.map_map]
    rfl
  rw [identities]
  exact List.pairwise_map.mpr (descends.imp fun older => (Nat.ne_of_lt older).symm)

/-- The ancestors of a class that descends to an end do so too. -/
theorem Descends.inherits (descends : cls.Descends) (inherits : cls.Inherits ancestor) :
    ancestor.Descends := by
  induction inherits with
  | same => exact descends
  | onward superclass _ ih =>
    refine ih ?_
    unfold Descends lineage at descends
    rw [ancestors_of_superclass? superclass] at descends
    exact descends.of_cons

/-- A class is younger than all above it if it is younger than its superclass. -/
theorem descends_of_superclass (superclass : cls.superclass? = some parent)
    (younger : parent.identity < cls.identity) (descends : parent.Descends) : cls.Descends := by
  unfold Descends lineage
  rw [ancestors_of_superclass? superclass]
  refine List.pairwise_cons.mpr ⟨?_, descends⟩
  refine List.forall_mem_cons.mpr ⟨younger, fun older above => ?_⟩
  exact Nat.lt_trans (List.rel_of_pairwise_cons descends above) younger

/-- A class that inherits from none has come to the end. -/
theorem descends_of_alone (alone : cls.superclass? = none) : cls.Descends := by
  unfold Descends lineage
  rw [ancestors_of_superclass?_eq_none alone]
  exact List.pairwise_singleton _ _

end Class

end EventScript
