import EventScript.Proofs.Evaluation.Construction
import EventScript.Proofs.Evaluation.Declaring

/-!
# Assigning and reading

Scopes form trees, as each lies inside one that was there before it (`Heap.Nested`). Going outward
from a scope, the nearest one that binds a name (`Heap.Nearest`) is the one that assigning to the
name changes and that reading it reads, so the scopes that see the same variable read what is
assigned to it from any of them, and nothing else is read differently
(`Run.assignVariable_readVariable`).
-/

namespace EventScript

open Run

namespace Heap

variable {heap later : Heap} {name : String} {binder scope : Nat} {value : Value}

/-- Scopes lie inside scopes that were there before them, so they form trees. -/
def Nested (heap : Heap) : Prop :=
  ∀ ⦃scope parent⦄, heap.parent? scope = some parent → parent < scope

/-- What a name is bound to in the scope itself. -/
def bound? (heap : Heap) (scope : Nat) (name : String) : Option Value :=
  (heap.scopes.get? scope).bind fun content => content.bindings.find? name

/-- The nearest scope that binds the name, going outward from a scope. -/
inductive Nearest (heap : Heap) (name : String) (binder : Nat) : Nat → Prop where
  | here (binds : heap.binds binder name = true) : Nearest heap name binder binder
  | outer {scope parent : Nat} (free : heap.binds scope name = false)
      (around : heap.parent? scope = some parent) (nearest : Nearest heap name binder parent) :
      Nearest heap name binder scope

/-- Two scopes see the same variable of a name. -/
def Share (heap : Heap) (name : String) (first second : Nat) : Prop :=
  ∃ binder, heap.Nearest name binder first ∧ heap.Nearest name binder second

/-- A scope binds a name if a value is found under it there. -/
theorem binds_eq (heap : Heap) (scope : Nat) (name : String) :
    heap.binds scope name = (heap.bound? scope name).isSome := by
  unfold binds bound?
  cases heap.scopes.get? scope <;> rfl

/-- Only scopes on the heap bind names. -/
theorem lt_size_of_binds (binds : heap.binds scope name = true) : scope < heap.scopes.size := by
  rw [binds_eq] at binds
  obtain ⟨value, found⟩ := Option.isSome_iff_exists.mp binds
  obtain ⟨content, stored, -⟩ := Option.bind_eq_some_iff.mp found
  exact (Array.getElem?_eq_some_iff.mp stored).1

/-- Only scopes on the heap are inside others. -/
theorem lt_size_of_parent? {parent : Nat} (around : heap.parent? scope = some parent) :
    scope < heap.scopes.size := by
  obtain ⟨content, stored, -⟩ := Option.bind_eq_some_iff.mp around
  exact (Array.getElem?_eq_some_iff.mp stored).1

/-- One round of the search for a name. -/
theorem binderWithin?_succ (heap : Heap) (name : String) (bound scope : Nat) :
    heap.binderWithin? name (bound + 1) scope =
      if heap.binds scope name then some scope
      else (heap.parent? scope).bind (heap.binderWithin? name bound) := by
  rw [Heap.binderWithin?]
  unfold binds parent?
  cases heap.scopes.get? scope with
  | none => rfl
  | some content =>
    by_cases contains : content.bindings.contains name = true
    · simp only [contains, if_true]
    · cases around : content.parent <;> simp [contains, around]

/-- The search ends at the nearest scope that binds the name, if the bound suffices. -/
theorem Nearest.binderWithin? (nearest : heap.Nearest name binder scope) (nested : heap.Nested)
    {bound : Nat} (enough : scope < bound) : heap.binderWithin? name bound scope = some binder := by
  induction nearest generalizing bound with
  | here binds =>
    obtain ⟨rest, rfl⟩ := Nat.exists_eq_succ_of_ne_zero (Nat.ne_zero_of_lt enough)
    rw [binderWithin?_succ, if_pos binds]
  | outer free around _ ih =>
    obtain ⟨rest, rfl⟩ := Nat.exists_eq_succ_of_ne_zero (Nat.ne_zero_of_lt enough)
    have older := nested around
    rw [binderWithin?_succ, free, if_neg Bool.false_ne_true, around, Option.bind_some]
    exact ih (by omega)

/-- Where the search ends is the nearest scope that binds the name. -/
theorem nearest_of_binderWithin? {bound : Nat}
    (found : heap.binderWithin? name bound scope = some binder) :
    heap.Nearest name binder scope := by
  induction bound generalizing scope with
  | zero => contradiction
  | succ bound ih =>
    rw [binderWithin?_succ] at found
    cases binds : heap.binds scope name with
    | true =>
      rw [binds, if_pos rfl] at found
      obtain rfl := Option.some.inj found
      exact .here binds
    | false =>
      rw [binds, if_neg Bool.false_ne_true] at found
      obtain ⟨parent, around, further⟩ := Option.bind_eq_some_iff.mp found
      exact .outer binds around (ih further)

/-- The search for the scope that binds a name finds the nearest one. -/
theorem binder?_eq_some_iff (nested : heap.Nested) :
    heap.binder? scope name = some binder ↔ heap.Nearest name binder scope :=
  ⟨nearest_of_binderWithin?, fun nearest => nearest.binderWithin? nested (Nat.lt_succ_self scope)⟩

/-- The nearest scope that binds the name does bind it. -/
theorem Nearest.binds (nearest : heap.Nearest name binder scope) :
    heap.binds binder name = true := by
  induction nearest with
  | here binds => exact binds
  | outer _ _ _ ih => exact ih

/-- A scope from which a name is found is on the heap. -/
theorem Nearest.lt_size (nearest : heap.Nearest name binder scope) : scope < heap.scopes.size := by
  cases nearest with
  | here binds => exact lt_size_of_binds binds
  | outer _ around => exact lt_size_of_parent? around

/-- Only one scope is the nearest. -/
theorem Nearest.unique {other : Nat} (nearest : heap.Nearest name binder scope)
    (another : heap.Nearest name other scope) : binder = other := by
  induction nearest with
  | here binds =>
    cases another with
    | here => rfl
    | outer free => exact absurd (binds.symm.trans free) (by decide)
  | outer free around _ ih =>
    cases another with
    | here binds => exact absurd (binds.symm.trans free) (by decide)
    | outer _ around' nearest' =>
      obtain rfl := Option.some.inj (around.symm.trans around')
      exact ih nearest'

/-- A variable has the value that it is bound to in the nearest scope. -/
theorem lookup?_eq (heap : Heap) (scope : Nat) (name : String) :
    heap.lookup? scope name = (heap.binder? scope name).bind (heap.bound? · name) := by
  unfold lookup? bound?
  cases heap.binder? scope name <;> rfl

/-- The nearest scope stays the nearest while all scopes that are there stay inside the same ones
and go on binding the name or not. -/
theorem Nearest.stays (nearest : heap.Nearest name binder scope)
    (parents : ∀ other < heap.scopes.size, later.parent? other = heap.parent? other)
    (binds : ∀ other < heap.scopes.size, later.binds other name = heap.binds other name) :
    later.Nearest name binder scope := by
  induction nearest with
  | here bound =>
    have inside := lt_size_of_binds bound
    rw [← binds _ inside] at bound
    exact .here bound
  | outer free around _ ih =>
    have inside := lt_size_of_parent? around
    rw [← binds _ inside] at free
    rw [← parents _ inside] at around
    exact .outer free around ih

/-! ## Rebinding -/

/-- Binding a name leaves scopes where they are. -/
theorem parent?_define (heap : Heap) (scope : Nat) (name : String) (value : Value) (other : Nat) :
    (heap.define scope name value).parent? other = heap.parent? other := by
  unfold parent? define
  simp only [Store.get?_modify]
  by_cases here : scope = other
  · rw [if_pos here]
    cases heap.scopes.get? other <;> rfl
  · rw [if_neg here]

/-- Binding several names leaves scopes where they are. -/
theorem parent?_defineAll (heap : Heap) (scope : Nat) (bindings : List (String × Value))
    (other : Nat) :
    (heap.defineAll scope bindings).parent? other = heap.parent? other := by
  induction bindings generalizing heap with
  | nil => rfl
  | cons first rest ih => exact (ih _).trans (parent?_define ..)

/-- A new scope is inside the one it is made in, and the others are where they were. -/
theorem parent?_newScope (heap : Heap) (parent : Option Nat) (other : Nat) :
    (heap.newScope parent).2.parent? other =
      if other = heap.scopes.size then parent else heap.parent? other := by
  show ((heap.scopes.alloc { parent }).2.get? other).bind Scope.parent = _
  rw [Store.get?_alloc]
  split <;> rfl

/-- Whether scopes are nested depends on where they are only. -/
theorem Nested.of_parents (nested : heap.Nested)
    (same : ∀ scope, later.parent? scope = heap.parent? scope) : later.Nested :=
  fun _ _ around => nested (same _ ▸ around)

/-- A new scope lies inside one that is there, or inside none. -/
theorem Nested.newScope (nested : heap.Nested) {parent : Option Nat}
    (inside : ∀ scope ∈ parent, scope < heap.scopes.size) : (heap.newScope parent).2.Nested := by
  intro scope outer around
  rw [parent?_newScope] at around
  split at around
  · rename_i newest
    exact newest ▸ inside outer around
  · exact nested around

/-- Rebinding a name in a scope changes this binding and no other. -/
theorem bound?_define (there : heap.binds scope name = true) (value : Value) (other : Nat)
    (sought : String) :
    (heap.define scope name value).bound? other sought =
      if other = scope ∧ sought = name then some value else heap.bound? other sought := by
  unfold bound? define
  simp only [Store.get?_modify]
  by_cases here : scope = other
  · subst here
    rw [binds_eq] at there
    obtain ⟨old, found⟩ := Option.isSome_iff_exists.mp there
    obtain ⟨content, stored, -⟩ := Option.bind_eq_some_iff.mp found
    simp only [stored, if_true, Option.map_some, Option.bind_some, OrderedMap.find?_insert,
      true_and]
    simp only [eq_comm]
  · rw [if_neg here, if_neg fun same => here same.1.symm]

/-- Rebinding a name leaves it bound, and others too. -/
theorem binds_define (there : heap.binds scope name = true) (value : Value) (other : Nat)
    (sought : String) :
    (heap.define scope name value).binds other sought = heap.binds other sought := by
  rw [binds_eq, binds_eq, bound?_define there]
  split
  · rename_i same
    rw [same.1, same.2, ← binds_eq, there]
    rfl
  · rfl

/-- Binding a name leaves scopes nested. -/
theorem Nested.define (nested : heap.Nested) (scope : Nat) (name : String) (value : Value) :
    (heap.define scope name value).Nested := nested.of_parents fun _ => parent?_define ..

/-- Rebinding a name changes nothing about which scope is the nearest. -/
theorem nearest_define (there : heap.binds binder name = true) {value : Value} {sought : String}
    {found : Nat} :
    (heap.define binder name value).Nearest sought found scope ↔
      heap.Nearest sought found scope := by
  constructor
  · exact fun nearest => nearest.stays (fun _ _ => (parent?_define ..).symm) fun _ _ =>
      (binds_define there ..).symm
  · exact fun nearest => nearest.stays (fun _ _ => parent?_define ..) fun _ _ =>
      binds_define there ..

/-- Rebinding a name changes nothing about where names are found. -/
theorem binder?_define (nested : heap.Nested) (there : heap.binds binder name = true)
    (value : Value)
    (scope : Nat) (sought : String) :
    (heap.define binder name value).binder? scope sought = heap.binder? scope sought := by
  refine Option.ext fun found => ?_
  rw [binder?_eq_some_iff (nested.define binder name value), binder?_eq_some_iff nested,
    nearest_define there]

/-- Where a variable is rebound, it has the new value as seen from the scopes that share it, and all
other variables keep theirs. -/
theorem lookup?_define (nested : heap.Nested) (nearest : heap.Nearest name binder scope)
    (value : Value)
    (other : Nat) (sought : String) :
    (sought = name ∧ heap.Share name scope other →
      (heap.define binder name value).lookup? other sought = some value) ∧
    (¬ (sought = name ∧ heap.Share name scope other) →
      (heap.define binder name value).lookup? other sought = heap.lookup? other sought) := by
  rw [lookup?_eq, lookup?_eq, binder?_define nested nearest.binds]
  constructor
  · rintro ⟨rfl, shared, ofScope, ofOther⟩
    obtain rfl := ofScope.unique nearest
    rw [(binder?_eq_some_iff nested).mpr ofOther, Option.bind_some, bound?_define nearest.binds,
      if_pos ⟨rfl, rfl⟩]
  · intro apart
    cases found : heap.binder? other sought with
    | none => rfl
    | some place =>
      rw [Option.bind_some, Option.bind_some, bound?_define nearest.binds, if_neg]
      rintro ⟨rfl, rfl⟩
      exact apart ⟨rfl, place, nearest, (binder?_eq_some_iff nested).mp found⟩

end Heap

/-! ## The bodies of closures -/

namespace Activation

variable {heap : Heap} {name : String} {binder : Nat} {called : Activation}

/-- The scope of a body lies in the scope around the function, and the others stay where they
are. -/
theorem parent?_start (called : Activation) (arguments : List Value) (heap : Heap) (other : Nat) :
    (called.start arguments heap).2.parent? other =
      if other = heap.scopes.size then some called.scope else heap.parent? other :=
  (Heap.parent?_defineAll ..).trans (Heap.parent?_newScope ..)

/-- The scope of a function body is nested in the one that the function was made in. -/
theorem nested_start (nested : heap.Nested) (inside : called.scope < heap.scopes.size)
    (arguments : List Value) : (called.start arguments heap).2.Nested :=
  (nested.newScope fun _ member => Option.some.inj member ▸ inside).of_parents fun _ =>
    Heap.parent?_defineAll ..

/-- The scopes that are there bind what they bound before. -/
theorem bound?_start (called : Activation) (arguments : List Value) (name : String) {scope : Nat}
    (inside : scope < heap.scopes.size) :
    (called.start arguments heap).2.bound? scope name = heap.bound? scope name := by
  have new : heap.scopes.get? (heap.newScope (some called.scope)).1 = none := Array.getElem?_size
  have retains := (Heap.retains_newScope name heap (some called.scope)).defineAll new
    (called.bindings arguments)
  obtain ⟨content, stored⟩ : ∃ content, heap.scopes.get? scope = some content :=
    ⟨_, Array.getElem?_eq_getElem inside⟩
  obtain ⟨after, storedLater, -, same⟩ := retains scope content stored
  have there : (called.start arguments heap).2.scopes.get? scope = some after := storedLater
  unfold Heap.bound?
  rw [stored, there]
  exact same

/-- What a scope sees it goes on seeing when a body starts. -/
theorem stays_start {scope : Nat} (nearest : heap.Nearest name binder scope) (called : Activation)
    (arguments : List Value) : (called.start arguments heap).2.Nearest name binder scope := by
  refine nearest.stays (fun other inside => ?_) fun other inside => ?_
  · rw [parent?_start, if_neg (Nat.ne_of_lt inside)]
  · rw [Heap.binds_eq, Heap.binds_eq, bound?_start called arguments name inside]

/-- The body of a function sees the variables of the scope around the function, but those whose
names it binds at its start. -/
theorem nearest_start (nearest : heap.Nearest name binder called.scope) {arguments : List Value}
    (free : ∀ binding ∈ called.bindings arguments, binding.1 ≠ name) :
    (called.start arguments heap).2.Nearest name binder (called.start arguments heap).1 := by
  have around : (called.start arguments heap).2.parent? (called.start arguments heap).1 =
      some called.scope := by
    rw [parent?_start]
    exact if_pos rfl
  refine .outer (Bool.eq_false_iff.mpr fun has => ?_) around (stays_start nearest called arguments)
  rcases Heap.binds_of_defineAll has with early | ⟨-, binding, member, same⟩
  · exact (Heap.binds_of_newScope early).2 rfl
  · exact free binding member same

/-- A closure binds nothing but its parameters when its body starts. -/
theorem free_ofClosure {closure : Closure} (parameters : ∀ parameter ∈ closure.decl.parameters,
    parameter.name ≠ name) (arguments : List Value) :
    ∀ binding ∈ (ofClosure closure).bindings arguments, binding.1 ≠ name := by
  intro binding member
  obtain ⟨parameter, declared, same⟩ := List.mem_map.mp (List.of_mem_zip member).1
  exact same ▸ parameters parameter declared

end Activation

/-! ## The main statement -/

/-- What is answered, without the machine that is left. -/
def Outcome.answer {α : Type} : Outcome α → Option (Except Diagnostic α)
  | .done value _ => some (.ok value)
  | .failed diagnostic _ => some (.error diagnostic)
  | .exhausted => none

/-- How a machine is left behind where a variable has been rebound. Only its binding in the nearest
scope has changed, so the scopes that share the variable read the new value, and all else is read as
before. -/
structure Machine.Rebinds (before : Machine) (name : String) (value : Value) (after : Machine) :
    Prop where
  only : after = { before with heap := { before.heap with scopes := after.heap.scopes } }
  bindings : ∃ binder, before.heap.Nearest name binder before.scope ∧ ∀ scope,
    after.heap.parent? scope = before.heap.parent? scope ∧ ∀ other, after.heap.bound? scope other =
      if scope = binder ∧ other = name then some value else before.heap.bound? scope other
  shared : ∀ scope, before.heap.Share name before.scope scope → ∀ span,
    readVariable span name { after with scope } = .done value { after with scope }
  apart : ∀ scope other, ¬ (other = name ∧ before.heap.Share name before.scope scope) → ∀ span,
    (readVariable span other { after with scope }).answer =
      (readVariable span other { before with scope }).answer

namespace Run

variable {machine later : Machine} {name : String} {value : Value} {binder : Nat}

/-- Assigning succeeds just if there is a nearest scope that binds the name. -/
theorem assignVariable_done_iff (nested : machine.heap.Nested) (span : Span) :
    assignVariable span name value machine = .done () later ↔
      ∃ binder, machine.heap.Nearest name binder machine.scope ∧
        later = { machine with heap := machine.heap.define binder name value } := by
  unfold assignVariable
  constructor
  · intro done
    split at done
    · rename_i binder found
      obtain ⟨-, rfl⟩ := Outcome.done.inj done
      exact ⟨binder, (Heap.binder?_eq_some_iff nested).mp found, rfl⟩
    · contradiction
  · rintro ⟨binder, nearest, rfl⟩
    rw [(Heap.binder?_eq_some_iff nested).mpr nearest]

/-- What reading a variable answers. -/
theorem readVariable_eq (span : Span) (name : String) (machine : Machine) :
    readVariable span name machine =
      match machine.heap.lookup? machine.scope name with
      | some value => .done value machine
      | none => .failed ((Fault.undefinedVariable name).diagnosticAt span) machine := rfl

/-- A name that is bound is read, with no other effect. -/
theorem readVariable_done (found : machine.heap.lookup? machine.scope name = some value)
    (span : Span) :
    readVariable span name machine = .done value machine := by
  rw [readVariable_eq, found]

/-- A variable that is bound somewhere outward has a value. -/
theorem readVariable_nearest (nested : machine.heap.Nested)
    (nearest : machine.heap.Nearest name binder machine.scope) (span : Span) :
    ∃ old, readVariable span name machine = .done old machine := by
  have bound := nearest.binds
  rw [Heap.binds_eq] at bound
  obtain ⟨old, bound⟩ := Option.isSome_iff_exists.mp bound
  refine ⟨old, readVariable_done ?_ span⟩
  rw [Heap.lookup?_eq, (Heap.binder?_eq_some_iff nested).mpr nearest, Option.bind_some, bound]

/-- Binding a name where it is bound already rebinds it for all who see it there. -/
theorem rebinds_define (nested : machine.heap.Nested)
    (nearest : machine.heap.Nearest name binder machine.scope) (value : Value) :
    machine.Rebinds name value { machine with heap := machine.heap.define binder name value } where
  only := rfl
  bindings := ⟨binder, nearest, fun scope =>
    ⟨Heap.parent?_define .., fun other => Heap.bound?_define nearest.binds value scope other⟩⟩
  shared scope shared span :=
    readVariable_done ((Heap.lookup?_define nested nearest value scope name).1 ⟨rfl, shared⟩) span
  apart scope other apart span := by
    rw [readVariable_eq, readVariable_eq,
      (Heap.lookup?_define nested nearest value scope other).2 apart]
    cases machine.heap.lookup? scope other <;> rfl

/-- The bodies of closures that see the same variable share it. -/
theorem assignVariable_entry (nested : machine.heap.Nested) (span : Span) {first second : Closure}
    (shared : machine.heap.Share name first.scope second.scope)
    (own : ∀ parameter ∈ first.decl.parameters ++ second.decl.parameters, parameter.name ≠ name)
    (value : Value) (given taken : List Value) :
    ∃ later, assignVariable span name value ((Activation.ofClosure first).entry given machine) =
        .done () later ∧
      ∀ span, readVariable span name ((Activation.ofClosure second).entry taken later) =
        .done value ((Activation.ofClosure second).entry taken later) := by
  obtain ⟨binder, ofFirst, ofSecond⟩ := shared
  obtain ⟨ownFirst, ownSecond⟩ := List.forall_mem_append.mp own
  -- In the body of the first closure the variable is found in the same scope as around the closure.
  have nestedFirst : ((Activation.ofClosure first).entry given machine).heap.Nested :=
    Activation.nested_start nested ofFirst.lt_size given
  have inFirst : ((Activation.ofClosure first).entry given machine).heap.Nearest name binder
      ((Activation.ofClosure first).entry given machine).scope :=
    Activation.nearest_start ofFirst (Activation.free_ofClosure ownFirst given)
  refine ⟨_, (assignVariable_done_iff nestedFirst span).mpr ⟨binder, inFirst, rfl⟩, fun span => ?_⟩
  generalize same :
    (((Activation.ofClosure first).entry given machine).heap.define binder name value) =
    rebound
  have ofSecondThen : rebound.Nearest name binder second.scope := by
    rw [← same, Heap.nearest_define inFirst.binds]
    exact Activation.stays_start ofSecond (Activation.ofClosure first) given
  have nestedThen : rebound.Nested := same ▸ nestedFirst.define binder name value
  have inSecond : ((Activation.ofClosure second).start taken rebound).2.Nearest name binder
      ((Activation.ofClosure second).start taken rebound).1 :=
    Activation.nearest_start ofSecondThen (Activation.free_ofClosure ownSecond taken)
  have found : ((Activation.ofClosure second).start taken rebound).2.lookup?
      ((Activation.ofClosure second).start taken rebound).1 name = some value := by
    rw [Heap.lookup?_eq, (Heap.binder?_eq_some_iff (Activation.nested_start nestedThen
      ofSecondThen.lt_size taken)).mpr inSecond, Option.bind_some,
      Activation.bound?_start _ _ _ (Heap.lt_size_of_binds ofSecondThen.binds), ← same,
      Heap.bound?_define inFirst.binds, if_pos ⟨rfl, rfl⟩]
  exact readVariable_done found span

/-- Assigning to a variable goes by the same scope as reading it. It succeeds just if reading does,
and then rebinds the variable for the scopes that share it. Otherwise it leaves the machine as it is
and reports the variable where it stands. Closures that see the same variable read what either
assigns to it. -/
theorem assignVariable_readVariable (machine : Machine) (nested : machine.heap.Nested) (span : Span)
    (name : String) (value : Value) :
    ((∃ later, assignVariable span name value machine = .done () later) ↔
      ∃ old later, readVariable span name machine = .done old later) ∧
    (∀ later, assignVariable span name value machine = .done () later →
      machine.Rebinds name value later) ∧
    ((∀ later, assignVariable span name value machine ≠ .done () later) →
      assignVariable span name value machine =
        .failed ((Fault.undefinedVariable name).diagnosticAt span) machine) ∧
    ∀ first second : Closure, machine.heap.Share name first.scope second.scope →
      (∀ parameter ∈ first.decl.parameters ++ second.decl.parameters, parameter.name ≠ name) →
      ∀ given taken, ∃ later,
        assignVariable span name value ((Activation.ofClosure first).entry given machine) =
          .done () later ∧
        ∀ span, readVariable span name ((Activation.ofClosure second).entry taken later) =
          .done value ((Activation.ofClosure second).entry taken later) := by
  refine ⟨⟨?_, ?_⟩, ?_, ?_, ?_⟩
  · rintro ⟨later, assigned⟩
    obtain ⟨binder, nearest, -⟩ := (assignVariable_done_iff nested span).mp assigned
    obtain ⟨old, read⟩ := readVariable_nearest nested nearest span
    exact ⟨old, machine, read⟩
  · rintro ⟨old, later, read⟩
    rw [readVariable_eq, Heap.lookup?_eq] at read
    cases found : machine.heap.binder? machine.scope name with
    | none =>
      rw [found] at read
      contradiction
    | some binder =>
      have nearest := (Heap.binder?_eq_some_iff nested).mp found
      exact ⟨_, (assignVariable_done_iff nested span).mpr ⟨binder, nearest, rfl⟩⟩
  · intro later assigned
    obtain ⟨binder, nearest, rfl⟩ := (assignVariable_done_iff nested span).mp assigned
    exact rebinds_define nested nearest value
  · intro never
    cases found : machine.heap.binder? machine.scope name with
    | none =>
      unfold assignVariable
      rw [found]
      rfl
    | some binder =>
      have nearest := (Heap.binder?_eq_some_iff nested).mp found
      exact absurd ((assignVariable_done_iff nested span).mpr ⟨binder, nearest, rfl⟩) (never _)
  · exact fun first second shared own given taken =>
      assignVariable_entry nested span shared own value given taken

/-- A variable of scope 0, which scope 1 inside it shares and scope 2 inside it shadows. -/
def shadowing : Heap where
  scopes := ⟨#[{ bindings := ⟨[("x", .nil)]⟩ }, { parent := some 0 },
    { parent := some 0, bindings := ⟨[("x", .bool false)]⟩ }]⟩

/-- Assigned to from scope 1, the variable is rebound for scope 0 and not for scope 2, and closures
in both the scopes that share it read what is assigned. -/
theorem assignVariable_shadowing :
    let machine := { Machine.new {} (.captured "") {} {} with heap := shadowing, scope := 1 }
    let closure (scope : Nat) : Closure := ⟨⟨"f", [], [], default⟩, scope, none⟩
    machine.heap.Nested ∧ machine.heap.Share "x" 1 0 ∧ ¬ machine.heap.Share "x" 1 2 ∧
      (∃ later, assignVariable default "x" (.bool true) machine = .done () later ∧
        readVariable default "x" { later with scope := 0 } =
          .done (.bool true) { later with scope := 0 } ∧
        (readVariable default "x" { later with scope := 2 }).answer = some (.ok (.bool false))) ∧
      assignVariable default "y" .nil machine =
        .failed ((Fault.undefinedVariable "y").diagnosticAt default) machine ∧
      ∃ later, assignVariable default "x" (.bool true)
          ((Activation.ofClosure (closure 1)).entry [] machine) = .done () later ∧
        readVariable default "x" ((Activation.ofClosure (closure 0)).entry [] later) =
          .done (.bool true) ((Activation.ofClosure (closure 0)).entry [] later) := by
  intro machine closure
  have nested : machine.heap.Nested := by
    intro scope parent around
    match scope with
    | 0 => contradiction
    | 1 | 2 =>
      obtain rfl := Option.some.inj around
      decide
    | _ + 3 => contradiction
  have outermost : machine.heap.Nearest "x" 0 0 := .here rfl
  have inside : machine.heap.Nearest "x" 0 1 := .outer rfl rfl outermost
  have shares : machine.heap.Share "x" 1 0 := ⟨0, inside, outermost⟩
  have apart : ¬ machine.heap.Share "x" 1 2 := by
    rintro ⟨binder, ofFirst, ofSecond⟩
    obtain rfl := ofFirst.unique inside
    exact absurd (ofSecond.unique (.here rfl)) (by decide)
  obtain ⟨succeeds, rebinds, -, shared⟩ :=
    assignVariable_readVariable machine nested default "x" (.bool true)
  obtain ⟨later, assigned⟩ := succeeds.mpr ⟨.nil, machine, rfl⟩
  obtain ⟨after, updated, read⟩ := shared (closure 1) (closure 0) shares nofun [] []
  have rebound := rebinds later assigned
  have there := rebound.shared 0 shares default
  have elsewhere := rebound.apart 2 "x" (fun same => apart same.2) default
  obtain ⟨-, -, fails, -⟩ := assignVariable_readVariable machine nested default "y" .nil
  exact ⟨nested, shares, apart, ⟨later, assigned, there, elsewhere.trans rfl⟩, fails nofun,
    after, updated, read default⟩

end Run

end EventScript
