import EventScript.Proofs.Evaluation.Discipline
import EventScript.Proofs.Evaluation.Nesting

/-!
# The names that code declares

Running code binds names in scopes. `Machine.AddsOnly` says which new names the scopes get that were
there before: only names added in the scope where the code runs, and none in other scopes.
Expressions and calls add no names at all, as a body binds its names in a scope of its own and
assigning rebinds what is bound. No step of expressions and calls adds names, whether it gives a
value or fails (`Code.plan_neverAdds`).
-/

namespace EventScript

open Run Plan

namespace Heap

variable {heap : Heap} {scope other : Nat} {name : String}

/-- A binding made is in its scope, under its name. -/
theorem binds_of_define {bound : String} {value : Value}
    (has : (heap.define scope bound value).binds other name = true) :
    heap.binds other name = true ∨ other = scope ∧ name = bound := by
  unfold binds define at has
  simp only [Store.get?_modify] at has
  unfold binds
  by_cases here : scope = other
  · rw [if_pos here] at has
    cases present : heap.scopes.get? other with
    | none =>
      rw [present] at has
      contradiction
    | some content =>
      rw [present] at has
      simp only [Option.map_some, OrderedMap.contains, OrderedMap.find?_insert] at has
      by_cases same : bound = name
      · exact .inr ⟨here.symm, same.symm⟩
      · rw [if_neg same] at has
        exact .inl has
  · rw [if_neg here] at has
    exact .inl has

/-- The names bound one after the other are in their scope. -/
theorem binds_of_defineAll {bindings : List (String × Value)}
    (has : (heap.defineAll scope bindings).binds other name = true) :
    heap.binds other name = true ∨ other = scope ∧ ∃ binding ∈ bindings, binding.1 = name := by
  induction bindings generalizing heap with
  | nil => exact .inl has
  | cons first rest ih =>
    rcases ih has with early | ⟨here, binding, member, same⟩
    · rcases binds_of_define early with before | ⟨here, same⟩
      · exact .inl before
      · exact .inr ⟨here, first, List.mem_cons_self, same.symm⟩
    · exact .inr ⟨here, binding, List.mem_cons_of_mem _ member, same⟩

/-- A new scope binds nothing. -/
theorem binds_of_newScope {parent : Option Nat}
    (has : (heap.newScope parent).2.binds scope name = true) :
    heap.binds scope name = true ∧ scope ≠ heap.scopes.size := by
  unfold binds newScope at has
  simp only [Store.get?_alloc] at has
  by_cases newest : scope = heap.scopes.size
  · rw [if_pos newest] at has
    contradiction
  · rw [if_neg newest] at has
    exact ⟨has, newest⟩

/-- Bindings make no scopes. -/
theorem size_defineAll (heap : Heap) (scope : Nat) (bindings : List (String × Value)) :
    (heap.defineAll scope bindings).scopes.size = heap.scopes.size := by
  induction bindings generalizing heap with
  | nil => rfl
  | cons first rest ih => exact (ih _).trans (Store.size_modify ..)

/-- The scope that a variable is found in binds it. -/
theorem binds_of_binder? {binder : Nat} (found : heap.binder? scope name = some binder) :
    heap.binds binder name = true := by
  have within : ∀ bound scope, heap.binderWithin? name bound scope = some binder →
      heap.binds binder name = true := by
    intro bound
    induction bound with
    | zero => exact fun _ none => nomatch none
    | succ bound ih =>
      intro scope found
      unfold binderWithin? at found
      split at found
      · contradiction
      · rename_i content present
        split at found
        · rename_i contained
          obtain rfl := Option.some.inj found
          unfold binds
          rw [present]
          exact contained
        · split at found
          · contradiction
          · exact ih _ found
  exact within _ _ found

end Heap

/-- The code goes on in the scope where it was. In the scopes that were there no new names are
bound, but added ones in the scope of the code. -/
structure Machine.AddsOnly (added : String → Prop) (before after : Machine) : Prop where
  scope : after.scope = before.scope
  size : before.heap.scopes.size ≤ after.heap.scopes.size
  bound : ∀ {scope : Nat} {name : String}, scope < before.heap.scopes.size →
    after.heap.binds scope name = true →
    before.heap.binds scope name = true ∨ scope = before.scope ∧ added name

/-- No scope that was there gets a new name. -/
abbrev Machine.AddsNothing : Machine → Machine → Prop := Machine.AddsOnly fun _ => False

namespace Machine

variable {added more : String → Prop} {machine later last : Machine}

/-- What adds only some names adds only some of more names. -/
theorem AddsOnly.mono (adds : machine.AddsOnly added later) (le : ∀ name, added name → more name) :
    machine.AddsOnly more later :=
  { adds with bound := fun inside binds => (adds.bound inside binds).imp_right fun new =>
      ⟨new.1, le _ new.2⟩ }

/-- What adds no names adds only those one likes. -/
theorem AddsNothing.addsOnly (quiet : machine.AddsNothing later) : machine.AddsOnly added later :=
  quiet.mono fun _ absurd => absurd.elim

/-- What leaves the scopes adds no names. -/
theorem addsOnly_of_scopes (scope : later.scope = machine.scope)
    (scopes : later.heap.scopes = machine.heap.scopes) : machine.AddsOnly added later where
  scope := scope
  size := scopes ▸ Nat.le_refl _
  bound _ binds := .inl (by
    unfold Heap.binds at binds ⊢
    rwa [← scopes])

/-- A machine that nothing happens to adds no names. -/
theorem addsOnly_refl (machine : Machine) : machine.AddsOnly added machine :=
  addsOnly_of_scopes rfl rfl

/-- What twice adds only some names adds only these. -/
theorem AddsOnly.trans (first : machine.AddsOnly added later) (second : later.AddsOnly added last) :
    machine.AddsOnly added last where
  scope := second.scope.trans first.scope
  size := Nat.le_trans first.size second.size
  bound inside binds := by
    rcases second.bound (Nat.lt_of_lt_of_le inside first.size) binds with early | ⟨here, new⟩
    · exact first.bound inside early
    · exact .inr ⟨here.trans first.scope, new⟩

/-- What code adds that runs in a scope not there before, nobody sees who was there before. -/
theorem AddsOnly.inNewScope {inner left : Machine} (adds : inner.AddsOnly added last)
    (enters : machine.AddsNothing later) (same : inner.heap = later.heap)
    (new : machine.heap.scopes.size ≤ inner.scope) (scope : left.scope = machine.scope)
    (heap : left.heap = last.heap) : machine.AddsNothing left where
  scope := scope
  size := by
    rw [heap]
    exact Nat.le_trans enters.size (same ▸ adds.size)
  bound inside binds := by
    rw [heap] at binds
    have there := Nat.lt_of_lt_of_le inside enters.size
    rcases adds.bound (same ▸ there) binds with early | ⟨here, -⟩
    · exact enters.bound inside (same ▸ early)
    · exact absurd (here ▸ inside) (Nat.not_lt.mpr new)

/-- Declaring a variable adds its name. -/
theorem addsOnly_declare (machine : Machine) (name : String) (value : Value) :
    machine.AddsOnly (· = name)
      { machine with heap := machine.heap.define machine.scope name value } where
  scope := rfl
  size := Nat.le_of_eq (Store.size_modify ..).symm
  bound _ binds := Heap.binds_of_define binds

/-- A new scope adds nothing to the others. -/
theorem addsNothing_newScope (machine : Machine) (parent : Option Nat) :
    machine.AddsNothing { machine with heap := (machine.heap.newScope parent).2 } where
  scope := rfl
  size := Nat.le_trans (Nat.le_succ _) (Nat.le_of_eq (Store.size_alloc ..).symm)
  bound _ binds := .inl (Heap.binds_of_newScope binds).1

/-- The scope that a body starts in is a new one. -/
theorem addsNothing_start (machine : Machine) (called : Activation) (arguments : List Value) :
    machine.AddsNothing { machine with heap := (called.start arguments machine.heap).2 } where
  scope := rfl
  size := by
    have one : (called.start arguments machine.heap).2.scopes.size = machine.heap.scopes.size + 1 :=
      (Heap.size_defineAll ..).trans (Store.size_alloc ..)
    exact Nat.le_trans (Nat.le_succ _) (Nat.le_of_eq one.symm)
  bound inside has := by
    rcases Heap.binds_of_defineAll has with early | ⟨here, -⟩
    · exact .inl (Heap.binds_of_newScope early).1
    · exact absurd (here ▸ inside) (Nat.lt_irrefl _)

end Machine

/-! ## Quiet steps -/

/-- However the computation starts, it adds no names if it gives a value. -/
def Run.Quiet {α : Type} (run : Run α) : Prop :=
  ∀ ⦃machine : Machine⦄ ⦃value : α⦄ ⦃later : Machine⦄, run machine = .done value later →
    machine.AddsNothing later

/-- However the computation starts and ends, it adds no names. -/
def Run.NeverAdds {α : Type} (run : Run α) : Prop :=
  ∀ machine : Machine, (run machine).Leaves machine.AddsNothing

namespace Run

variable {α : Type}

/-- What never adds names is quiet. -/
theorem NeverAdds.quiet {run : Run α} (never : run.NeverAdds) : run.Quiet := by
  intro machine value later done
  have leaves := never machine
  rwa [done] at leaves

/-- An outcome that leaves the scopes alone adds no names. -/
theorem leaves_of_keeps {property : Value → Prop} {good : α → Prop} {outcome : Outcome α}
    {machine : Machine} (keeps : outcome.Keeps property good machine) :
    outcome.Leaves machine.AddsNothing := by
  cases outcome with
  | done value later => exact Machine.addsOnly_of_scopes keeps.2.1.scope keeps.2.1.heap.scopes
  | failed diagnostic later => exact Machine.addsOnly_of_scopes keeps.2.scope keeps.2.heap.scopes
  | exhausted => trivial

/-- Computations that leave the scopes alone add no names. -/
theorem Keeps.neverAdds {good : α → Prop} {run : Run α} (keeps : Keeps (fun _ => True) good run) :
    run.NeverAdds :=
  fun machine => leaves_of_keeps (keeps machine (Machine.all_of_forall (fun _ => trivial) machine))

/-- A computation that leaves all scopes is quiet. -/
theorem Keeps.quiet {good : α → Prop} {run : Run α} (keeps : Keeps (fun _ => True) good run) :
    run.Quiet := keeps.neverAdds.quiet

/-- Making a function adds no names. -/
theorem close_neverAdds (decl : FunctionDecl) : (close decl).NeverAdds := by
  intro machine
  have all : machine.All fun _ => True := Machine.all_of_forall (fun _ => trivial) machine
  exact leaves_of_keeps (close_keeps all fun _ => trivial)

/-- Making a class adds no names. -/
theorem makeClass_neverAdds (name : String) (superclass : Option Class)
    (methods : List FunctionDecl) : (makeClass name superclass methods).NeverAdds := by
  intro machine
  have all : machine.All fun _ => True := Machine.all_of_forall (fun _ => trivial) machine
  exact leaves_of_keeps (makeClass_keeps all fun _ => trivial)

/-- Assigning rebinds what is bound. -/
theorem neverAdds_assignVariable (span : Span) (name : String) (value : Value) :
    (assignVariable span name value).NeverAdds := by
  intro machine
  unfold assignVariable
  split
  · rename_i binder found
    refine ⟨rfl, Nat.le_of_eq (Store.size_modify ..).symm, fun _ has => ?_⟩
    rcases Heap.binds_of_define has with early | ⟨rfl, rfl⟩
    · exact .inl early
    · exact .inl (Heap.binds_of_binder? found)
  · exact machine.addsOnly_refl

end Run

/-- Every step of the plan is quiet. -/
def Plan.Quiet {α : Type} : Plan α → Prop
  | give _ => True
  | perform run next => run.Quiet ∧ ∀ value, (next value).Quiet
  | visit _ _ next => ∀ result, (next result).Quiet

/-- No step of the plan adds names. -/
def Plan.NeverAdds {α : Type} : Plan α → Prop
  | give _ => True
  | perform run next => run.NeverAdds ∧ ∀ value, (next value).NeverAdds
  | visit _ _ next => ∀ result, (next result).NeverAdds

/-- A plan that never adds names is quiet. -/
theorem Plan.NeverAdds.quiet {α : Type} {plan : Plan α} (never : plan.NeverAdds) : plan.Quiet := by
  induction plan with
  | give => trivial
  | perform run next ih => exact ⟨never.1.quiet, fun value => ih value (never.2 value)⟩
  | visit setting code next ih => exact fun result => ih result (never result)

/-- A plan of one last step that never adds names never does. -/
theorem Plan.neverAdds_last {α : Type} {run : Run α} (never : run.NeverAdds) :
    (last run).NeverAdds :=
  ⟨never, fun _ => trivial⟩

/-- The steps of expressions add no names. -/
theorem Expr.plan_neverAdds (form : Expr) : form.plan.NeverAdds := by
  have plain : Value.Plain fun _ => True := fun _ _ => trivial
  cases form with
  | literal span value => exact neverAdds_last (literal_keeps plain value).neverAdds
  | «variable» span name => exact neverAdds_last (readVariable_keeps span name).neverAdds
  | this span => exact neverAdds_last (readVariable_keeps span "this").neverAdds
  | super span name =>
    have keeps : Keeps (fun _ => True) (fun _ => True) (superMethod span name) :=
      fun machine all => superMethod_keeps all span name fun _ _ _ _ => trivial
    exact neverAdds_last keeps.neverAdds
  | group => exact fun _ => trivial
  | assign span name value =>
    exact fun value => ⟨neverAdds_assignVariable span name value, fun _ => trivial⟩
  | binary span op left right =>
    exact fun left right =>
      neverAdds_last ((binary_keeps plain op left right).withSpan span).neverAdds
  | logical span op left right =>
    intro value
    dsimp only
    split
    · trivial
    · exact fun _ => trivial
  | unary span op operand =>
    exact fun operand => neverAdds_last (unary_keeps plain span op operand).neverAdds
  | call => exact fun _ _ _ => trivial
  | get span object name =>
    intro object
    have keeps : Keeps (fun _ => True) (fun _ => True) (property object name) := fun machine all =>
      property_keeps all object name (fun _ _ _ => trivial) fun _ _ _ _ => trivial
    exact neverAdds_last (keeps.withSpan span).neverAdds
  | set span object name value =>
    intro object
    cases object with
    | object ref =>
      exact fun value => ⟨(setField_keeps ref name trivial).neverAdds, fun _ => trivial⟩
    | _ => exact neverAdds_last (@Keeps.faultAt Value _ (fun _ => True) _ _).neverAdds

/-- The steps of code that is neither made of statements nor an activation add no names. -/
theorem Code.plan_neverAdds {kind : ResultKind} {code : Code kind} (unflowing : kind ≠ .flow)
    (inactive : code.isActivation = false) : code.plan.NeverAdds := by
  have plain : Value.Plain fun _ => True := fun _ _ => trivial
  have fault : ∀ fault, (Run.fault fault : Run Value).NeverAdds := fun fault =>
    (@Keeps.fault Value _ (fun _ => True) fault).neverAdds
  cases code with
  | stmt | stmts | loop => contradiction
  | activation => contradiction
  | expr form => exact form.plan_neverAdds
  | exprs forms =>
    cases forms with
    | nil => trivial
    | cons first rest => exact fun _ _ => trivial
  | call callee arguments span =>
    cases callee with
    | function | method | classObject => exact fun _ => trivial
    | builtin identity builtin receiver =>
      exact neverAdds_last (builtin.call_keeps plain receiver (fun _ _ => trivial) span).neverAdds
    | _ => exact neverAdds_last (fault _)
  | instantiation cls arguments =>
    show (cls.plan arguments).NeverAdds
    unfold Class.plan
    split
    · exact neverAdds_last (fault _)
    · refine ⟨(newInstance_keeps plain trivial).neverAdds, fun object => ?_⟩
      dsimp only
      cases cls.findMethod? FunctionDecl.initializerName with
      | none => trivial
      | some method => exact fun _ => trivial

/-- Only statements and the start of a function body bind names. -/
theorem Code.plan_quiet {kind : ResultKind} {code : Code kind} (unflowing : kind ≠ .flow)
    (inactive : code.isActivation = false) : code.plan.Quiet :=
  (Code.plan_neverAdds unflowing inactive).quiet

end EventScript
