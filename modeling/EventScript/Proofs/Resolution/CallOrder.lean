import EventScript.Proofs.Evaluation.ScopeTree
import EventScript.Proofs.Resolution.Rooted
import Mathlib.Data.List.Pairwise

/-!
# Calls start in scopes of their own

Scopes are added and never taken away, and the body of a method starts in a scope that was not there
before. So in what is run, one thing after the other, no two calls start in the same scope
(`InOrder.agree`): a scope that a call started in tells the call.
-/

namespace EventScript

open Run Plan

/-- The number of scopes that there are. -/
def Machine.scopeCount (machine : Machine) : Nat := machine.heap.scopes.size

/-- The scopes that are as they were are as many. -/
theorem Machine.KeepsScopes.scopeCount_eq {before after : Machine}
    (keeps : before.KeepsScopes after) :
    after.scopeCount = before.scopeCount := congrArg Store.size keeps.heap.scopes

/-- A heap that grew has at least as many scopes. -/
theorem Heap.Grows.size_le {before after : Heap} (grows : before.Grows after) :
    before.scopes.size ≤ after.scopes.size := grows.scopes.size_le

/-- However the computation ends, there are at least as many scopes as before. -/
def Run.AddsScopes {α : Type} (run : Run α) : Prop :=
  ∀ machine, (run machine).Leaves fun later => machine.scopeCount ≤ later.scopeCount

/-- Every step of the plan keeps the scopes that there are. -/
def Plan.AddsScopes {α : Type} : Plan α → Prop
  | give _ => True
  | perform run next => run.AddsScopes ∧ ∀ value, (next value).AddsScopes
  | visit _ _ next => ∀ result, (next result).AddsScopes

/-- What adds to the tree of scopes at most keeps those that there are. -/
theorem Plan.Sprouts.addsScopes {α : Type} {plan : Plan α} (sprouts : plan.Sprouts) :
    plan.AddsScopes := by
  induction plan with
  | give value => trivial
  | perform run next ih =>
    refine ⟨fun machine => ?_, fun value => ih value (sprouts.2 value)⟩
    exact (sprouts.1 machine).imp fun _ sprouts => sprouts.size_le
  | visit setting code next ih => exact fun result => ih result (sprouts result)

/-- The activation of a method tells the object and the method. -/
theorem Activation.ofMethod_inj {receiver receiver' : Value} {method method' : Method}
    (same : ofMethod receiver method = ofMethod receiver' method') :
    receiver = receiver' ∧ method = method' := by
  obtain ⟨owner, decl⟩ := method
  obtain ⟨owner', decl'⟩ := method'
  simp only [ofMethod, mk.injEq, Option.some.injEq] at same
  obtain ⟨rfl, -, rfl, rfl, -⟩ := same
  exact ⟨rfl, rfl⟩

/-- A call starts in a scope that was not there before. -/
theorem Occasion.Starts.scope_eq {occasion : Occasion} {call : MethodCall}
    (starts : occasion.Starts call) : call.scope = occasion.machine.scopeCount := by
  cases starts with
  | intro checked entered => exact (Outcome.done.inj entered).1.symm

/-- One call starts at a time. -/
theorem Occasion.Starts.unique {occasion : Occasion} {call call' : MethodCall}
    (starts : occasion.Starts call) (starts' : occasion.Starts call') : call = call' := by
  have same := starts.scope_eq.trans starts'.scope_eq.symm
  generalize started : occasion = other at starts'
  cases starts with
  | intro =>
    cases starts' with
    | intro =>
      simp only [Occasion.mk.injEq, heq_eq_eq, true_and, Code.activation.injEq] at started
      obtain ⟨rfl, rfl⟩ := Activation.ofMethod_inj started.1.1
      exact congrArg (MethodCall.mk _ _) same

/-- Calls that start in the same scope are the same. -/
def Occasion.Agrees (one other : Occasion) : Prop :=
  ∀ call call', one.Starts call → other.Starts call' → call.scope = call'.scope → call = call'

instance : Std.Symm Occasion.Agrees where
  symm _ _ agree call call' starts starts' same := (agree call' call starts' starts same.symm).symm

/-- The scopes that are there at the occasion, and the one that a call starts in there, are among
the first `count`. -/
def Occasion.Within (count : Nat) (occasion : Occasion) : Prop :=
  occasion.machine.scopeCount ≤ count ∧ ∀ call, occasion.Starts call → call.scope < count

/-- An occasion within some scopes is within more of them. -/
theorem Occasion.Within.mono {low high : Nat} {occasion : Occasion} (within : occasion.Within low)
    (le : low ≤ high) : occasion.Within high :=
  ⟨Nat.le_trans within.1 le, fun call starts => Nat.lt_of_lt_of_le (within.2 call starts) le⟩

/-- With at least `low` scopes there at first, each occasion finds those of all before it. -/
structure InOrder (low : Nat) (occasions : List Occasion) : Prop where
  above : ∀ occasion ∈ occasions, low ≤ occasion.machine.scopeCount
  pairwise : occasions.Pairwise fun first second => first.Within second.machine.scopeCount

namespace InOrder

variable {low middle : Nat} {first second : List Occasion} {occasion : Occasion}

/-- Nothing is in order. -/
theorem nil : InOrder low [] := ⟨List.forall_mem_nil _, .nil⟩

/-- What is in order is so with fewer scopes at first. -/
theorem mono {high : Nat} (inOrder : InOrder high first) (le : low ≤ high) : InOrder low first :=
  ⟨fun occasion member => Nat.le_trans le (inOrder.above occasion member), inOrder.pairwise⟩

/-- Two lists in order make one if the second starts where the first has ended. -/
theorem append (head : InOrder low first) (within : ∀ occasion ∈ first, occasion.Within middle)
    (tail : InOrder middle second) (le : low ≤ middle) : InOrder low (first ++ second) where
  above := by
    intro occasion member
    rcases List.mem_append.mp member with early | late
    · exact head.above occasion early
    · exact Nat.le_trans le (tail.above occasion late)
  pairwise := List.pairwise_append.mpr ⟨head.pairwise, tail.pairwise,
    fun early inFirst late inSecond =>
    (within early inFirst).mono (tail.above late inSecond)⟩

/-- No two calls start in the same scope. -/
theorem agree {occasions : List Occasion} (inOrder : InOrder low occasions) {one other : Occasion}
    (early : one ∈ occasions) (late : other ∈ occasions) : one.Agrees other := by
  refine List.Pairwise.forall_of_forall ?_ (inOrder.pairwise.imp ?_) early late
  · intro occasion _ call call' starts starts' _
    exact starts.unique starts'
  · intro one other within call call' starts starts' same
    have earlier := within.2 call starts
    rw [same, starts'.scope_eq] at earlier
    exact absurd earlier (Nat.lt_irrefl _)

end InOrder

/-- With at least `low` scopes there at first, the occasions are in order, and all scopes found at
them are there in the end. -/
structure Passes (low : Nat) (occasions : List Occasion) {α : Type} (outcome : Outcome α) :
    Prop where
  inOrder : InOrder low occasions
  leaves : outcome.Leaves fun later =>
    low ≤ later.scopeCount ∧ ∀ occasion ∈ occasions, occasion.Within later.scopeCount

namespace Passes

variable {α : Type} {low middle : Nat} {occasions first second : List Occasion}
variable {outcome : Outcome α} {occasion : Occasion}

/-- What passes in order does so with fewer scopes at first. -/
theorem mono (passes : Passes middle occasions outcome) (le : low ≤ middle) :
    Passes low occasions outcome := by
  refine ⟨passes.inOrder.mono le, ?_⟩
  have leaves := passes.leaves
  cases outcome with
  | exhausted => trivial
  | done value later | failed diagnostic later => exact ⟨Nat.le_trans le leaves.1, leaves.2⟩

/-- What is in order may be followed by what passes. -/
theorem append (head : InOrder low first) (within : ∀ occasion ∈ first, occasion.Within middle)
    (tail : Passes middle second outcome) (le : low ≤ middle) :
    Passes low (first ++ second) outcome := by
  refine ⟨head.append within tail.inOrder le, ?_⟩
  have leaves := tail.leaves
  cases outcome with
  | exhausted => trivial
  | done value later | failed diagnostic later =>
    refine ⟨Nat.le_trans le leaves.1, fun occasion member => ?_⟩
    rcases List.mem_append.mp member with early | late
    · exact (within occasion early).mono leaves.1
    · exact leaves.2 occasion late

/-- One occasion may be followed by what passes. -/
theorem cons (within : occasion.Within middle) (tail : Passes middle second outcome) :
    Passes occasion.machine.scopeCount (occasion :: second) outcome := by
  have alone : InOrder occasion.machine.scopeCount [occasion] :=
    ⟨fun other member => List.mem_singleton.mp member ▸ Nat.le_refl _, List.pairwise_singleton _ _⟩
  exact append alone (fun other member => List.mem_singleton.mp member ▸ within) tail within.1

end Passes

section Plans

variable {α : Type} {bound : Nat} {machine later : Machine}

/-- Entering inner code makes no scopes. -/
theorem Setting.scopeCount_enter (setting : Setting) (machine : Machine) :
    (setting.enter machine).scopeCount = machine.scopeCount := by
  cases setting <;> rfl

/-- Leaving inner code leaves the scopes that were made. -/
theorem Setting.scopeCount_leave (setting : Setting) (machine later : Machine) :
    (setting.leave machine later).scopeCount = later.scopeCount := by
  cases setting <;> rfl

/-- If inner code passes in order, so does a plan. -/
theorem Plan.passes {plan : Plan α} (adds : plan.AddsScopes)
    (inner : ∀ {kind : ResultKind} (code : Code kind) (machine : Machine),
      Passes machine.scopeCount (code.trace bound machine) (code.run bound machine))
    (machine : Machine) :
    Passes machine.scopeCount (plan.fullTrace bound machine)
      (plan.carryOut (.within bound) machine) := by
  induction plan generalizing machine with
  | give value => exact ⟨.nil, Nat.le_refl _, List.forall_mem_nil _⟩
  | perform run next ih =>
    obtain ⟨added, onward⟩ := adds
    have grown := added machine
    cases done : run machine with
    | done value later =>
      rw [done] at grown
      rw [fullTrace_done done, carryOut_done done]
      exact (ih value (onward value) later).mono grown
    | failed diagnostic later =>
      rw [done] at grown
      simp only [fullTrace, trace, done, carryOut, bind, List.flatMap_nil]
      exact ⟨.nil, grown, List.forall_mem_nil _⟩
    | exhausted =>
      simp only [fullTrace, trace, done, carryOut, bind, List.flatMap_nil]
      exact ⟨.nil, trivial⟩
  | @visit kind setting code next ih =>
    -- A setting changes which scope is in use, but not how many there are.
    obtain ⟨inOrder, leaves⟩ := inner code (setting.enter machine)
    rw [setting.scopeCount_enter] at inOrder leaves
    have same : Runner.within bound kind code = code.run bound := rfl
    unfold fullTrace
    cases done : code.run bound (setting.enter machine) with
    | done result later =>
      rw [done] at leaves
      obtain ⟨grown, within⟩ := leaves
      have rest := ih result (adds result) (setting.leave machine later)
      rw [setting.scopeCount_leave] at rest
      unfold fullTrace at rest
      simpa only [trace, carryOut, bind, Setting.around, same, done, Setting.outward,
        List.flatMap_cons] using Passes.append inOrder within rest grown
    | failed diagnostic later =>
      rw [done] at leaves
      simp only [trace, same, done, carryOut, bind, Setting.around, Setting.outward,
        List.flatMap_cons, List.flatMap_nil, List.append_nil]
      refine ⟨inOrder, ?_⟩
      show _ ≤ (setting.leave machine later).scopeCount ∧ _
      rw [setting.scopeCount_leave]
      exact leaves
    | exhausted =>
      simp only [trace, same, done, carryOut, bind, Setting.around, Setting.outward,
        List.flatMap_cons, List.flatMap_nil, List.append_nil]
      exact ⟨inOrder, trivial⟩

/-- When a call starts, what follows passes with the scope of the call already there. -/
theorem Occasion.Starts.passes {kind : ResultKind} {code : Code kind} {call : MethodCall}
    (starts : Occasion.Starts ⟨code, machine⟩ call)
    (inner : ∀ {kind : ResultKind} (code : Code kind) (machine : Machine),
      Passes machine.scopeCount (code.trace bound machine) (code.run bound machine)) :
    Passes (machine.scopeCount + 1) (code.plan.fullTrace bound machine)
      (code.plan.carryOut (.within bound) machine) := by
  cases starts with
  | @intro receiver method arguments _ later scope checked entered =>
    have added : machine.scopeCount + 1 ≤ later.scopeCount := by
      rw [← (Outcome.done.inj entered).2]
      have parameters := Heap.grows_defineAll (machine.heap.newScope (some method.owner.scope)).2
        (machine.heap.newScope (some method.owner.scope)).1
        ((Activation.ofMethod receiver method).bindings arguments)
      exact Nat.le_trans (Nat.le_of_eq (Store.size_alloc ..).symm) parameters.size_le
    have same : checkCall (Activation.ofMethod receiver method).decl arguments.length machine =
        .done () machine := checked
    show Passes _ (((Activation.ofMethod receiver method).plan arguments).fullTrace bound machine)
      (((Activation.ofMethod receiver method).plan arguments).carryOut (.within bound) machine)
    unfold Activation.plan
    rw [fullTrace_done same, carryOut_done same, fullTrace_done entered, carryOut_done entered]
    refine Passes.mono (Plan.passes ?_ inner later) added
    exact fun _ => trivial

/-- All that is run passes in order. -/
theorem Code.passes (bound : Nat) {kind : ResultKind} (code : Code kind) (machine : Machine) :
    Passes machine.scopeCount (code.trace bound machine) (code.run bound machine) := by
  induction bound generalizing kind code machine with
  | zero =>
    rw [Code.run_zero]
    exact ⟨⟨fun occasion member => List.mem_singleton.mp member ▸ Nat.le_refl _,
      List.pairwise_singleton _ _⟩, trivial⟩
  | succ bound ih =>
    rw [Code.run_succ]
    -- The occasion comes first. Where a call starts, its scope is there for all that comes after.
    show Passes machine.scopeCount (⟨code, machine⟩ :: code.plan.fullTrace bound machine) _
    by_cases start : ∃ call, Occasion.Starts ⟨code, machine⟩ call
    · obtain ⟨call, starts⟩ := start
      have within : Occasion.Within (machine.scopeCount + 1) ⟨code, machine⟩ := by
        refine ⟨Nat.le_succ _, fun call starts => ?_⟩
        rw [starts.scope_eq]
        exact Nat.lt_succ_self _
      exact Passes.cons within (starts.passes ih)
    · have within : Occasion.Within machine.scopeCount ⟨code, machine⟩ :=
        ⟨Nat.le_refl _, fun call starts => absurd ⟨call, starts⟩ start⟩
      exact Passes.cons within (Plan.passes code.plan_sprouts.addsScopes ih machine)

end Plans

end EventScript
