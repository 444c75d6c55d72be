import EventScript.Proofs.Evaluation.OwnContents
import EventScript.Proofs.Maps.Accounting

/-!
# Chronicles

A chronicle is a property of machines that may speak of all that was run before. It goes on while
the event loop and the contents of strings, lists and maps are left alone. So only two things are to
be shown of one: what it says of a call of a built-in function, and that other code, when it is come
to, has changed nothing yet. Then it holds wherever evaluation comes to code, and where it ends
(`Chronicle.tells`).
-/

namespace EventScript

open Run Plan

/-- What is to be shown of a property that speaks of what was run before. -/
structure Chronicle (holds : List Occasion → Machine → Prop) : Prop where
  alone : ∀ {history : List Occasion} {machine later : Machine}, holds history machine →
    machine.LeavesAlone later → holds history later
  note : ∀ {history : List Occasion} {machine : Machine} {kind : ResultKind} (code : Code kind),
    code.isBuiltin = false → holds history machine → holds (history ++ [⟨code, machine⟩]) machine
  call : ∀ {history : List Occasion} {machine : Machine} (identity : Nat) (function : Builtin)
    (receiver : Option Value) (arguments : List Value) (span : Span), holds history machine →
    (function.call receiver arguments span machine).Leaves
      (holds (history ++ [⟨.call (.builtin identity function receiver) arguments span, machine⟩]))

/-- The property holds at each occasion, and in the end. -/
structure Told (holds : List Occasion → Machine → Prop) (history occasions : List Occasion)
    {α : Type}
    (outcome : Outcome α) : Prop where
  unfolds : Unfolds (fun past occasion => holds past occasion.machine) history occasions
  leaves : outcome.Leaves (holds (history ++ occasions))

namespace Told

variable {holds : List Occasion → Machine → Prop} {history first second : List Occasion}
    {α β : Type}

/-- Where nothing has happened, what holds at the end is told. -/
theorem nil {outcome : Outcome α} (leaves : outcome.Leaves (holds history)) :
    Told holds history [] outcome := by
  refine ⟨trivial, ?_⟩
  rwa [List.append_nil]

/-- What is told of the rest comes after what was told before. -/
theorem after {outcome : Outcome α}
    (unfolds : Unfolds (fun past occasion => holds past occasion.machine) history first)
    (told : Told holds (history ++ first) second outcome) :
    Told holds history (first ++ second) outcome := by
  refine ⟨unfolds.append told.unfolds, ?_⟩
  rw [← List.append_assoc]
  exact told.leaves

end Told

/-- A setting leaves the event loop and all contents alone. -/
theorem Setting.leavesAlone_enter (setting : Setting) (machine : Machine) :
    machine.LeavesAlone (setting.enter machine) := by
  cases setting <;> exact ⟨rfl, .of_same rfl rfl rfl⟩

/-- Leaving inner code leaves all contents alone. -/
theorem Setting.leavesAlone_leave (setting : Setting) (machine later : Machine) :
    later.LeavesAlone (setting.leave machine later) := by
  cases setting <;> exact ⟨rfl, .of_same rfl rfl rfl⟩

namespace Chronicle

variable {holds : List Occasion → Machine → Prop} {history : List Occasion} {machine : Machine}

/-- The chronicle is told of all code within the bound. -/
def TellsWithin (holds : List Occasion → Machine → Prop) (bound : Nat) : Prop :=
  ∀ {kind : ResultKind} (code : Code kind) {history : List Occasion} {machine : Machine},
    holds history machine → Told holds history (code.trace bound machine) (code.run bound machine)

/-- A plan whose own steps leave everything alone goes on with what is told of inner code. -/
theorem tells_plan (chronicle : Chronicle holds) {α : Type} {bound : Nat} {plan : Plan α}
    (alone : plan.LeavesAlone) (inner : TellsWithin holds bound) (now : holds history machine) :
    Told holds history (plan.fullTrace bound machine) (plan.carryOut (.within bound) machine) := by
  induction plan generalizing history machine with
  | give result => exact .nil now
  | perform run next ih =>
    obtain ⟨first, rest⟩ := alone
    have left := first machine
    cases done : run machine with
    | exhausted =>
      simp only [fullTrace, trace, done, carryOut, bind, List.flatMap_nil]
      exact .nil trivial
    | failed diagnostic later =>
      rw [done] at left
      simp only [fullTrace, trace, done, carryOut, bind, List.flatMap_nil]
      exact .nil (chronicle.alone now left)
    | done result later =>
      rw [done] at left
      rw [fullTrace_done done, carryOut_done done]
      exact ih result (rest result) (chronicle.alone now left)
  | @visit kind setting code next ih =>
    have told := inner code (chronicle.alone now (setting.leavesAlone_enter machine))
    have same : Runner.within bound kind code = code.run bound := rfl
    have back : ∀ later, holds (history ++ code.trace bound (setting.enter machine)) later →
        holds (history ++ code.trace bound (setting.enter machine)) (setting.leave machine later) :=
      fun later now => chronicle.alone now (setting.leavesAlone_leave machine later)
    unfold fullTrace
    cases done : code.run bound (setting.enter machine) with
    | exhausted =>
      simp only [trace, same, done, carryOut, bind, Setting.around, Setting.outward,
        List.flatMap_cons, List.flatMap_nil, List.append_nil]
      exact ⟨told.unfolds, trivial⟩
    | failed diagnostic later =>
      have left := told.leaves
      rw [done] at left
      simp only [trace, same, done, carryOut, bind, Setting.around, Setting.outward,
        List.flatMap_cons, List.flatMap_nil, List.append_nil]
      exact ⟨told.unfolds, back later left⟩
    | done result later =>
      have left := told.leaves
      rw [done] at left
      have rest := ih result (alone result) (back later left)
      unfold fullTrace at rest
      simpa only [trace, carryOut, bind, Setting.around, same, done, Setting.outward,
        List.flatMap_cons] using Told.after told.unfolds rest

/-- A chronicle is told of all evaluation. -/
theorem tells (chronicle : Chronicle holds) (bound : Nat) : TellsWithin holds bound := by
  induction bound with
  | zero =>
    intro kind code history machine now
    rw [Code.run_zero]
    exact ⟨⟨now, trivial⟩, trivial⟩
  | succ bound ih =>
    intro kind code history machine now
    have here : Unfolds (fun past occasion => holds past occasion.machine) history
        [⟨code, machine⟩] :=
      ⟨now, trivial⟩
    rw [Code.run_succ]
    show Told holds history ([⟨code, machine⟩] ++ code.plan.fullTrace bound machine) _
    cases other : code.isBuiltin with
    | false =>
      have noted := chronicle.note code other now
      exact .after here (chronicle.tells_plan (code.plan_leavesAlone other) ih noted)
    | true =>
      cases code with
      | call callee arguments span =>
        cases callee with
        | builtin identity function receiver =>
          -- The call is one step, in which no other code is run.
          have one : (Code.call (.builtin identity function receiver) arguments span).plan =
              Plan.last (function.call receiver arguments span) := rfl
          rw [one, Plan.fullTrace_last, Plan.carryOut_last]
          exact ⟨here, chronicle.call identity function receiver arguments span now⟩
        | _ => contradiction
      | _ => contradiction

end Chronicle

end EventScript
