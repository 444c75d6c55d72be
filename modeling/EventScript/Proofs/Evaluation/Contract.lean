import EventScript.Proofs.Evaluation.Plan

/-!
# Contracts of evaluation

A `Contract` says of every piece of code on which machines it may be run, and how it may end there.
A plan meets it (`Plan.Meets`) when, starting from such a machine, it runs inner code only on
machines that the contract allows, and ends as the contract says if inner code does. Then carrying
it out ends so (`Plan.Meets.carryOut`), and comes to code only on machines that the contract allows
(`Plan.Meets.visited`).

`Code.Visits` is the code that an evaluation comes to, each with the machine it comes to it on. It
leaves none out: how a plan ends depends on inner code only where it is visited
(`Plan.carryOut_congr`).
-/

namespace EventScript

/-- What holds when code is run, and what is to hold when it ends. -/
structure Contract where
  before : ∀ {kind : ResultKind}, Code kind → Machine → Prop
  after : ∀ {kind : ResultKind}, Code kind → Machine → Outcome kind.Result → Prop
  /-- Nothing is promised where the bound does not suffice. -/
  exhausted : ∀ {kind : ResultKind} (code : Code kind) (machine : Machine),
    after code machine .exhausted

/-- Where the outcome gives a value, `next` holds of it, and otherwise the outcome is the final one
and meets the goal. -/
def Outcome.Then {α β : Type} (goal : Outcome β → Prop) (next : α → Machine → Prop) :
    Outcome α → Prop
  | .done value later => next value later
  | .failed diagnostic later => goal (.failed diagnostic later)
  | .exhausted => goal .exhausted

/-- The machine that the outcome leaves behind, if it leaves one, has a property. -/
def Outcome.Leaves {α : Type} (property : Machine → Prop) : Outcome α → Prop
  | .done _ later | .failed _ later => property later
  | .exhausted => True

namespace Plan

variable {α : Type}

/-- From the machine on, the plan runs inner code only where the contract allows, and ends in an
outcome that meets the goal if inner code ends as the contract says. -/
def Meets (contract : Contract) (goal : Outcome α → Prop) : Plan α → Machine → Prop
  | give value, machine => goal (.done value machine)
  | perform run next, machine =>
    (run machine).Then goal fun value later => (next value).Meets contract goal later
  | visit setting code next, machine =>
    contract.before code (setting.enter machine) ∧
      ∀ outcome, contract.after code (setting.enter machine) outcome →
        (setting.outward machine outcome).Then goal fun result later =>
          (next result).Meets contract goal later

/-- The code that carrying out a plan comes to, and the machine it comes to it on. -/
inductive Visits (runner : Runner) :
    Plan α → Machine → {kind : ResultKind} → Code kind → Machine → Prop where
  | perform {β : Type} {run : Run β} {next : β → Plan α} {machine later reached : Machine}
      {value : β}
      {kind : ResultKind} {code : Code kind} (done : run machine = .done value later)
      (onward : Visits runner (next value) later code reached) :
      Visits runner (.perform run next) machine code reached
  | here {kind : ResultKind} {setting : Setting} {code : Code kind} {next : kind.Result → Plan α}
      {machine : Machine} :
      Visits runner (.visit setting code next) machine code (setting.enter machine)
  | onward {kind : ResultKind} {setting : Setting} {code : Code kind} {next : kind.Result → Plan α}
      {machine later reached : Machine} {result : kind.Result} {kind' : ResultKind}
      {code' : Code kind'} (done : runner kind code (setting.enter machine) = .done result later)
      (onward : Visits runner (next result) (setting.leave machine later) code' reached) :
      Visits runner (.visit setting code next) machine code' reached

/-- Two ways to run inner code that agree where inner code is visited give the same outcome. -/
theorem carryOut_congr {first second : Runner} (plan : Plan α) (machine : Machine)
    (agree : ∀ {kind : ResultKind} (code : Code kind) (reached : Machine),
      Visits first plan machine code reached → first kind code reached = second kind code reached) :
    plan.carryOut first machine = plan.carryOut second machine := by
  induction plan generalizing machine with
  | give value => rfl
  | perform run next ih =>
    cases done : run machine with
    | done value later =>
      have same := ih value later fun code reached visits =>
        agree code reached (.perform done visits)
      simpa only [carryOut, bind, done] using same
    | failed | exhausted => simp only [carryOut, bind, done]
  | @visit kind setting code next ih =>
    have here := agree code (setting.enter machine) .here
    cases done : first kind code (setting.enter machine) with
    | done result later =>
      have same := ih result (setting.leave machine later) fun code' reached visits =>
        agree code' reached (.onward done visits)
      simpa only [carryOut, bind, Setting.around, ← here, done, Setting.outward] using same
    | failed | exhausted =>
      simp only [carryOut, bind, Setting.around, ← here, done, Setting.outward]

/-- Wherever the plan comes to code that the contract allows to run there, the code ends as the
contract says. -/
def KeepsAlong (runner : Runner) (contract : Contract) (plan : Plan α) (machine : Machine) : Prop :=
  ∀ {kind : ResultKind} (code : Code kind) (reached : Machine),
    Visits runner plan machine code reached → contract.before code reached →
      contract.after code reached (runner kind code reached)

variable {contract : Contract} {goal : Outcome α → Prop}
variable {runner : Runner}

/-- A plan that meets a goal ends in an outcome that meets it. -/
theorem Meets.carryOut {plan : Plan α} {machine : Machine}
    (meets : plan.Meets contract goal machine)
    (keeps : KeepsAlong runner contract plan machine) :
    goal (plan.carryOut runner machine) := by
  induction plan generalizing machine with
  | give value => exact meets
  | perform run next ih =>
    unfold Meets at meets
    cases done : run machine with
    | done value later =>
      rw [done] at meets
      have onward := ih value meets fun code reached visits =>
        keeps code reached (.perform done visits)
      simpa only [Plan.carryOut, bind, done] using onward
    | failed | exhausted =>
      rw [done] at meets
      simp only [Plan.carryOut, bind, done]
      exact meets
  | @visit kind setting code next ih =>
    obtain ⟨before, onward⟩ := meets
    have after := onward _ (keeps code _ .here before)
    cases done : runner kind code (setting.enter machine) with
    | done result later =>
      rw [done] at after
      have rest := ih result after fun code reached visits =>
        keeps code reached (.onward done visits)
      simpa only [Plan.carryOut, bind, Setting.around, done, Setting.outward] using rest
    | failed | exhausted =>
      rw [done] at after
      simp only [Plan.carryOut, bind, Setting.around, done, Setting.outward]
      exact after

/-- A plan that meets a goal comes to code only where the contract allows. -/
theorem Meets.visited {plan : Plan α} {machine reached : Machine} {kind : ResultKind}
    {code : Code kind} (meets : plan.Meets contract goal machine)
    (keeps : KeepsAlong runner contract plan machine)
    (visits : Visits runner plan machine code reached) : contract.before code reached := by
  induction visits with
  | perform done _ ih =>
    unfold Meets at meets
    rw [done] at meets
    exact ih meets fun code reached visits => keeps code reached (.perform done visits)
  | here => exact meets.1
  | onward done _ ih =>
    obtain ⟨before, onward⟩ := meets
    have after := onward _ (keeps _ _ .here before)
    rw [done] at after
    exact ih after fun code reached visits => keeps code reached (.onward done visits)

end Plan

/-- Two contracts at once. -/
def Contract.and (first second : Contract) : Contract where
  before code machine := first.before code machine ∧ second.before code machine
  after code machine outcome := first.after code machine outcome ∧ second.after code machine outcome
  exhausted code machine := ⟨first.exhausted code machine, second.exhausted code machine⟩

/-- A plan that meets two contracts meets both at once. -/
theorem Plan.Meets.and {α : Type} {first second : Contract} {goal other : Outcome α → Prop}
    {plan : Plan α} {machine : Machine} (one : plan.Meets first goal machine)
    (two : plan.Meets second other machine) :
    plan.Meets (first.and second) (fun outcome => goal outcome ∧ other outcome) machine := by
  have both : ∀ {β : Type} {outcome : Outcome β} {next : β → Plan α},
      (∀ value later, (next value).Meets first goal later → (next value).Meets second other later →
        (next value).Meets (first.and second) (fun outcome => goal outcome ∧ other outcome) later) →
      outcome.Then goal (fun value later => (next value).Meets first goal later) →
      outcome.Then other (fun value later => (next value).Meets second other later) →
      outcome.Then (fun outcome => goal outcome ∧ other outcome) fun value later =>
        (next value).Meets (first.and second) (fun outcome => goal outcome ∧
          other outcome) later := by
    intro β outcome next ih left right
    cases outcome with
    | done value later => exact ih value later left right
    | failed | exhausted => exact ⟨left, right⟩
  induction plan generalizing machine with
  | give value => exact ⟨one, two⟩
  | perform run next ih => exact both (fun value _ => ih value) one two
  | visit setting code next ih =>
    refine ⟨⟨one.1, two.1⟩, fun outcome after => ?_⟩
    exact both (fun result _ => ih result) (one.2 outcome after.1) (two.2 outcome after.2)

/-- The code that an evaluation within a bound comes to, and the machine it comes to it on. -/
inductive Code.Visits : Nat → {kind : ResultKind} → Code kind → Machine →
    {kind' : ResultKind} → Code kind' → Machine → Prop where
  | here {bound : Nat} {kind : ResultKind} {code : Code kind} {machine : Machine} :
      Visits bound code machine code machine
  | inner {bound : Nat} {kind kind' kind'' : ResultKind} {code : Code kind} {code' : Code kind'}
      {code'' : Code kind''} {machine reached final : Machine}
      (visits : Plan.Visits (.within bound) code.plan machine code' reached)
      (onward : Visits bound code' reached code'' final) :
      Visits (bound + 1) code machine code'' final

/-- Without any bound left, no code ends. -/
theorem Code.run_zero {kind : ResultKind} (code : Code kind) (machine : Machine) :
    code.run 0 machine = .exhausted := by
  cases code <;> rfl

end EventScript
