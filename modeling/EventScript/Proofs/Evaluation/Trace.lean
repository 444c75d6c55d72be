import EventScript.Proofs.Evaluation.Contract

/-!
# Traces of evaluation

`Code.trace` computes what code an evaluation comes to, so that it can be looked at in concrete
programs. It lists exactly what `Code.Visits` says (`Code.mem_trace`).
-/

namespace EventScript

/-- A piece of code and the machine it is run on. -/
structure Occasion where
  {kind : ResultKind}
  code : Code kind
  machine : Machine

/-- The expression, if the code is one. -/
def Occasion.expr? : Occasion → Option Expr
  | ⟨.expr form, _⟩ => some form
  | _ => none

/-- The statement, if the code is one. -/
def Occasion.stmt? : Occasion → Option Stmt
  | ⟨.stmt form, _⟩ => some form
  | _ => none

/-- The code of an occasion is the expression found there. -/
theorem Occasion.eq_of_expr? {occasion : Occasion} {form : Expr}
    (found : occasion.expr? = some form) : occasion = ⟨.expr form, occasion.machine⟩ := by
  obtain ⟨code, machine⟩ := occasion
  cases code with
  | expr inner =>
    obtain rfl := Option.some.inj found
    rfl
  | _ => contradiction

/-- The code of an occasion is the statement found there. -/
theorem Occasion.eq_of_stmt? {occasion : Occasion} {form : Stmt}
    (found : occasion.stmt? = some form) : occasion = ⟨.stmt form, occasion.machine⟩ := by
  obtain ⟨code, machine⟩ := occasion
  cases code with
  | stmt inner =>
    obtain rfl := Option.some.inj found
    rfl
  | _ => contradiction

/-- What is given, and the machine on which it is. -/
def Outcome.done? {α : Type} : Outcome α → Option (α × Machine)
  | .done value machine => some (value, machine)
  | _ => none

/-- An outcome that gives something is done. -/
theorem Outcome.eq_of_done? {α : Type} {outcome : Outcome α} {value : α} {machine : Machine}
    (given : outcome.done? = some (value, machine)) : outcome = .done value machine := by
  cases outcome with
  | done value machine =>
    obtain ⟨rfl, rfl⟩ := Prod.mk.inj (Option.some.inj given)
    rfl
  | failed diagnostic machine => contradiction
  | exhausted => contradiction

/-- An occasion of the second sort that is listed after the first one of the first sort. -/
theorem Occasion.exists_in_order {first second : Occasion → Bool} {occasions : List Occasion}
    (listed : (occasions.dropWhile (!first ·)).tail.any second = true) :
    ∃ early one late other back, occasions = (early ++ one :: late) ++ other :: back ∧
      first one = true ∧ second other = true := by
  induction occasions with
  | nil => contradiction
  | cons occasion rest ih =>
    cases isFirst : first occasion with
    | false =>
      rw [List.dropWhile_cons_of_pos (by simp [isFirst])] at listed
      obtain ⟨early, one, late, other, back, rfl, wanted⟩ := ih listed
      exact ⟨occasion :: early, one, late, other, back, rfl, wanted⟩
    | true =>
      rw [List.dropWhile_cons_of_neg (by simp [isFirst])] at listed
      obtain ⟨other, member, wanted⟩ := List.any_eq_true.mp listed
      obtain ⟨late, back, same⟩ := List.append_of_mem member
      exact ⟨[], occasion, late, other, back, congrArg (List.cons occasion) same, isFirst, wanted⟩

/-- If an expression that is wanted is among the occasions, it is run on some machine there. -/
theorem Occasion.exists_of_any {occasions : List Occasion} {wanted : Expr → Bool}
    (listed : occasions.any (fun occasion => occasion.expr?.any wanted) = true) :
    ∃ form machine, wanted form = true ∧ ⟨.expr form, machine⟩ ∈ occasions := by
  obtain ⟨occasion, member, isWanted⟩ := List.any_eq_true.mp listed
  obtain ⟨form, found, isForm⟩ := (Option.any_eq_true _ _).mp isWanted
  exact ⟨form, occasion.machine, isForm, Occasion.eq_of_expr? found ▸ member⟩

/-- The inner code that carrying out a plan comes to, in order. -/
def Plan.trace {α : Type} (runner : Runner) : Plan α → Machine → List Occasion
  | give _, _ => []
  | perform run next, machine =>
    match run machine with
    | .done value later => (next value).trace runner later
    | _ => []
  | @visit _ kind setting code next, machine =>
    ⟨code, setting.enter machine⟩ ::
      match runner kind code (setting.enter machine) with
      | .done result later => (next result).trace runner (setting.leave machine later)
      | _ => []

/-- The trace of a plan lists what the plan visits. -/
theorem Plan.mem_trace {α : Type} {runner : Runner} {plan : Plan α} {machine : Machine}
    {occasion : Occasion} :
    occasion ∈ plan.trace runner machine ↔
      plan.Visits runner machine occasion.code occasion.machine := by
  constructor
  · intro member
    induction plan generalizing machine with
    | give value => contradiction
    | perform run next ih =>
      unfold trace at member
      split at member
      · rename_i value later done
        exact .perform done (ih value member)
      · contradiction
    | @visit kind setting code next ih =>
      unfold trace at member
      rcases List.mem_cons.mp member with rfl | inRest
      · exact .here
      · split at inRest
        · rename_i result later done
          exact .onward done (ih result inRest)
        · contradiction
  · obtain ⟨inner, reached⟩ := occasion
    intro visits
    dsimp only at visits
    induction visits with
    | perform done _ ih =>
      rw [trace, done]
      exact ih
    | here =>
      rw [trace]
      exact List.mem_cons_self
    | onward done _ ih =>
      rw [trace, done]
      exact List.mem_cons_of_mem _ ih

/-- The code that an evaluation within a bound comes to. -/
def Code.trace : Nat → {kind : ResultKind} → Code kind → Machine → List Occasion
  | 0, _, code, machine => [⟨code, machine⟩]
  | bound + 1, _, code, machine =>
    ⟨code, machine⟩ :: (code.plan.trace (.within bound) machine).flatMap fun inner =>
      inner.code.trace bound inner.machine

/-- The trace of an evaluation lists what the evaluation visits. -/
theorem Code.mem_trace {bound : Nat} {kind : ResultKind} {code : Code kind} {machine : Machine}
    {occasion : Occasion} :
    occasion ∈ code.trace bound machine ↔
      Code.Visits bound code machine occasion.code occasion.machine := by
  constructor
  · intro member
    induction bound generalizing kind code machine with
    | zero =>
      rw [trace, List.mem_singleton] at member
      subst member
      exact .here
    | succ bound ih =>
      unfold trace at member
      rcases List.mem_cons.mp member with rfl | inner
      · exact .here
      · obtain ⟨reached, visited, inReached⟩ := List.mem_flatMap.mp inner
        exact .inner (Plan.mem_trace.mp visited) (ih inReached)
  · obtain ⟨inner, reached⟩ := occasion
    intro visits
    dsimp only at visits
    induction visits with
    | @here bound =>
      cases bound <;> exact List.mem_cons_self
    | @inner _ _ _ _ _ code' _ _ reached _ visits _ ih =>
      have visited := (@Plan.mem_trace _ _ _ _ ⟨code', reached⟩).mpr visits
      exact List.mem_cons_of_mem _ (List.mem_flatMap.mpr ⟨_, visited, ih⟩)

/-- What the inner code of a plan comes to, all in order. -/
def Plan.fullTrace {α : Type} (bound : Nat) (plan : Plan α) (machine : Machine) : List Occasion :=
  (plan.trace (.within bound) machine).flatMap fun inner => inner.code.trace bound inner.machine

section Steps

variable {α β : Type} {machine later : Machine} {run : Run β} {next : β → Plan α} {value : β}

/-- After a step that gives a value the trace is that of what follows. -/
theorem Plan.fullTrace_done {bound : Nat} (done : run machine = .done value later) :
    (perform run next).fullTrace bound machine = (next value).fullTrace bound later := by
  unfold fullTrace
  rw [trace, done]

/-- After a step that gives a value what follows is carried out. -/
theorem Plan.carryOut_done {runner : Runner} (done : run machine = .done value later) :
    (perform run next).carryOut runner machine = (next value).carryOut runner later := by
  simp only [carryOut, bind, done]

end Steps

end EventScript
