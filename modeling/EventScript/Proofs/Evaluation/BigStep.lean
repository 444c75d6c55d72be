import EventScript.Proofs.Evaluation.Ending

/-!
# Evaluation without bounds

An `Ending` says in which outcomes something may end from which machine. What code ends in is put
together from what the code inside it ends in, as its plan says (`Code.ends_eq`), so nothing more
has to be said of bounds. For the statements that others are made of this gives one equation each: a
block runs its statements in a new scope (`Code.ends_block`), and a loop goes through rounds
(`Code.ends_loop`).
-/

namespace EventScript

/-- The outcomes that something may end in, from each machine. -/
abbrev Ending (α : Type) : Type := Machine → Outcome α → Prop

/-- The machine with its code in a new scope, inside the one that it was in. -/
def Machine.inNewScope (machine : Machine) : Machine :=
  let (scope, heap) := machine.heap.newScope (some machine.scope)
  { machine with heap, scope }

namespace Ending

variable {α β : Type}

/-- To give a value at once. -/
def give (value : α) : Ending α := fun machine outcome => outcome = .done value machine

/-- To end as a computation does. -/
def ofRun (run : Run α) : Ending α :=
  fun machine outcome => run machine = outcome ∧ outcome ≠ .exhausted

/-- One thing after the other, unless the first one fails. -/
inductive Then (first : Ending α) (next : α → Ending β) : Ending β where
  | fails {machine later : Machine} {diagnostic : Diagnostic}
      (fails : first machine (.failed diagnostic later)) :
      Then first next machine (.failed diagnostic later)
  | goesOn {machine middle : Machine} {value : α} {outcome : Outcome β}
      (gives : first machine (.done value middle)) (onward : next value middle outcome) :
      Then first next machine outcome

/-- To do something in a setting. -/
def around (setting : Setting) (inner : Ending α) : Ending α := fun machine outcome =>
  ∃ ended, inner (setting.enter machine) ended ∧ outcome = setting.outward machine ended

/-- To do something in a new scope, and to come back. -/
def inNewScope (inner : Ending α) : Ending α := fun machine outcome =>
  ∃ ended, inner machine.inNewScope ended ∧
    outcome = (Setting.inScope machine.inNewScope.scope).outward machine ended

/-- One round: what is to be done is done if the condition holds, and then the rest unless it ends
otherwise than by going on to the next thing. -/
def round (condition : Ending Value) (body rest : Ending Flow) : Ending Flow :=
  condition.Then fun value =>
    if value.isTruthy then
      body.Then fun
        | .next => rest
        | .broke => give .next
        | .returned value => give (.returned value)
    else give .next

/-- To go through at most so many rounds. -/
def rounds (condition : Ending Value) (body : Ending Flow) : Nat → Ending Flow
  | 0 => fun _ _ => False
  | count + 1 => round condition body (rounds condition body count)

/-- To go through rounds, as many as it takes. -/
def loop (condition : Ending Value) (body : Ending Flow) : Ending Flow := fun machine outcome =>
  ∃ count, rounds condition body count machine outcome

/-- What is done ends, if at all, before some bound is exhausted. -/
def Proper (ending : Ending α) : Prop := ∀ machine, ¬ending machine .exhausted

/-- What a computation ends in is never that the bound does not suffice. -/
theorem proper_ofRun (run : Run α) : (ofRun run).Proper := fun _ ends => ends.2 rfl

/-- What code ends in is never that the bound does not suffice. -/
theorem proper_ends {kind : ResultKind} (code : Code kind) : Proper code.Ends :=
  fun _ ends => ends.1 rfl

/-- What follows ends as before if each of the two parts does. -/
theorem Then.imp {first first' : Ending α} {next next' : α → Ending β} {machine : Machine}
    {outcome : Outcome β} (ends : first.Then next machine outcome)
    (firsts : ∀ machine outcome, first machine outcome → first' machine outcome)
    (nexts : ∀ value machine outcome, next value machine outcome → next' value machine outcome) :
    first'.Then next' machine outcome := by
  cases ends with
  | fails fails => exact .fails (firsts _ _ fails)
  | goesOn gives onward => exact .goesOn (firsts _ _ gives) (nexts _ _ _ onward)

/-- A round ends as before if each of its parts does. -/
theorem round_imp {condition condition' : Ending Value} {body body' rest rest' : Ending Flow}
    {machine : Machine} {outcome : Outcome Flow} (ends : round condition body rest machine outcome)
    (conditions : ∀ machine outcome, condition machine outcome → condition' machine outcome)
    (bodies : ∀ machine outcome, body machine outcome → body' machine outcome)
    (rests : ∀ machine outcome, rest machine outcome → rest' machine outcome) :
    round condition' body' rest' machine outcome := by
  refine Then.imp ends conditions fun value machine outcome ends => ?_
  split at ends
  · rename_i truthy
    rw [if_pos truthy]
    refine Then.imp ends bodies fun flow machine outcome ends => ?_
    cases flow with
    | next => exact rests machine outcome ends
    | returned | broke => exact ends
  · rename_i falsy
    rw [if_neg falsy]
    exact ends

/-- Nothing is changed by giving back the value at the end. -/
theorem then_give {first : Ending α} (proper : first.Proper) : first.Then give = first := by
  funext machine outcome
  apply propext
  constructor
  · intro ends
    cases ends with
    | fails fails => exact fails
    | goesOn gives onward =>
      obtain rfl : outcome = .done _ _ := onward
      exact gives
  · intro ends
    cases outcome with
    | done value later => exact .goesOn ends rfl
    | failed diagnostic later => exact .fails ends
    | exhausted => exact absurd ends (proper machine)

/-- What follows a value is what follows. -/
theorem give_then (value : α) (next : α → Ending β) : (give value).Then next = next value := by
  funext machine outcome
  apply propext
  constructor
  · intro ends
    cases ends with
    | fails fails => cases fails
    | goesOn gives onward =>
      obtain ⟨rfl, rfl⟩ := Outcome.done.inj gives
      exact onward
  · exact fun ends => .goesOn rfl ends

/-- Where the code stays it ends as it does. -/
theorem around_here (inner : Ending α) : inner.around .here = inner := by
  funext machine outcome
  have same : ∀ ended : Outcome α, Setting.here.outward machine ended = ended := by
    intro ended
    cases ended <;> rfl
  simp only [around, same, Setting.enter, exists_eq_right']

/-! ## Computations -/

/-- A computation that gives a value ends in it. -/
theorem ofRun_pure (value : α) : ofRun (pure value) = give value := by
  funext machine outcome
  apply propext
  constructor
  · rintro ⟨rfl, -⟩
    rfl
  · rintro rfl
    exact ⟨rfl, nofun⟩

/-- One computation after another ends as the one that follows. -/
theorem ofRun_bind (first : Run α) (next : α → Run β) :
    ofRun (first >>= next) = (ofRun first).Then fun value => ofRun (next value) := by
  funext machine outcome
  apply propext
  constructor
  · rintro ⟨ran, ended⟩
    cases begun : first machine with
    | exhausted => exact absurd (ran.symm.trans (Run.bind_exhausted begun)) ended
    | failed diagnostic later =>
      obtain rfl := ran.symm.trans (Run.bind_failed begun)
      exact .fails ⟨begun, nofun⟩
    | done value later =>
      rw [Run.bind_done begun] at ran
      exact .goesOn ⟨begun, nofun⟩ ⟨ran, ended⟩
  · intro ends
    cases ends with
    | fails fails => exact ⟨Run.bind_failed fails.1, nofun⟩
    | goesOn gives onward => exact ⟨(Run.bind_done gives.1).trans onward.1, onward.2⟩

/-- Code in a setting ends as the code does, seen from outside. -/
theorem ofRun_around (setting : Setting) (run : Run α) :
    ofRun (setting.around run) = (ofRun run).around setting := by
  have exhausted : ∀ (machine : Machine) (ended : Outcome α),
      setting.outward machine ended = .exhausted ↔ ended = .exhausted := by
    intro machine ended
    cases ended <;> simp only [Setting.outward, reduceCtorEq]
  funext machine outcome
  apply propext
  constructor
  · rintro ⟨rfl, ended⟩
    have inner : run (setting.enter machine) ≠ .exhausted := fun inner =>
      ended ((exhausted machine _).mpr inner)
    exact ⟨_, ⟨rfl, inner⟩, rfl⟩
  · rintro ⟨_, ⟨rfl, ended⟩, rfl⟩
    exact ⟨rfl, fun outer => ended ((exhausted machine _).mp outer)⟩

end Ending

/-! ## Plans -/

namespace Plan

variable {α : Type}

/-- What carrying out the plan ends in, by what the code that it comes to ends in. -/
def ending (inner : (kind : ResultKind) → Code kind → Ending kind.Result) : Plan α → Ending α
  | give value => .give value
  | perform run next => (Ending.ofRun run).Then fun value => (next value).ending inner
  | @visit _ kind setting code next =>
    ((inner kind code).around setting).Then fun result => (next result).ending inner

/-- Carrying out a plan ends as the plan does. -/
theorem ofRun_carryOut (runner : Runner) (plan : Plan α) :
    Ending.ofRun (plan.carryOut runner) = plan.ending fun kind code =>
      .ofRun (runner kind code) := by
  induction plan with
  | give value => exact Ending.ofRun_pure value
  | perform run next ih =>
    rw [carryOut, Ending.ofRun_bind, ending]
    exact congrArg _ (funext ih)
  | visit setting code next ih =>
    rw [carryOut, Ending.ofRun_bind, Ending.ofRun_around, ending]
    exact congrArg _ (funext ih)

/-- A plan ends as before if all inner code does. -/
theorem ending_imp {inner inner' : (kind : ResultKind) → Code kind → Ending kind.Result}
    (inners : ∀ kind code machine outcome, inner kind code machine outcome →
      inner' kind code machine outcome)
    {plan : Plan α} {machine : Machine} {outcome : Outcome α}
    (ends : plan.ending inner machine outcome) :
    plan.ending inner' machine outcome := by
  induction plan generalizing machine outcome with
  | give value => exact ends
  | perform run next ih => exact ends.imp (fun _ _ ends => ends) fun value _ _ ends => ih value ends
  | visit setting code next ih =>
    refine Ending.Then.imp ends ?_ fun result _ _ ends => ih result ends
    rintro machine _ ⟨ended, ends, rfl⟩
    exact ⟨ended, inners _ code _ _ ends, rfl⟩

/-- What a plan ends in, it ends in when inner code is bounded, if not too much. -/
theorem bounded_of_ending {plan : Plan α} {machine : Machine} {outcome : Outcome α}
    (ends : plan.ending (fun _ code => code.Ends) machine outcome) :
    ∃ enough, ∀ bound, enough ≤ bound →
      plan.ending (fun _ code => .ofRun (code.run bound)) machine outcome := by
  induction plan generalizing machine with
  | give value => exact ⟨0, fun _ _ => ends⟩
  | perform run next ih =>
    cases ends with
    | fails fails => exact ⟨0, fun _ _ => .fails fails⟩
    | goesOn gives onward =>
      obtain ⟨enough, bounded⟩ := ih _ onward
      exact ⟨enough, fun bound le => .goesOn gives (bounded bound le)⟩
  | visit setting code next ih =>
    have bounded : ∀ {machine outcome}, (Ending.around setting code.Ends) machine outcome →
        ∃ enough, ∀ bound, enough ≤ bound →
          ((Ending.ofRun (code.run bound)).around setting) machine outcome := by
      rintro machine _ ⟨inner, ⟨ended, enough, ran⟩, rfl⟩
      refine ⟨enough, fun bound le => ?_⟩
      have still := Code.run_mono le (ran ▸ ended)
      exact ⟨inner, ⟨still.trans ran, ended⟩, rfl⟩
    cases ends with
    | fails fails =>
      obtain ⟨enough, bounded⟩ := bounded fails
      exact ⟨enough, fun bound le => .fails (bounded bound le)⟩
    | goesOn gives onward =>
      obtain ⟨enough, bounded⟩ := bounded gives
      obtain ⟨more, further⟩ := ih _ onward
      refine ⟨max enough more, fun bound le => ?_⟩
      obtain ⟨here, there⟩ := Nat.max_le.mp le
      exact .goesOn (bounded bound here) (further bound there)

end Plan

namespace Code

variable {kind : ResultKind}

/-- Within one more than a bound code ends as its plan says with inner code within the bound. -/
theorem ofRun_run_succ (bound : Nat) (code : Code kind) :
    Ending.ofRun (code.run (bound + 1)) = code.plan.ending fun _ code =>
      .ofRun (code.run bound) := by
  rw [run_succ, Plan.ofRun_carryOut]
  rfl

/-- Code ends as its plan says. -/
theorem ends_eq (code : Code kind) : code.Ends = code.plan.ending fun _ code => code.Ends := by
  funext machine outcome
  apply propext
  constructor
  · rintro ⟨ended, bound, ran⟩
    cases bound with
    | zero => exact absurd (ran.symm.trans (code.run_zero machine)) ended
    | succ bound =>
      have ends : Ending.ofRun (code.run (bound + 1)) machine outcome := ⟨ran, ended⟩
      rw [ofRun_run_succ] at ends
      exact Plan.ending_imp (fun _ _ _ _ ends => .of_run ends.1 ends.2) ends
  · intro ends
    obtain ⟨enough, bounded⟩ := Plan.bounded_of_ending ends
    have ends := bounded enough (Nat.le_refl _)
    rw [← ofRun_run_succ] at ends
    exact .of_run ends.1 ends.2

/-- What becomes other code ends as that does. -/
theorem ending_become (code : Code kind) :
    (Plan.become code).ending (fun _ code => code.Ends) = code.Ends := by
  show ((Ending.around .here code.Ends).Then fun result => .give result) = code.Ends
  rw [Ending.around_here]
  exact Ending.then_give (Ending.proper_ends code)

/-- A truth value that is written down ends in itself. -/
theorem ends_literal_bool (span : Span) (value : Bool) :
    (Code.expr (.literal span (.bool value))).Ends = Ending.give (.bool value) := by
  rw [ends_eq]
  show (Ending.ofRun (pure (Value.bool value))).Then Ending.give = _
  rw [Ending.then_give (Ending.proper_ofRun _), Ending.ofRun_pure]

/-- An expression statement ends normally after its expression. -/
theorem ends_expression (span : Span) (form : Expr) :
    (Code.stmt (.expression span form)).Ends =
      Ending.Then (Code.expr form).Ends fun _ => Ending.give Flow.next := by
  rw [ends_eq]
  show (Ending.around .here (Code.expr form).Ends).Then (fun _ => Ending.give Flow.next) = _
  rw [Ending.around_here]

/-- A `while` statement ends as its loop. -/
theorem ends_while (span : Span) (condition : Expr) (body : Stmt) :
    (Code.stmt (.while span condition body)).Ends = (Code.loop condition body).Ends := by
  rw [ends_eq]
  exact ending_become (.loop condition body)

/-- The statements of a block are run in a new scope. -/
theorem ends_block (span : Span) (body : List Stmt) :
    (Code.stmt (.block span body)).Ends = Ending.inNewScope (Code.stmts body).Ends := by
  have proper : ∀ scope, (Ending.around (.inScope scope) (Code.stmts body).Ends).Proper := by
    rintro scope machine ⟨ended, ends, same⟩
    cases ended with
    | exhausted => exact ends.1 rfl
    | done | failed => cases same
  have planned :
    (Code.stmt (.block span body)).Ends = (Ending.ofRun Run.blockScope).Then fun scope =>
      Ending.around (.inScope scope) (Code.stmts body).Ends := by
    rw [ends_eq]
    exact congrArg _ (funext fun scope => Ending.then_give (proper scope))
  rw [planned]
  funext machine outcome
  apply propext
  constructor
  · intro ends
    cases ends with
    | fails fails => cases fails.1
    | goesOn gives onward =>
      obtain ⟨rfl, rfl⟩ := Outcome.done.inj gives.1
      exact onward
  · intro ends
    exact .goesOn ⟨rfl, nofun⟩ ends

/-! ## Statements one after the other -/

/-- Statements end as the first one, and as the rest if that goes on to them. -/
theorem ends_stmts_cons (first : Stmt) (rest : List Stmt) :
    (Code.stmts (first :: rest)).Ends = Ending.Then (Code.stmt first).Ends fun
      | .next => (Code.stmts rest).Ends
      | other => Ending.give other := by
  rw [ends_eq]
  show (Ending.around .here (Code.stmt first).Ends).Then _ = _
  rw [Ending.around_here]
  refine congrArg _ (funext fun flow => ?_)
  cases flow with
  | next => exact ending_become (.stmts rest)
  | returned | broke => rfl

/-- A single statement in a list ends as it does alone. -/
theorem ends_stmts_singleton (only : Stmt) : (Code.stmts [only]).Ends = (Code.stmt only).Ends := by
  rw [ends_stmts_cons]
  refine Eq.trans (congrArg _ (funext fun flow => ?_)) (Ending.then_give (Ending.proper_ends _))
  cases flow with
  | next =>
    rw [ends_eq]
    rfl
  | returned | broke => rfl

/-- Of two statements the second one is run if the first one goes on to it. -/
theorem ends_stmts_pair (first second : Stmt) :
    (Code.stmts [first, second]).Ends = Ending.Then (Code.stmt first).Ends fun
      | .next => (Code.stmt second).Ends
      | other => Ending.give other := by
  rw [ends_stmts_cons, ends_stmts_singleton]

/-! ## Loops -/

/-- A loop goes through a round of its body, and the rest is the loop itself. -/
theorem ending_loop {inner : (kind : ResultKind) → Code kind → Ending kind.Result}
    (proper : ∀ {kind : ResultKind} (code : Code kind), (inner kind code).Proper) (condition : Expr)
    (body : Stmt) :
    (Code.loop condition body).plan.ending inner =
      Ending.round (inner _ (.expr condition)) (inner _ (.stmt body))
        (inner _ (.loop condition body)) := by
  show ((inner _ (.expr condition)).around .here).Then _ = _
  rw [Ending.around_here]
  refine congrArg _ (funext fun value => ?_)
  cases truthy : Value.isTruthy value with
  | false =>
    simp only [truthy, Bool.false_eq_true, if_false]
    rfl
  | true =>
    simp only [truthy, if_true]
    show ((inner _ (.stmt body)).around .here).Then _ = _
    rw [Ending.around_here]
    refine congrArg _ (funext fun flow => ?_)
    cases flow with
    | next =>
      show ((inner _ (.loop condition body)).around .here).Then Ending.give = _
      rw [Ending.around_here, Ending.then_give (proper _)]
    | returned | broke => rfl

/-- Within a bound a loop goes through so many rounds at most. -/
theorem rounds_of_run {condition : Expr} {body : Stmt} {bound : Nat} {machine : Machine}
    {outcome : Outcome Flow}
    (ends : Ending.ofRun ((Code.loop condition body).run bound) machine outcome) :
    Ending.rounds (Code.expr condition).Ends (Code.stmt body).Ends bound machine outcome := by
  induction bound generalizing machine outcome with
  | zero => exact absurd (ends.1.symm.trans (Code.run_zero _ machine)) ends.2
  | succ bound ih =>
    rw [ofRun_run_succ, ending_loop fun code => Ending.proper_ofRun _] at ends
    exact Ending.round_imp ends (fun _ _ ends => .of_run ends.1 ends.2)
      (fun _ _ ends => .of_run ends.1 ends.2) fun _ _ => ih

/-- What goes through rounds the loop ends in. -/
theorem ends_of_rounds {condition : Expr} {body : Stmt} {count : Nat} {machine : Machine}
    {outcome : Outcome Flow}
    (rounds : Ending.rounds (Code.expr condition).Ends (Code.stmt body).Ends count machine
      outcome) :
    (Code.loop condition body).Ends machine outcome := by
  induction count generalizing machine outcome with
  | zero => contradiction
  | succ count ih =>
    rw [ends_eq, ending_loop Ending.proper_ends]
    exact Ending.round_imp rounds (fun _ _ ends => ends) (fun _ _ ends => ends) fun _ _ => ih

/-- A loop goes through rounds of its body. -/
theorem ends_loop (condition : Expr) (body : Stmt) :
    (Code.loop condition body).Ends =
      Ending.loop (Code.expr condition).Ends (Code.stmt body).Ends := by
  funext machine outcome
  apply propext
  constructor
  · rintro ⟨ended, bound, ran⟩
    exact ⟨bound, rounds_of_run ⟨ran, ended⟩⟩
  · rintro ⟨count, rounds⟩
    exact ends_of_rounds rounds

end Code

end EventScript
