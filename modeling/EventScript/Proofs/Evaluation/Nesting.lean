import EventScript.Proofs.Evaluation.CallSites

/-!
# Nested evaluation

While a piece of code is run, so are the code that runs it and all code around that, up to the one
with which everything began. `Running.Nesting` lists them, the innermost first. Statements and loops
belong to the activation of the nearest call among those around them. What a statement that breaks
does to the code around it is said by `Running.Runs.broke`, one step outward at a time.
-/

namespace EventScript

/-- A piece of code that is run on a machine, within a bound. -/
structure Running where
  bound : Nat
  {kind : ResultKind}
  code : Code kind
  machine : Machine

namespace Running

/-- How the code ends. -/
def outcome (running : Running) : Outcome running.kind.Result :=
  running.code.run running.bound running.machine

/-- The code itself runs the other code. -/
inductive Runs : Running → Running → Prop where
  | intro {bound : Nat} {kind kind' : ResultKind} {code : Code kind} {inner : Code kind'}
      {machine reached : Machine}
      (visits : Plan.Visits (.within bound) code.plan machine inner reached) :
      Runs ⟨bound + 1, code, machine⟩ ⟨bound, inner, reached⟩

/-- All that is run at some moment, the innermost first, where `start` was run first. -/
inductive Nesting (start : Running) : List Running → Prop where
  | start : Nesting start [start]
  | inner {inner outer : Running} {around : List Running}
      (nesting : Nesting start (outer :: around))
      (runs : outer.Runs inner) : Nesting start (inner :: outer :: around)

/-- What is run inside is come to. -/
theorem Nesting.visits {start entry : Running} {around : List Running}
    (nesting : start.Nesting (entry :: around)) :
    Code.Visits start.bound start.code start.machine entry.code entry.machine := by
  -- What an inner piece of code comes to, all code around it comes to.
  have onward : ∀ {stack : List Running}, start.Nesting stack → ∀ entry ∈ stack.head?,
      ∀ {kind : ResultKind} (code : Code kind) (machine : Machine),
        Code.Visits entry.bound entry.code entry.machine code machine →
          Code.Visits start.bound start.code start.machine code machine := by
    intro stack nesting
    induction nesting with
    | start => exact fun entry head _ _ _ visits => Option.some.inj head ▸ visits
    | inner _ runs ih =>
      intro entry head kind code machine visits
      obtain rfl := Option.some.inj head
      cases runs with
      | intro first => exact ih _ rfl code machine (.inner first visits)
  exact onward nesting entry rfl _ _ .here

/-- The code is a statement or several in a row, which ends with a `break`. -/
inductive Breaks : Running → Prop where
  | stmt {bound : Nat} {form : Stmt} {machine later : Machine}
      (broke : (Code.stmt form).run bound machine = .done .broke later) :
      Breaks ⟨bound, .stmt form, machine⟩
  | stmts {bound : Nat} {forms : List Stmt} {machine later : Machine}
      (broke : (Code.stmts forms).run bound machine = .done .broke later) :
      Breaks ⟨bound, .stmts forms, machine⟩

/-- The code is a round of a loop, which goes on after the loop. -/
inductive EndsLoop : Running → Prop where
  | intro {bound : Nat} {condition : Expr} {body : Stmt} {machine later : Machine}
      (ended : (Code.loop condition body).run bound machine = .done .next later) :
      EndsLoop ⟨bound, .loop condition body, machine⟩

/-- The code is the activation of a function. -/
inductive Activates : Running → Activation → Prop where
  | intro (bound : Nat) (called : Activation) (arguments : List Value) (machine : Machine) :
      Activates ⟨bound, .activation called arguments, machine⟩ called

end Running

namespace Plan

variable {α : Type} {runner : Runner} {machine later : Machine}

/-- After a step the plan goes on with what the step gave. -/
theorem carryOut_perform {β : Type} {run : Run β} {next : β → Plan α} {value : β}
    (done : run machine = .done value later) :
    (perform run next).carryOut runner machine = (next value).carryOut runner later := by
  rw [carryOut, Run.bind_done done]

/-- After inner code the plan goes on with what that gave. -/
theorem carryOut_visit {kind : ResultKind} {setting : Setting} {code : Code kind}
    {next : kind.Result → Plan α} {result : kind.Result}
    (done : runner kind code (setting.enter machine) = .done result later) :
    (visit setting code next).carryOut runner machine =
      (next result).carryOut runner (setting.leave machine later) := by
  rw [carryOut, Run.bind_done]
  rw [Setting.around, done, Setting.outward]

end Plan

/-- Whether the code is the activation of a function. -/
def Code.isActivation {kind : ResultKind} : Code kind → Bool
  | .activation .. => true
  | _ => false

/-- Whether inner code runs where the code around it does. -/
def Setting.stays : Setting → Bool
  | here | .at _ => true
  | inScope _ | inCall _ _ => false

/-- Code that is neither made of statements nor an activation runs no statements itself, and all
that it runs it runs where it is. -/
theorem Code.plan_comes_unflowing {kind : ResultKind} {code : Code kind} (unflowing : kind ≠ .flow)
    (inactive : code.isActivation = false) :
    code.plan.Comes fun setting {inner} _ => inner ≠ .flow ∧ setting.stays = true := by
  cases code with
  | stmt | stmts | loop => contradiction
  | activation => contradiction
  | expr form =>
    cases form with
    | literal | «variable» | this | super => exact fun _ => trivial
    | group => exact ⟨⟨nofun, rfl⟩, fun _ => trivial⟩
    | assign => exact ⟨⟨nofun, rfl⟩, fun _ _ => trivial⟩
    | unary | get => exact ⟨⟨nofun, rfl⟩, fun _ _ => trivial⟩
    | call =>
      exact ⟨⟨nofun, rfl⟩, fun _ => ⟨⟨nofun, rfl⟩, fun _ => ⟨⟨nofun, rfl⟩, fun _ => trivial⟩⟩⟩
    | binary => exact ⟨⟨nofun, rfl⟩, fun _ => ⟨⟨nofun, rfl⟩, fun _ _ => trivial⟩⟩
    | logical span op left right =>
      refine ⟨⟨nofun, rfl⟩, fun value => ?_⟩
      dsimp only
      split
      · trivial
      · exact ⟨⟨nofun, rfl⟩, fun _ => trivial⟩
    | set span object name value =>
      refine ⟨⟨nofun, rfl⟩, fun object => ?_⟩
      cases object with
      | object ref => exact ⟨⟨nofun, rfl⟩, fun _ _ => trivial⟩
      | _ => exact fun _ => trivial
  | exprs forms =>
    cases forms with
    | nil => trivial
    | cons first rest => exact ⟨⟨nofun, rfl⟩, fun _ => ⟨⟨nofun, rfl⟩, fun _ => trivial⟩⟩
  | call callee arguments span =>
    cases callee with
    | function | method | classObject => exact ⟨⟨nofun, rfl⟩, fun _ => trivial⟩
    | _ => exact fun _ => trivial
  | instantiation cls arguments =>
    show (cls.plan arguments).Comes _
    unfold Class.plan
    split
    · exact fun _ => trivial
    · intro object
      dsimp only
      cases cls.findMethod? FunctionDecl.initializerName with
      | none => trivial
      | some method => exact ⟨⟨nofun, rfl⟩, fun _ => trivial⟩

/-- What is run by code that is neither made of statements nor an activation is not made of
statements. -/
theorem Code.ne_flow_of_visits {runner : Runner} {kind kind' : ResultKind} {code : Code kind}
    {inner : Code kind'} {machine reached : Machine}
    (visits : Plan.Visits runner code.plan machine inner reached) (unflowing : kind ≠ .flow)
    (inactive : code.isActivation = false) : kind' ≠ .flow :=
  have ⟨_, other, _⟩ := (Code.plan_comes_unflowing unflowing inactive).visits visits
  other

namespace Running

/-- A statement hands on what the statements that it consists of end with. -/
theorem breaks_of_visits {bound : Nat} {form : Stmt} {inner : Code .flow}
    {machine reached later : Machine}
    (visits : Plan.Visits (.within bound) form.plan machine inner reached)
    (broke : inner.run bound reached = .done .broke later) :
    Breaks ⟨bound + 1, .stmt form, machine⟩ := by
  suffices ended : ∃ last, form.plan.carryOut (.within bound) machine = .done .broke last by
    obtain ⟨last, ended⟩ := ended
    have ran := congrFun (Code.run_succ bound (.stmt form)) machine
    exact .stmt (ran.trans ended)
  cases form with
  | letDecl span name initializer =>
    cases initializer with
    | none =>
      cases visits with
      | perform _ visits => cases visits
    | some value =>
      cases visits with
      | onward _ visits =>
        cases visits with
        | perform _ visits => cases visits
  | function span decl =>
    cases visits with
    | perform _ visits =>
      cases visits with
      | perform _ visits => cases visits
  | classDecl span name superclass methods =>
    cases visits with
    | perform _ visits =>
      cases visits with
      | perform _ visits =>
        cases visits with
        | perform _ visits => cases visits
  | expression span value =>
    cases visits with
    | onward _ visits => cases visits
  | print span value =>
    cases visits with
    | onward _ visits =>
      cases visits with
      | perform _ visits => cases visits
  | block span body =>
    cases visits with
    | perform entered visits =>
      cases visits with
      | here => exact ⟨_, (Plan.carryOut_perform entered).trans (Plan.carryOut_visit broke)⟩
      | onward _ visits => cases visits
  | conditional span condition thenBranch elseBranch =>
    cases visits with
    | @onward _ _ _ _ _ _ _ value _ _ tested visits =>
      refine ⟨later, (Plan.carryOut_visit tested).trans ?_⟩
      dsimp only at visits ⊢
      by_cases truthy : value.isTruthy = true
      · rw [if_pos truthy] at visits ⊢
        cases visits with
        | here => exact Plan.carryOut_visit broke
        | onward _ visits => cases visits
      · rw [if_neg truthy] at visits ⊢
        cases elseBranch with
        | none => cases visits
        | some branch =>
          cases visits with
          | here => exact Plan.carryOut_visit broke
          | onward _ visits => cases visits
  | «while» span condition body =>
    cases visits with
    | here => exact ⟨later, Plan.carryOut_visit broke⟩
    | onward _ visits => cases visits
  | «return» span value =>
    cases value with
    | none => cases visits
    | some value =>
      cases visits with
      | onward _ visits => cases visits
  | «break» => cases visits

/-- Statements in a row end as the one does that breaks. -/
theorem stmts_break_of_visits {bound : Nat} {forms : List Stmt} {inner : Code .flow}
    {machine reached later : Machine}
    (visits : Plan.Visits (.within bound) (Code.stmts forms).plan machine inner reached)
    (broke : inner.run bound reached = .done .broke later) :
    Breaks ⟨bound + 1, .stmts forms, machine⟩ := by
  suffices ended : ∃ last,
      (Code.stmts forms).plan.carryOut (.within bound) machine = .done .broke last by
    obtain ⟨last, ended⟩ := ended
    have ran := congrFun (Code.run_succ bound (.stmts forms)) machine
    exact .stmts (ran.trans ended)
  cases forms with
  | nil => cases visits
  | cons first rest =>
    cases visits with
    | here => exact ⟨later, Plan.carryOut_visit broke⟩
    | @onward _ _ _ _ _ middle _ flow _ _ done visits =>
      refine ⟨later, (Plan.carryOut_visit done).trans ?_⟩
      cases flow with
      | returned | broke => cases visits
      | next =>
        cases visits with
        | here => exact Plan.carryOut_visit broke
        | onward _ visits => cases visits

/-- A loop is over when its body breaks. -/
theorem endsLoop_of_visits {bound : Nat} {condition : Expr} {body : Stmt} {inner : Code .flow}
    {machine reached later : Machine}
    (visits : Plan.Visits (.within bound) (Code.loop condition body).plan machine inner reached)
    (broke : inner.run bound reached = .done .broke later) (round : inner ≠ .loop condition body) :
    EndsLoop ⟨bound + 1, .loop condition body, machine⟩ := by
  suffices ended :
      (Code.loop condition body).plan.carryOut (.within bound) machine = .done .next later from
    .intro ((congrFun (Code.run_succ bound (.loop condition body)) machine).trans ended)
  cases visits with
  | @onward _ _ _ _ _ _ _ value _ _ tested visits =>
    refine (Plan.carryOut_visit tested).trans ?_
    dsimp only at visits ⊢
    by_cases truthy : value.isTruthy = true
    · rw [if_pos truthy] at visits ⊢
      cases visits with
      | here => exact Plan.carryOut_visit broke
      | @onward _ _ _ _ _ _ _ flow _ _ _ visits =>
        cases flow with
        | returned | broke => cases visits
        | next =>
          cases visits with
          | here => exact absurd rfl round
          | onward _ visits => cases visits
    · rw [if_neg truthy] at visits
      cases visits

/-- What runs a statement that breaks is itself a statement that breaks, or a loop that is over
then, or the activation of a function. -/
theorem Runs.broke {outer inner : Running} (runs : outer.Runs inner) (breaks : inner.Breaks) :
    outer.Breaks ∨ outer.EndsLoop ∨ ∃ called, outer.Activates called := by
  cases runs with
  | @intro bound kind kind' code inner machine reached visits =>
    have flowing : kind' = .flow := by cases breaks <;> rfl
    subst flowing
    obtain ⟨later, broke, round⟩ : ∃ later, inner.run bound reached = .done .broke later ∧
        ∀ condition body, inner ≠ .loop condition body := by
      cases breaks with
      | stmt broke | stmts broke => exact ⟨_, broke, nofun⟩
    cases code with
    | stmt form => exact .inl (breaks_of_visits visits broke)
    | stmts forms => exact .inl (stmts_break_of_visits visits broke)
    | loop condition body => exact .inr (.inl (endsLoop_of_visits visits broke (round _ _)))
    | activation called arguments => exact .inr (.inr ⟨called, .intro ..⟩)
    | expr | exprs | call | instantiation =>
      exact absurd rfl (Code.ne_flow_of_visits visits nofun rfl)

end Running

end EventScript
