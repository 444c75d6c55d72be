import EventScript.Proofs.Evaluation.Nesting
import EventScript.Proofs.Evaluation.Record
import EventScript.Proofs.Resolution.Flow
import EventScript.Proofs.Resolution.Stems
import EventScript.Proofs.Session.Disciplined

/-!
# Where signals end

Statements end in a signal: they go on, return or break. In code of programs without violations each
signal finds what it is for. No statement at top level returns or breaks. A function body returns at
most, and the body of an initializer returns nothing but the `nil` of a bare `return`. What breaks
is in a loop of the same activation, and only the statements in between are cut short
(`control_flow_sound`).
-/

namespace EventScript

open Run

/-- The program breaks no static rule. -/
def Program.KeepsRules (program : Program) : Prop := program.check = []

/-- No statement at top level returns or breaks. -/
theorem Program.KeepsRules.goesOn_stmt {program : Program} {form : Stmt}
    (keeps : program.KeepsRules)
    (member : form ∈ program) {bound : Nat} {machine later : Machine} {flow : Flow}
    (done : (Code.stmt form).run bound machine = .done flow later) : flow = .next := by
  obtain ⟨scope, clear⟩ := Stmt.clear_of_checkAll keeps form member
  have allowed := Code.run_allowed bound (.stmt form) done {} scope clear
  cases flow with
  | next => rfl
  | returned value => exact absurd rfl allowed.1
  | broke => contradiction

/-! ## The bodies of functions -/

/-- The body of a declared function keeps the rules for functions. -/
theorem FunctionDecl.IsFunction.clear {decl : FunctionDecl}
    (is : decl.IsFunction Program.KeepsRules) :
    ∃ context : CodeContext, decl.check (context.insideFunction .function) = [] := by
  obtain ⟨span, program, keeps, encloses⟩ := is
  obtain ⟨_, context, scope, -, clear⟩ := encloses.accepted keeps
  exact ⟨context, (List.append_eq_nil_iff.mp clear).2⟩

/-- Each of several methods keeps the rules if their check finds no violations. -/
theorem method_clear {context : CodeContext} {methods : List FunctionDecl}
    (clear : checkMethods context methods = []) :
    ∀ decl ∈ methods, decl.check (context.insideFunction decl.methodContext) = [] := by
  induction methods with
  | nil => exact nofun
  | cons first rest ih =>
    obtain ⟨firstClear, restClear⟩ := List.append_eq_nil_iff.mp clear
    exact List.forall_mem_cons.mpr ⟨firstClear, ih restClear⟩

/-- The body of a declared method keeps the rules for methods of its name. -/
theorem FunctionDecl.IsMethod.clear {decl : FunctionDecl} (is : decl.IsMethod Program.KeepsRules) :
    ∃ context : CodeContext, decl.check (context.insideFunction decl.methodContext) = [] := by
  obtain ⟨span, name, superclass, methods, ⟨program, keeps, encloses⟩, declared⟩ := is
  obtain ⟨_, context, scope, -, clear⟩ := encloses.accepted keeps
  exact ⟨_, method_clear (List.append_eq_nil_iff.mp clear).2 decl declared⟩

/-- The code breaks no rule somewhere in the context. -/
def Code.ClearIn (context : CodeContext) : {kind : ResultKind} → Code kind → Prop
  | _, .stmt form => ∃ scope, (form.check context scope).2 = []
  | _, .stmts forms => ∃ scope, (checkAll context scope forms).2 = []
  | _, .loop _ body => ∃ scope, (body.check { context with inLoop := true } scope).2 = []
  | _, _ => True

/-- The body of an activation breaks no rule in the role that it has. -/
theorem Activation.Stems.clear {called : Activation} (stems : called.Stems Program.KeepsRules) :
    ∃ context : CodeContext, (Code.stmts called.decl.body).ClearIn context ∧
      context.inLoop = false ∧ (called.initializes = true → context.function = .initializer) := by
  have body : ∀ {decl : FunctionDecl} {context : CodeContext}, decl.check context = [] →
      (Code.stmts decl.body).ClearIn context :=
    fun clear => ⟨_, (FunctionDecl.clear_iff.mp clear).2⟩
  cases stems with
  | closure decl home =>
    obtain ⟨context, clear⟩ := decl.clear
    exact ⟨_, body clear, rfl, nofun⟩
  | method receives owner decl =>
    obtain ⟨context, clear⟩ := decl.clear
    refine ⟨_, body clear, rfl, fun initializes => ?_⟩
    exact if_pos initializes

/-- A function body does not break, and that of an initializer returns nothing but `nil`. -/
theorem Activation.Stems.body_flow {called : Activation} (stems : called.Stems Program.KeepsRules)
    {bound : Nat} {machine later : Machine} {flow : Flow}
    (done : (Code.stmts called.decl.body).run bound machine = .done flow later) :
    flow ≠ .broke ∧
      (called.initializes = true → ∀ value, flow = .returned value → value = .nil) := by
  obtain ⟨context, ⟨scope, clear⟩, outside, role⟩ := stems.clear
  have allowed := Code.run_allowed bound (.stmts called.decl.body) done context scope clear
  constructor
  · rintro rfl
    exact absurd (outside.symm.trans allowed) nofun
  · rintro initializes value rfl
    exact allowed.2 (role initializes)

/-! ## Code of one activation -/

/-- Inside of statements of one activation the context stays that of the same function. -/
theorem Code.ClearIn.comes {code : Code .flow} {context : CodeContext}
    (clear : code.ClearIn context) :
    code.plan.Comes fun _ {_} inner =>
      ∃ other : CodeContext, other.function = context.function ∧ inner.ClearIn other := by
  have plain : ∀ {form : Expr}, ∃ other : CodeContext, other.function = context.function ∧
      (Code.expr form).ClearIn other := ⟨context, rfl, trivial⟩
  cases code with
  | stmts forms =>
    cases forms with
    | nil => trivial
    | cons first rest =>
      obtain ⟨scope, clear⟩ := clear
      obtain ⟨firstClear, restClear⟩ := List.append_eq_nil_iff.mp clear
      refine ⟨⟨context, rfl, scope, firstClear⟩, fun flow => ?_⟩
      cases flow with
      | next => exact ⟨⟨context, rfl, _, restClear⟩, fun _ => trivial⟩
      | returned | broke => trivial
  | loop condition body =>
    refine ⟨plain, fun value => ?_⟩
    dsimp only
    split
    · let inside : CodeContext := { context with inLoop := true }
      have bodyClear : (Code.stmt body).ClearIn inside := clear
      refine ⟨⟨inside, rfl, bodyClear⟩, fun flow => ?_⟩
      cases flow with
      | next => exact ⟨⟨context, rfl, clear⟩, fun _ => trivial⟩
      | returned | broke => trivial
    · trivial
  | stmt form =>
    obtain ⟨scope, clear⟩ := clear
    cases form with
    | letDecl span name initializer =>
      cases initializer with
      | none => exact fun _ => trivial
      | some value => exact ⟨plain, fun _ _ => trivial⟩
    | function => exact fun _ _ => trivial
    | classDecl => exact fun _ _ _ => trivial
    | expression => exact ⟨plain, fun _ => trivial⟩
    | print => exact ⟨plain, fun _ _ => trivial⟩
    | block span body => exact fun _ => ⟨⟨context, rfl, _, clear⟩, fun _ => trivial⟩
    | conditional span condition thenBranch elseBranch =>
      obtain ⟨-, thenClear, elseClear⟩ := conditional_clear.mp clear
      refine ⟨plain, fun value => ?_⟩
      dsimp only
      split
      · exact ⟨⟨context, rfl, scope, thenClear⟩, fun _ => trivial⟩
      · cases elseBranch with
        | none => trivial
        | some branch => exact ⟨⟨context, rfl, _, elseClear branch rfl⟩, fun _ => trivial⟩
    | «while» span condition body =>
      obtain ⟨-, bodyClear⟩ := List.append_eq_nil_iff.mp clear
      exact ⟨⟨context, rfl, scope, bodyClear⟩, fun _ => trivial⟩
    | «return» span value =>
      cases value with
      | none => trivial
      | some value => exact ⟨plain, fun _ => trivial⟩
    | «break» => trivial

/-- A `return` with a value is in no initializer. -/
theorem Code.ClearIn.ne_initializer {context : CodeContext} {span : Span} {value : Expr}
    (clear : (Code.stmt (.return span (some value))).ClearIn context) :
    context.function ≠ .initializer := by
  obtain ⟨scope, clear⟩ := clear
  exact ne_initializer_of_checkReturn (List.append_eq_nil_iff.mp clear).1

namespace Running

/-- What may be run first on a machine: the statements of a program without violations, at top
level, or a call of a value that stems from such programs. -/
inductive Begins (machine : Machine) : Running → Prop where
  | program (bound : Nat) {program : Program} (keeps : program.KeepsRules) :
      Begins machine ⟨bound, .stmts program, machine.toTopLevel⟩
  | call (bound : Nat) {callee : Value} {arguments : List Value} (span : Span)
      (stems : callee.Stems Program.KeepsRules)
      (given : ∀ argument ∈ arguments, argument.Stems Program.KeepsRules) :
      Begins machine ⟨bound, .call callee arguments span, machine⟩

/-- The code is a `return` with a value. -/
inductive ReturnsValue : Running → Prop where
  | intro (bound : Nat) (span : Span) (value : Expr) (machine : Machine) :
      ReturnsValue ⟨bound, .stmt (.return span (some value)), machine⟩

variable {machine : Machine} {start entry : Running} {around : List Running}

/-- What is run first may be run. -/
theorem Begins.before (begins : start.Begins machine) (stems : machine.Stems Program.KeepsRules) :
    (stemDiscipline Program.KeepsRules).contract.before start.code start.machine := by
  cases begins with
  | program bound keeps =>
    exact ⟨⟨stems.heap, stems.events⟩, (), nofun, fun _ member => ⟨_, keeps, .top member⟩⟩
  | call bound span callee given => exact ⟨stems, callee, given⟩

/-- All activations that are come to are those of functions without violations. -/
theorem Nesting.stems {called : Activation} (nesting : start.Nesting (entry :: around))
    (begins : start.Begins machine) (stems : machine.Stems Program.KeepsRules)
    (activates : entry.Activates called) : called.Stems Program.KeepsRules := by
  have lawful := stemDiscipline_lawful Program.KeepsRules
  have before := (lawful.validOn fun _ _ => trivial).visited (List.Subset.refl _)
    (begins.before stems) nesting.visits
  cases activates with
  | intro => exact before.2.1

/-- The body of an activation does not break. -/
theorem Runs.not_breaks {outer inner : Running} {called : Activation} (runs : outer.Runs inner)
    (activates : outer.Activates called) (stems : called.Stems Program.KeepsRules) :
    ¬inner.Breaks := by
  intro breaks
  cases activates with
  | intro =>
    cases runs with
    | intro visits =>
      cases visits with
      | perform _ visits =>
        cases visits with
        | perform _ visits =>
          cases visits with
          | here =>
            cases breaks with
            | stmts broke => exact (stems.body_flow broke).1 rfl
          | onward _ visits => cases visits

/-- What breaks is inside a loop of its activation, which is over then. Only statements are
between. -/
theorem Nesting.loop (nesting : start.Nesting (entry :: around)) (begins : start.Begins machine)
    (stems : machine.Stems Program.KeepsRules) (breaks : entry.Breaks) :
    ∃ inside loop outside, entry :: around = inside ++ loop :: outside ∧
      (∀ inner ∈ inside, inner.Breaks) ∧ loop.EndsLoop := by
  generalize entries : entry :: around = stack at nesting
  induction nesting generalizing entry around with
  | start =>
    obtain ⟨rfl, -⟩ := List.cons.inj entries
    cases begins with
    | program bound keeps =>
      cases breaks with
      | stmts broke => exact nomatch Program.goesOn keeps broke
    | call => cases breaks
  | @inner inner outer outermost nesting runs ih =>
    obtain ⟨rfl, rfl⟩ := List.cons.inj entries
    rcases runs.broke breaks with broke | ended | ⟨called, activates⟩
    · obtain ⟨inside, loop, outside, same, all, ended⟩ := ih broke rfl
      exact ⟨entry :: inside, loop, outside, congrArg (entry :: ·) same,
        List.forall_mem_cons.mpr ⟨breaks, all⟩, ended⟩
    · exact ⟨[entry], outer, outermost, rfl, List.forall_mem_singleton.mpr breaks, ended⟩
    · exact absurd breaks (runs.not_breaks activates (nesting.stems begins stems activates))

/-- The body of the activation of an initializer keeps the rules for initializers. -/
theorem Runs.clearIn_body {outer inner : Running} {called : Activation} (runs : outer.Runs inner)
    (activates : outer.Activates called) (stems : called.Stems Program.KeepsRules)
    (initializes : called.initializes = true) :
    ∃ context : CodeContext, context.function = .initializer ∧ inner.code.ClearIn context := by
  obtain ⟨context, clear, -, role⟩ := stems.clear
  cases activates with
  | intro =>
    cases runs with
    | intro visits =>
      cases visits with
      | perform _ visits =>
        cases visits with
        | perform _ visits =>
          cases visits with
          | here => exact ⟨context, role initializes, clear⟩
          | onward _ visits => cases visits

/-- What statements run keeps the rules of the same function. -/
theorem Runs.clearIn {outer inner : Running} {context : CodeContext} (runs : outer.Runs inner)
    (flowing : outer.kind = .flow) (clear : outer.code.ClearIn context) :
    ∃ other : CodeContext, other.function = context.function ∧ inner.code.ClearIn other := by
  cases runs with
  | intro visits =>
    subst flowing
    obtain ⟨_, kept⟩ := clear.comes.visits visits
    exact kept

/-- All code of the activation of an initializer keeps the rules for initializers. -/
theorem Nesting.clearIn {called : Activation} (nesting : start.Nesting (entry :: around))
    (begins : start.Begins machine) (stems : machine.Stems Program.KeepsRules)
    {inside outside : List Running} {activation : Running}
    (entries : entry :: around = inside ++ activation :: outside)
    (flowing : ∀ inner ∈ inside, inner.kind = .flow) (activates : activation.Activates called)
    (initializes : called.initializes = true) (first : entry.kind = .flow) :
    ∃ context : CodeContext, context.function = .initializer ∧ entry.code.ClearIn context := by
  cases inside with
  | nil =>
    obtain ⟨rfl, -⟩ := List.cons.inj entries
    cases activates with
    | intro => contradiction
  | cons head inside =>
    obtain ⟨rfl, rest⟩ := List.cons.inj entries
    clear entries
    -- The induction is on what lies between the code and the activation.
    induction inside generalizing entry around with
    | nil =>
      cases nesting with
      | start => contradiction
      | inner nesting runs =>
        obtain ⟨rfl, -⟩ := List.cons.inj rest
        exact runs.clearIn_body activates (nesting.stems begins stems activates) initializes
    | cons next inside ih =>
      cases nesting with
      | start => contradiction
      | inner nesting runs =>
        obtain ⟨rfl, further⟩ := List.cons.inj rest
        have later := fun inner member => flowing inner (List.mem_cons_of_mem _ member)
        have flows := later _ List.mem_cons_self
        obtain ⟨context, role, clear⟩ := ih nesting flows further later
        obtain ⟨other, same, cleared⟩ := runs.clearIn flows clear
        exact ⟨other, same.trans role, cleared⟩

/-- No `return` with a value is run in the activation of an initializer. -/
theorem Nesting.not_returnsValue {called : Activation} (nesting : start.Nesting (entry :: around))
    (begins : start.Begins machine) (stems : machine.Stems Program.KeepsRules)
    {inside outside : List Running} {activation : Running}
    (entries : entry :: around = inside ++ activation :: outside)
    (flowing : ∀ inner ∈ inside, inner.kind = .flow) (activates : activation.Activates called)
    (initializes : called.initializes = true) : ¬entry.ReturnsValue := by
  intro returns
  cases returns with
  | intro =>
    obtain ⟨context, role, clear⟩ :=
      nesting.clearIn begins stems entries flowing activates initializes rfl
    exact clear.ne_initializer role

end Running

open Running

/-- Statements at top level neither return nor break, so a program without violations goes on to its
last statement unless one fails. From where it starts, and from calls of values that stem from such
programs: function bodies do not break, those of initializers return only the `nil` of a `return`
without a value, and what breaks is inside a loop of the same activation, which is over then. All of
that goes for any machine whose functions stem from programs without violations, and leaves such a
machine behind. -/
theorem control_flow_sound (machine : Machine) (stems : machine.Stems Program.KeepsRules) :
    (∀ program : Program, program.KeepsRules →
      (∀ form ∈ program, ∀ bound reached flow later,
        (Code.stmt form).run bound reached = .done flow later → flow = .next) ∧
      (∀ bound flow later,
        (Code.stmts program).run bound machine.toTopLevel = .done flow later →
        flow = .next ∧ ∀ before form after, program = before ++ form :: after →
          ∃ reached last,
            (Code.stmts before).Ends machine.toTopLevel (.done .next reached) ∧
            (Code.stmt form).Ends reached (.done .next last) ∧
            (Code.stmts after).Ends last (.done .next later))) ∧
    (∀ start : Running, start.Begins machine →
      start.outcome.Leaves (Machine.Stems Program.KeepsRules) ∧
      ∀ entry around, start.Nesting (entry :: around) →
        (∀ called, entry.Activates called → ∀ bound reached flow later,
          (Code.stmts called.decl.body).run bound reached = .done flow later →
          flow ≠ .broke ∧
            (called.initializes = true → ∀ value, flow = .returned value → value = .nil)) ∧
        (entry.Breaks → ∃ inside loop outside, entry :: around = inside ++ loop :: outside ∧
          (∀ inner ∈ inside, inner.Breaks) ∧ loop.EndsLoop) ∧
        (entry.ReturnsValue → ∀ inside activation outside called,
          entry :: around = inside ++ activation :: outside →
          (∀ inner ∈ inside, inner.kind = .flow) → activation.Activates called →
          called.initializes = false)) := by
  refine ⟨fun program keeps => ⟨?_, ?_⟩, fun start begins => ⟨?_, ?_⟩⟩
  · intro form member bound reached flow later done
    exact keeps.goesOn_stmt member done
  · intro bound flow later done
    obtain rfl := Program.goesOn keeps done
    refine ⟨rfl, ?_⟩
    rintro before form after rfl
    have ends : (Code.stmts (before ++ form :: after)).Ends _ _ := .of_run done nofun
    obtain ⟨reached, first, others⟩ := Code.exists_of_ends_append ends
    obtain ⟨ending, itself, follows, -⟩ := Code.ends_cons.mp others
    obtain ⟨last, rfl, onward⟩ := follows.goesOn
    exact ⟨reached, last, first, itself, onward⟩
  · have lawful := stemDiscipline_lawful Program.KeepsRules
    exact Discipline.Keeps.leaves ((lawful.validOn fun _ _ => trivial).keeps (List.Subset.refl _)
      (begins.before stems))
  · intro entry around nesting
    refine ⟨?_, nesting.loop begins stems, ?_⟩
    · intro called activates bound reached flow later done
      exact (nesting.stems begins stems activates).body_flow done
    · intro returns inside activation outside called entries flowing activates
      refine Bool.eq_false_iff.mpr fun initializes => ?_
      exact nesting.not_returnsValue begins stems entries flowing activates initializes returns

/-- The `break` in a block in a loop at top level ends the loop. -/
theorem control_flow_sound_break :
    ∃ (machine : Machine) (start entry : Running) (around : List Running),
      machine.Stems Program.KeepsRules ∧ start.Begins machine ∧ start.Nesting (entry :: around) ∧
      entry.Breaks ∧
      ∃ (inside : List Running) (loop : Running) (outside : List Running),
        entry :: around = inside ++ loop :: outside ∧ (∀ inner ∈ inside, inner.Breaks) ∧
        loop.EndsLoop := by
  let machine : Machine := .new {} (.captured "") {} {}
  let test : Expr := .literal default (.bool true)
  let block : Stmt := .block default [.break default]
  have stems : machine.Stems Program.KeepsRules := (stemDiscipline_lawful _).good_new ..
  have begins : Begins machine ⟨6, .stmts [.while default test block], machine.toTopLevel⟩ :=
    .program 6 rfl
  -- The block, its statements and the `break` are inside the loop, each run by the one before.
  have nesting : Nesting ⟨6, .stmts [.while default test block], machine.toTopLevel⟩
      [_, _, _, _, _, _] :=
    .inner (.inner (.inner (.inner (.inner .start (.intro .here)) (.intro .here))
      (.intro (.onward rfl .here))) (.intro (.perform rfl .here))) (.intro .here)
  have sound := (control_flow_sound machine stems).2 _ begins
  exact ⟨machine, _, _, _, stems, begins, nesting, .stmt rfl, (sound.2 _ _ nesting).2.1 (.stmt rfl)⟩

end EventScript
