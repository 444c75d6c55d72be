import EventScript.Proofs.Evaluation.Ending
import EventScript.Proofs.Evaluation.Growth
import EventScript.Proofs.Evaluation.Refusal
import EventScript.Proofs.Resolution.Filed

/-!
# Construction

A class that is called makes a new instance, and gives it once the nearest initializer, if there is
one, has been run on it (`Class.constructs_iff`). However the body of the initializer ends, the
instance is what the call gives, and so it is when the initializer is called again on an instance,
by name or with `super`, since methods keep the names they are filed under. A function that only has
the name of an initializer gives what its body returns (`Machine.Filed.construction`). All this is
so wherever a session runs such a call (`Session.Runs.eq_of_get`, `Session.Runs.this_of_super`).
-/

namespace EventScript

open Run Plan

namespace Run

variable {α : Type} {frame : Frame} {scope : Nat} {run : Run α} {machine later : Machine}
    {value : α}

/-- A call ends as what is run in it. -/
theorem inCall_done_iff :
    inCall frame scope run machine = .done value later ↔
      ∃ after, run { machine with scope, frames := frame :: machine.frames } = .done value after ∧
        later = { after with scope := machine.scope, frames := after.frames.tail } := by
  unfold inCall
  constructor
  · intro ended
    split at ended
    · rename_i after inside
      obtain ⟨rfl, rfl⟩ := Outcome.done.inj ended
      exact ⟨after, inside, rfl⟩
    · contradiction
    · contradiction
  · rintro ⟨after, inside, rfl⟩
    rw [inside]

/-- A value comes from the computation itself, whatever becomes of its failures. -/
theorem mapFailure_done {change : Diagnostic → Diagnostic} :
    run.mapFailure change machine = .done value later ↔ run machine = .done value later := by
  unfold mapFailure
  cases run machine with
  | done => exact Iff.rfl
  | failed | exhausted => exact ⟨nofun, nofun⟩

end Run

namespace Plan

variable {α β : Type} {runner : Runner} {machine later : Machine}

/-- A step comes to nothing, and what follows it comes to what it comes to. -/
theorem trace_done {run : Run β} {next : β → Plan α} {value : β}
    (done : run machine = .done value later) :
    (perform run next).trace runner machine = (next value).trace runner later := by
  rw [trace, done]

/-- A plan that gives a value right after inner code comes to this code only. -/
theorem trace_visit_give {kind : ResultKind} (setting : Setting) (code : Code kind)
    (value : kind.Result → α) :
    (visit setting code fun result => give (value result)).trace runner machine =
      [⟨code, setting.enter machine⟩] := by
  rw [trace]
  cases runner kind code (setting.enter machine) <;> rfl

end Plan

namespace Activation

variable {called : Activation} {arguments : List Value} {opened later : Machine} {bound : Nat}
variable {result : Value}

/-- The machine on which the body of a function starts. -/
def entry (called : Activation) (arguments : List Value) (opened : Machine) : Machine :=
  { opened with
    heap := (called.start arguments opened.heap).2
    scope := (called.start arguments opened.heap).1
    frames := ⟨called.home⟩ :: opened.frames }

/-- A function that is admitted does what its body does. -/
theorem run_of_admits (admits : called.decl.Admits opened arguments.length) :
    (Code.activation called arguments).run (bound + 1) opened =
      (inCall ⟨called.home⟩ (called.start arguments opened.heap).1
        ((Code.stmts called.decl.body).run bound) >>= fun ending => pure (called.result ending))
        { opened with heap := (called.start arguments opened.heap).2 } := by
  unfold Code.run
  dsimp only
  rw [activate, bind_done (checkCall_of_admits admits)]
  rfl

/-- A function gives a value if it is admitted and its body ends well, in whatever way. -/
theorem done_iff :
    (Code.activation called arguments).run bound opened = .done result later ↔
      ∃ inner ending after, bound = inner + 1 ∧ called.decl.Admits opened arguments.length ∧
        (Code.stmts called.decl.body).run inner (called.entry arguments opened) =
          .done ending after ∧
        result = called.result ending ∧
        later = { after with scope := opened.scope, frames := opened.frames } := by
  constructor
  · intro ran
    cases bound with
    | zero =>
      rw [Code.run_zero] at ran
      contradiction
    | succ inner =>
      have admits : called.decl.Admits opened arguments.length := by
        by_contra refuses
        obtain ⟨fault, failed⟩ := checkCall_of_not_admits refuses
        exact absurd (ran.symm.trans (activate_of_failed failed)) nofun
      rw [run_of_admits admits] at ran
      obtain ⟨ending, middle, inside, given⟩ := exists_of_bind ran
      obtain ⟨rfl, rfl⟩ := Outcome.done.inj given
      obtain ⟨after, ended, rfl⟩ := inCall_done_iff.mp inside
      have ended : (Code.stmts called.decl.body).run inner (called.entry arguments opened) =
        .done ending after := ended
      have back := Code.restores inner (.stmts called.decl.body) (called.entry arguments opened)
      rw [ended] at back
      refine ⟨inner, ending, after, rfl, admits, ended, rfl, ?_⟩
      rw [back.frames]
      rfl
  · rintro ⟨inner, ending, after, rfl, admits, ended, rfl, rfl⟩
    have back := Code.restores inner (.stmts called.decl.body) (called.entry arguments opened)
    rw [ended] at back
    rw [run_of_admits admits, bind_done (inCall_done_iff.mpr ⟨after, ended, rfl⟩), back.frames]
    rfl

/-- A function that is admitted comes to its body. -/
theorem trace_of_admits (admits : called.decl.Admits opened arguments.length) :
    (Code.activation called arguments).trace (bound + 1) opened =
      ⟨.activation called arguments, opened⟩ ::
        (Code.stmts called.decl.body).trace bound (called.entry arguments opened) := by
  have inside : (Code.activation called arguments).plan.trace (.within bound) opened =
      [⟨.stmts called.decl.body, called.entry arguments opened⟩] := by
    show Plan.trace _ (called.plan arguments) opened = _
    unfold Activation.plan
    have scope : bodyScope called arguments opened =
      .done (called.start arguments opened.heap).1
        { opened with heap := (called.start arguments opened.heap).2 } := rfl
    rw [trace_done (checkCall_of_admits admits), trace_done scope, trace_visit_give]
    rfl
  rw [Code.trace, inside, List.flatMap_singleton]

end Activation

namespace Class

variable {cls : Class} {arguments : List Value} {span : Span} {machine later : Machine}
    {bound : Nat}
variable {made : Value}

/-- The machine on which a new instance of the class is there, and nothing else is new. -/
def opened (cls : Class) (machine : Machine) : Machine :=
  { machine with heap := (machine.heap.newInstance cls).2 }

/-- The activation of an initializer on a new instance of the class. -/
def initialization (cls : Class) (machine : Machine) (found : Method) : Activation :=
  .ofMethod (machine.heap.newInstance cls).1 found

/-- How a class gives a value within a bound and what machine that leaves: there is a new instance,
and the body of the nearest initializer, if there is one, has ended well, in whatever way. -/
inductive Constructs (cls : Class) (arguments : List Value) (machine : Machine) :
    Nat → Value → Machine → Prop where
  | plain (bound : Nat) (undeclared : cls.findMethod? FunctionDecl.initializerName = none)
      (nothing : arguments = []) :
      Constructs cls arguments machine (bound + 2) (machine.heap.newInstance cls).1
        (cls.opened machine)
  | initialized {bound : Nat} {found : Method} {after : Machine} {ending : Flow}
      (declared : cls.findMethod? FunctionDecl.initializerName = some found)
      (admits : found.decl.Admits machine arguments.length)
      (ended : (Code.stmts found.decl.body).run bound
        ((cls.initialization machine found).entry arguments (cls.opened machine)) =
          .done ending after) :
      Constructs cls arguments machine (bound + 3) (machine.heap.newInstance cls).1
        { after with scope := machine.scope, frames := machine.frames }

section Stages

variable (span : Span) {found : Method}

/-- A class with an initializer does what the initializer does on the new instance, and gives
that. -/
theorem run_of_declared (declared : cls.findMethod? FunctionDecl.initializerName = some found)
    (count : arguments.length = found.decl.parameters.length) :
    (Code.call (.classObject cls) arguments span).run (bound + 2) machine =
      ((Code.activation (cls.initialization machine found) arguments).run bound >>= fun _ =>
        pure (machine.heap.newInstance cls).1) (cls.opened machine) := by
  show instantiate (bound + 1) cls arguments machine = _
  rw [instantiate_of_count (count.trans (arity_eq declared).symm), declared]
  rfl

/-- A class without an initializer gives the new instance. -/
theorem run_of_undeclared (undeclared : cls.findMethod? FunctionDecl.initializerName = none) :
    (Code.call (.classObject cls) [] span).run (bound + 2) machine =
      .done (machine.heap.newInstance cls).1 (cls.opened machine) := by
  show instantiate (bound + 1) cls [] machine = _
  have count : ([] : List Value).length = cls.arity := by
    rw [arity, undeclared]
    rfl
  rw [instantiate_of_count count, undeclared]
  rfl

/-- A class that gives a value takes that many arguments, and the bound is enough to make an
instance. -/
theorem count_of_done
    (ran : (Code.call (.classObject cls) arguments span).run bound machine = .done made later) :
    arguments.length = cls.arity ∧ ∃ inner, bound = inner + 2 := by
  rcases bound with _ | _ | inner
  · exact absurd (show Outcome.exhausted = .done made later from ran) nofun
  · exact absurd (show Outcome.exhausted = .done made later from ran) nofun
  · refine ⟨?_, inner, rfl⟩
    have ran : instantiate (inner + 1) cls arguments machine = .done made later := ran
    by_contra other
    rw [instantiate, if_pos other] at ran
    contradiction

/-- A class whose call gives a value constructs it. -/
theorem constructs_of_done
    (ran : (Code.call (.classObject cls) arguments span).run bound machine = .done made later) :
    cls.Constructs arguments machine bound made later := by
  obtain ⟨count, bound, rfl⟩ := count_of_done span ran
  cases declared : cls.findMethod? FunctionDecl.initializerName with
  | none =>
    have nothing : arguments = [] := by
      rw [arity, declared] at count
      exact List.length_eq_zero_iff.mp count
    subst nothing
    rw [run_of_undeclared span declared] at ran
    obtain ⟨rfl, rfl⟩ := Outcome.done.inj ran
    exact .plain bound declared rfl
  | some found =>
    have wanted : arguments.length = found.decl.parameters.length := count.trans (arity_eq declared)
    rw [run_of_declared span declared wanted] at ran
    obtain ⟨result, middle, called, given⟩ := exists_of_bind ran
    obtain ⟨rfl, rfl⟩ := Outcome.done.inj given
    obtain ⟨inner, ending, after, rfl, admits, ended, -, rfl⟩ := Activation.done_iff.mp called
    exact .initialized declared admits ended

/-- A class that constructs a value gives it when it is called. -/
theorem Constructs.run_eq (constructs : cls.Constructs arguments machine bound made later) :
    (Code.call (.classObject cls) arguments span).run bound machine = .done made later := by
  cases constructs with
  | plain bound undeclared nothing =>
    subst nothing
    exact run_of_undeclared span undeclared
  | @initialized bound found after ending declared admits ended =>
    have initialized :
      (Code.activation (cls.initialization machine found) arguments).run (bound + 1)
        (cls.opened machine) = _ :=
      Activation.done_iff.mpr ⟨bound, ending, after, rfl, admits, ended, rfl, rfl⟩
    rw [run_of_declared span declared admits.1, bind_done initialized]
    rfl

/-- A call of the class gives a value just so. -/
theorem constructs_iff :
    (Code.call (.classObject cls) arguments span).run bound machine = .done made later ↔
      cls.Constructs arguments machine bound made later := by
  constructor
  · intro ran
    exact constructs_of_done span ran
  · intro constructs
    exact constructs.run_eq span

/-- A class without an initializer runs nothing. -/
theorem trace_of_undeclared (undeclared : cls.findMethod? FunctionDecl.initializerName = none) :
    (Code.call (.classObject cls) [] span).trace (bound + 2) machine =
      [⟨.call (.classObject cls) [] span, machine⟩, ⟨.instantiation cls [], machine⟩] := by
  have count : ([] : List Value).length = cls.arity := by
    rw [arity, undeclared]
    rfl
  have nothing : (Code.instantiation cls []).plan.trace (.within bound) machine = [] := by
    show (cls.plan []).trace _ machine = _
    unfold Class.plan
    rw [if_neg (not_not.mpr count), undeclared]
    rfl
  have stage : (Code.call (.classObject cls) [] span).plan.trace (.within (bound + 1)) machine =
      [⟨.instantiation cls [], machine⟩] := trace_visit_give .here _ id
  rw [Code.trace, stage, List.flatMap_singleton, Code.trace, nothing]
  rfl

/-- A class with an initializer runs it once, on the new instance. -/
theorem trace_of_declared (declared : cls.findMethod? FunctionDecl.initializerName = some found)
    (admits : found.decl.Admits machine arguments.length) :
    (Code.call (.classObject cls) arguments span).trace (bound + 3) machine =
      ⟨.call (.classObject cls) arguments span, machine⟩ ::
        ⟨.instantiation cls arguments, machine⟩ ::
          ⟨.activation (cls.initialization machine found) arguments, cls.opened machine⟩ ::
            (Code.stmts found.decl.body).trace bound
              ((cls.initialization machine found).entry arguments (cls.opened machine)) := by
  have count : arguments.length = cls.arity := admits.1.trans (arity_eq declared).symm
  have once : (Code.instantiation cls arguments).plan.trace (.within (bound + 1)) machine =
      [⟨.activation (cls.initialization machine found) arguments, cls.opened machine⟩] := by
    show (cls.plan arguments).trace _ machine = _
    unfold Class.plan
    have create : create (fun heap => heap.newInstance cls) machine =
        .done (machine.heap.newInstance cls).1 (cls.opened machine) := rfl
    rw [if_neg (not_not.mpr count), trace_done create, declared]
    exact trace_visit_give .here _ fun _ => _
  have stage :
    (Code.call (.classObject cls) arguments span).plan.trace (.within (bound + 2)) machine =
      [⟨.instantiation cls arguments, machine⟩] := trace_visit_give .here _ id
  have body : (Code.activation (cls.initialization machine found) arguments).trace (bound + 1)
      (cls.opened machine) = _ := Activation.trace_of_admits admits
  rw [Code.trace, stage, List.flatMap_singleton, Code.trace, once, List.flatMap_singleton, body]
  rfl

end Stages

/-- What a class gives is an instance of it that was not there before. -/
theorem Constructs.isNew (constructs : cls.Constructs arguments machine bound made later) :
    ∃ ref object, made = .object ref ∧ machine.heap.instances.get? ref = none ∧
      later.heap.instances.get? ref = some object ∧ object.cls = cls := by
  have absent : machine.heap.instances.get? machine.heap.instances.size = none :=
    Array.getElem?_size
  have stored : (cls.opened machine).heap.instances.get? machine.heap.instances.size =
      some { cls } := by
    show (machine.heap.instances.alloc _).2.get? machine.heap.instances.size = _
    rw [Store.get?_alloc, if_pos rfl]
  cases constructs with
  | plain => exact ⟨_, _, rfl, absent, stored, rfl⟩
  | @initialized bound found after ending declared admits ended =>
    -- The body only lets the heap grow that the instance is on.
    have started :=
      (cls.initialization machine found).grows_start arguments (cls.opened machine).heap
    have ran := Code.grows bound (.stmts found.decl.body)
      ((cls.initialization machine found).entry arguments (cls.opened machine))
    rw [ended] at ran
    obtain ⟨object, kept, same⟩ := (started.trans ran).instances _ _ stored
    exact ⟨_, object, rfl, absent, kept, same⟩

end Class

section Again

variable {bound : Nat} {machine later : Machine} {arguments : List Value} {span : Span}
    {value : Value}

/-- A method that is an initializer gives the object that it is called on. -/
theorem Value.eq_receiver {identity : Nat} {receiver : Value} {found : Method}
    (ran : (Code.call (.method identity receiver found) arguments span).run bound machine =
      .done value later) (initializes : found.decl.isInitializer = true) : value = receiver := by
  cases bound with
  | zero => exact absurd (show Outcome.exhausted = .done value later from ran) nofun
  | succ bound =>
    have ran : (Code.activation (.ofMethod receiver found) arguments).run bound machine =
      .done value later := ran
    obtain ⟨inner, ending, after, -, -, -, rfl, -⟩ := Activation.done_iff.mp ran
    exact if_pos initializes

/-- A property of an instance that is no field of it is a method of its class, bound to the
instance. -/
theorem Run.property_done {ref : Nat} {name : String}
    (unshadowed : (machine.heap.object ref).fields.find? name = none)
    (done : property (.object ref) name machine = .done value later) :
    ∃ identity found, (machine.heap.object ref).cls.findMethod? name = some found ∧
      value = .method identity (.object ref) found := by
  have read : heap machine = .done machine.heap machine := rfl
  cases found : (machine.heap.object ref).cls.findMethod? name with
  | none =>
    simp only [property, bind, read, unshadowed, found] at done
    contradiction
  | some method =>
    simp only [property, bind, read, unshadowed, found] at done
    obtain ⟨rfl, -⟩ := Outcome.done.inj done
    exact ⟨_, method, rfl, rfl⟩

/-- What `super` gives is a method of the superclass, bound to the value of `this`. -/
theorem Run.superMethod_done {name : String}
    (done : superMethod span name machine = .done value later) :
    ∃ identity parent receiver found, machine.home.bind Class.superclass? = some parent ∧
      machine.heap.lookup? machine.scope "this" = some receiver ∧
      parent.findMethod? name = some found ∧ value = .method identity receiver found := by
  have home : home machine = .done machine.home machine := rfl
  cases superclass : machine.home.bind Class.superclass? with
  | none =>
    simp only [superMethod, bind, home, superclass] at done
    contradiction
  | some parent =>
    cases this : machine.heap.lookup? machine.scope "this" with
    | none =>
      simp only [superMethod, bind, home, superclass, readVariable, this] at done
      contradiction
    | some receiver =>
      rw [superMethod_eq superclass this] at done
      cases found : parent.findMethod? name with
      | none =>
        rw [found] at done
        contradiction
      | some method =>
        rw [found] at done
        obtain ⟨rfl, -⟩ := Outcome.done.inj done
        exact ⟨_, parent, receiver, method, rfl, rfl, found, rfl⟩

/-- A call expression that gives a value has found a callee and arguments for it. -/
theorem Expr.exists_of_call {callee : Expr} {forms : List Expr}
    (ran : (Code.expr (.call span callee forms)).run bound machine = .done value later) :
    ∃ inner function middle arguments ready, bound = inner + 1 ∧
      (Code.expr callee).run inner machine = .done function middle ∧
      (Code.exprs forms).run inner middle = .done arguments ready ∧
      (Code.call function arguments span).run inner ready = .done value later := by
  cases bound with
  | zero => exact absurd (show Outcome.exhausted = .done value later from ran) nofun
  | succ inner =>
    have ran : evaluate (inner + 1) (.call span callee forms) machine = .done value later := ran
    rw [evaluate] at ran
    obtain ⟨function, middle, found, ran⟩ := exists_of_bind ran
    obtain ⟨arguments, ready, given, ran⟩ := exists_of_bind ran
    refine ⟨inner, function, middle, arguments, ready, rfl, found, given, ?_⟩
    exact mapFailure_done.mp ran

variable {ref : Nat} {place : Span} {object : Expr} {forms : List Expr}

/-- The initializer of an instance, called by name, gives the instance. -/
theorem Machine.Filed.eq_of_get {reached : Machine} (filed : machine.Filed)
    (gives : (Code.expr object).Ends machine (.done (.object ref) reached))
    (unshadowed : (reached.heap.object ref).fields.find? FunctionDecl.initializerName = none)
    (ran : (Code.expr (.call span (.get place object FunctionDecl.initializerName) forms)).run bound
      machine = .done value later) : value = .object ref := by
  obtain ⟨inner, function, middle, arguments, ready, -, found, -, called⟩ := Expr.exists_of_call ran
  cases inner with
  | zero => exact absurd (show Outcome.exhausted = .done function middle from found) nofun
  | succ inner =>
    have found : evaluate (inner + 1) (.get place object FunctionDecl.initializerName) machine =
      .done function middle := found
    rw [evaluate] at found
    obtain ⟨target, there, evaluated, found⟩ := exists_of_bind found
    have evaluated : (Code.expr object).run inner machine = .done target there := evaluated
    have ended : (Code.expr object).run inner machine ≠ .exhausted := by
      rw [evaluated]
      intro same
      cases same
    have same := gives.eq ended
    rw [evaluated] at same
    obtain ⟨rfl, rfl⟩ := Outcome.done.inj same
    obtain ⟨identity, method, declared, rfl⟩ :=
      Run.property_done unshadowed (mapFailure_done.mp found)
    obtain ⟨thereFiled, -⟩ := filed.run evaluated
    have named := ((thereFiled.object ref).findMethod? declared).2
    exact Value.eq_receiver called (beq_iff_eq.mpr named)

/-- The initializer of the superclass, called with `super`, gives the value of `this`. -/
theorem Machine.Filed.this_of_super (filed : machine.Filed)
    (ran : (Code.expr (.call span (.super place FunctionDecl.initializerName) forms)).run bound
      machine = .done value later) : machine.heap.lookup? machine.scope "this" = some value := by
  obtain ⟨inner, function, middle, arguments, ready, -, found, -, called⟩ := Expr.exists_of_call ran
  cases inner with
  | zero => exact absurd (show Outcome.exhausted = .done function middle from found) nofun
  | succ inner =>
    have found : superMethod place FunctionDecl.initializerName machine = .done function middle :=
      found
    obtain ⟨identity, parent, receiver, method, superclass, this, declared, rfl⟩ :=
      Run.superMethod_done found
    obtain ⟨owner, home, inherits⟩ := Option.bind_eq_some_iff.mp superclass
    have named := (((filed.home owner home).superclass inherits).findMethod? declared).2
    rw [this, Value.eq_receiver called (beq_iff_eq.mpr named)]

/-- A function gives what its body returns, whatever its name. -/
theorem Value.eq_returned {identity : Nat} {closure : Closure}
    (ran : (Code.call (.function identity closure) arguments span).run bound machine =
      .done value later) :
    ∃ inner ending after, (Code.stmts closure.decl.body).run inner
        ((Activation.ofClosure closure).entry arguments machine) = .done ending after ∧
      value = match ending with
        | .returned given => given
        | _ => .nil := by
  cases bound with
  | zero => exact absurd (show Outcome.exhausted = .done value later from ran) nofun
  | succ bound =>
    have ran : (Code.activation (.ofClosure closure) arguments).run bound machine =
      .done value later := ran
    obtain ⟨inner, ending, after, -, -, ended, rfl, -⟩ := Activation.done_iff.mp ran
    exact ⟨inner, ending, after, ended, if_neg Bool.false_ne_true⟩

end Again

/-- What a class has run to give a value: nothing if it has no initializer, and else the nearest
one, once, on the value and with the arguments. The body has ended well, in whatever way. -/
inductive Class.Initializes (cls : Class) (arguments : List Value) (span : Span) (machine : Machine)
    (made : Value) : Nat → Prop where
  | plain {bound : Nat} (undeclared : ∀ found, ¬cls.Nearest FunctionDecl.initializerName found)
      (nothing : (Code.call (.classObject cls) arguments span).trace bound machine =
        [⟨.call (.classObject cls) arguments span, machine⟩,
          ⟨.instantiation cls arguments, machine⟩]) :
      Initializes cls arguments span machine made bound
  | initialized {bound : Nat} {found : Method} {opened start after : Machine} {ending : Flow}
      (nearest : cls.Nearest FunctionDecl.initializerName found)
      (begins : (Activation.ofMethod made found).Begins arguments opened start)
      (once : (Code.call (.classObject cls) arguments span).trace (bound + 3) machine =
        ⟨.call (.classObject cls) arguments span, machine⟩ ::
          ⟨.instantiation cls arguments, machine⟩ ::
          ⟨.activation (.ofMethod made found) arguments, opened⟩ ::
            (Code.stmts found.decl.body).trace bound start)
      (ended : (Code.stmts found.decl.body).run bound start = .done ending after) :
      Initializes cls arguments span machine made (bound + 3)

/-- A class that gives a value has run its initializer, if it has one, on it. -/
theorem Class.Constructs.initializes {cls : Class} {arguments : List Value}
    {machine later : Machine}
    {bound : Nat} {made : Value} (constructs : cls.Constructs arguments machine bound made later)
    (span : Span) : cls.Initializes arguments span machine made bound := by
  cases constructs with
  | plain bound undeclared nothing =>
    subst nothing
    refine .plain (fun found nearest => ?_) (trace_of_undeclared span undeclared)
    have declared := findMethod?_iff.mpr nearest
    rw [undeclared] at declared
    contradiction
  | @initialized bound found after ending declared admits ended =>
    have begins : (cls.initialization machine found).Begins arguments (cls.opened machine)
        ((cls.initialization machine found).entry arguments (cls.opened machine)) :=
      Activation.begins_start admits.1 (cls.opened machine)
    exact .initialized (findMethod?_iff.mp declared) begins
      (trace_of_declared span declared admits) ended

/-- A class that gives a value gives a new instance of it, on which the nearest initializer that the
class declares or inherits has been run once, and the instance is given however the body of the
initializer ends well. The initializer gives the instance as well when it is called on one by name
or with `super`, while a function that a declaration makes gives what its body returns, also if
`init` is its name. -/
theorem Machine.Filed.construction {machine : Machine} (filed : machine.Filed) (bound : Nat)
    (span : Span) (arguments : List Value) (value : Value) (later : Machine) :
    (∀ cls : Class,
      (Code.call (.classObject cls) arguments span).run bound machine = .done value later →
        (∃ ref object, value = .object ref ∧ machine.heap.instances.get? ref = none ∧
          later.heap.instances.get? ref = some object ∧ object.cls = cls) ∧
        cls.Initializes arguments span machine value bound) ∧
    (∀ (cls : Class) (found : Method) (start after : Machine) (ending : Flow),
      cls.Nearest FunctionDecl.initializerName found →
      (Activation.ofMethod (machine.heap.newInstance cls).1 found).Begins arguments
        { machine with heap := (machine.heap.newInstance cls).2 } start →
      machine.frames.length < machine.settings.maxCallDepth →
      (Code.stmts found.decl.body).run bound start = .done ending after →
        (Code.call (.classObject cls) arguments span).run (bound + 3) machine =
          .done (machine.heap.newInstance cls).1
            { after with scope := machine.scope, frames := machine.frames }) ∧
    (∀ (place : Span) (object : Expr) (ref : Nat) (reached : Machine) (forms : List Expr),
      (Code.expr object).Ends machine (.done (.object ref) reached) →
      (reached.heap.object ref).fields.find? FunctionDecl.initializerName = none →
      (Code.expr (.call span (.get place object FunctionDecl.initializerName) forms)).run bound
        machine =
        .done value later → value = .object ref) ∧
    (∀ (place : Span) (forms : List Expr),
      (Code.expr (.call span (.super place FunctionDecl.initializerName) forms)).run bound machine =
        .done value later → machine.heap.lookup? machine.scope "this" = some value) ∧
    (∀ (place : Span) (decl : FunctionDecl),
      (Code.stmt (.function place decl)).run (bound + 1) machine =
        (declare decl.name (.function machine.heap.nextIdentity ⟨decl, machine.scope,
          machine.home⟩) >>=
          fun _ => pure Flow.next) { machine with heap := machine.heap.newIdentity.2 }) ∧
    (∀ (identity : Nat) (closure : Closure),
      (Code.call (.function identity closure) arguments span).run bound machine =
        .done value later →
        ∃ inner ending after, (Code.stmts closure.decl.body).run inner
            ((Activation.ofClosure closure).entry arguments machine) = .done ending after ∧
          value = match ending with
            | .returned given => given
            | _ => .nil) := by
  refine ⟨?made, ?given, ?named, ?super, ?declared, ?called⟩
  case made =>
    intro cls ran
    have constructs := (Class.constructs_iff span).mp ran
    exact ⟨constructs.isNew, constructs.initializes span⟩
  case given =>
    intro cls found start after ending nearest begins depth ended
    obtain rfl := begins.entered
    exact (Class.constructs_iff span).mpr
      (.initialized (Class.findMethod?_iff.mpr nearest) ⟨begins.count, depth⟩ ended)
  case named =>
    intro place object ref reached forms gives unshadowed ran
    exact filed.eq_of_get gives unshadowed ran
  case super =>
    intro place forms ran
    exact filed.this_of_super ran
  case declared =>
    intro place decl
    rfl
  case called =>
    intro identity closure ran
    exact Value.eq_returned ran

/-- The initializer of a class returns `true`, and still a call of the class gives a new
instance. -/
theorem Machine.Filed.construction_returning :
    ∃ (decl : FunctionDecl) (cls : Class) (machine later : Machine) (value : Value),
      decl.body = [.return default (some (.literal default (.bool true)))] ∧
      cls.methods.find? FunctionDecl.initializerName = some decl ∧ machine.Filed ∧
      (∃ ref object, value = .object ref ∧ machine.heap.instances.get? ref = none ∧
        later.heap.instances.get? ref = some object ∧ object.cls = cls) ∧
      cls.Initializes [] default machine value 8 := by
  let decl : FunctionDecl :=
    ⟨"init", [], [.return default (some (.literal default (.bool true)))], default⟩
  let cls : Class := { identity := 0, name := "C", methods := .ofList [("init", decl)], scope := 0 }
  let machine : Machine := .new {} (.captured "") {} {}
  have filed : machine.Filed := .new {} (.captured "") {} {}
  obtain ⟨value, later, ran⟩ : ∃ value later,
      (Code.call (.classObject cls) [] default).run 8 machine = .done value later := ⟨_, _, rfl⟩
  obtain ⟨constructs, -⟩ := filed.construction 8 default [] value later
  obtain ⟨isNew, initializes⟩ := constructs cls ran
  exact ⟨decl, cls, machine, later, value, rfl, rfl, filed, isNew, initializes⟩

namespace Session

variable {session : Session} {machine later : Machine} {bound : Nat} {span place : Span}
variable {forms : List Expr} {value : Value}

/-- Wherever a session calls the initializer of an instance by name, that gives the instance. -/
theorem Runs.eq_of_get {object : Expr} {ref : Nat} {found : Machine} (reached : session.Reachable)
    (runs : session.Runs
      (.expr (.call span (.get place object FunctionDecl.initializerName) forms)) machine)
    (gives : (Code.expr object).Ends machine (.done (.object ref) found))
    (unshadowed : (found.heap.object ref).fields.find? FunctionDecl.initializerName = none)
    (ran : (Code.expr (.call span (.get place object FunctionDecl.initializerName) forms)).run bound
      machine = .done value later) : value = .object ref := by
  have filed : machine.Filed := runs.filed reached
  exact filed.eq_of_get gives unshadowed ran

/-- Wherever a session calls the initializer of the superclass, that gives the value of `this`. -/
theorem Runs.this_of_super (reached : session.Reachable)
    (runs : session.Runs (.expr (.call span (.super place FunctionDecl.initializerName) forms))
      machine)
    (ran : (Code.expr (.call span (.super place FunctionDecl.initializerName) forms)).run bound
      machine = .done value later) : machine.heap.lookup? machine.scope "this" = some value := by
  have filed : machine.Filed := runs.filed reached
  exact filed.this_of_super ran

end Session

end EventScript
