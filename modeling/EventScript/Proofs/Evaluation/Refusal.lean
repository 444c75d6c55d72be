import EventScript.Proofs.Evaluation.Binding
import EventScript.Proofs.Evaluation.Discipline
import EventScript.Proofs.Evaluation.Failing

/-!
# Refused calls

A call is refused because the callee cannot be called, because it takes another number of arguments,
or because a function of the program would be one call too many (`Value.Refusal`). Then it fails,
has run nothing of the callee, and leaves the machine as it was, but for an instance that nothing
refers to. It fails so in no other case: otherwise the body of the function starts, with its
parameters bound, or the built-in function is run, or there is nothing to run
(`callValue_refused_iff`).
-/

namespace EventScript

open Run Plan

namespace Value

/-- How many arguments the value takes when called, if it can be called. A class takes those of the
nearest initializer that it declares or inherits, or none. -/
def arity? : Value → Option Arity
  | .function _ closure => some (.exactly closure.decl.parameters.length)
  | .method _ _ found => some (.exactly found.decl.parameters.length)
  | .classObject cls => some (.exactly cls.arity)
  | .builtin _ called _ => some called.arity
  | _ => none

/-- The function of the program that a call of the value is to run, and the machine it is to run it
on. A class makes the instance first. -/
inductive Invokes (machine : Machine) : Value → Activation → Machine → Prop where
  | function (identity : Nat) (closure : Closure) :
      Invokes machine (.function identity closure) (.ofClosure closure) machine
  | method (identity : Nat) (receiver : Value) (found : Method) :
      Invokes machine (.method identity receiver found) (.ofMethod receiver found) machine
  | initializer {cls : Class} {found : Method}
      (declared : cls.findMethod? FunctionDecl.initializerName = some found) :
      Invokes machine (.classObject cls) (.ofMethod (machine.heap.newInstance cls).1 found)
        { machine with heap := (machine.heap.newInstance cls).2 }

/-- Why a call with so many arguments is refused. How many calls are open matters only if the number
of arguments is right. -/
inductive Refusal (machine : Machine) (count : Nat) (callee : Value) : Fault → Prop where
  | type (never : callee.arity? = none) :
      Refusal machine count callee (.notCallable callee.typeName)
  | arity {expected : Nat} (takes : callee.arity? = some (.exactly expected))
      (other : count ≠ expected) :
      Refusal machine count callee (.arity expected count)
  | depth {arity : Arity} {called : Activation} {opened : Machine}
      (takes : callee.arity? = some arity)
      (accepts : arity.accepts count = true) (invokes : callee.Invokes machine called opened)
      (full : machine.settings.maxCallDepth ≤ machine.frames.length) :
      Refusal machine count callee (.stackOverflow machine.settings.maxCallDepth called.decl.name)

/-- Whether the value is a built-in function. -/
def isBuiltin : Value → Bool
  | .builtin .. => true
  | _ => false

/-- How the refusal is reported. Built-in functions report it where the call stands. -/
def complaint (callee : Value) (fault : Fault) (span : Span) : Diagnostic :=
  match callee with
  | .builtin .. => fault.diagnosticAt span
  | _ => fault.diagnostic

end Value

section Call

variable (bound : Nat) (callee : Value) (arguments : List Value) (span : Span) (machine : Machine)

/-- The call runs something of the callee: some code that is not a stage of the call, or the
built-in function. -/
inductive Value.Starts : Prop where
  | code {kind : ResultKind} {code : Code kind} {reached : Machine}
      (visits : Code.Visits bound (.call callee arguments span) machine code reached)
      (other : code.isCalling = false) : Starts
  | builtin {identity : Nat} {function : Builtin} {receiver : Option Value}
      (called : callee = .builtin identity function receiver)
      (runs : callValue bound callee arguments span machine =
        function.perform receiver arguments span machine) : Starts

/-- The call fails, has run nothing of the callee, and leaves the machine as it was, but for an
instance that nothing refers to. -/
structure Value.Refused (diagnostic : Diagnostic) (later : Machine) : Prop where
  failed : callValue bound callee arguments span machine = .failed diagnostic later
  unstarted : ¬callee.Starts bound arguments span machine
  same : later = machine ∨ ∃ cls, callee = .classObject cls ∧
    later = { machine with heap := (machine.heap.newInstance cls).2 }
  /-- What holds of the callee and of all that the machine held holds of all that it holds now. -/
  unreachable : ∀ property : Value → Prop, property callee → machine.All property →
    later.All property

end Call

/-- The body of the function starts on this machine: in a new scope inside that of the function, in
one more call, and with an argument bound to each parameter. Of parameters of one name the last one
counts. -/
structure Activation.Begins (called : Activation) (arguments : List Value)
    (opened start : Machine) :
    Prop where
  entered : start = { opened with
    heap := (called.start arguments opened.heap).2
    scope := (called.start arguments opened.heap).1
    frames := ⟨called.home⟩ :: opened.frames }
  count : arguments.length = called.decl.parameters.length
  parameter : ∀ {before after : List Parameter} {parameter : Parameter} {argument : Value},
    called.decl.parameters = before ++ parameter :: after →
    arguments[before.length]? = some argument →
      (∀ later ∈ after, later.name ≠ parameter.name) →
        start.heap.lookup? start.scope parameter.name = some argument
  receiver : ∀ receiver ∈ called.receiver,
    (∀ parameter ∈ called.decl.parameters, parameter.name ≠ "this") →
      start.heap.lookup? start.scope "this" = some receiver

section Call

variable (bound : Nat) (callee : Value) (arguments : List Value) (span : Span) (machine : Machine)

/-- What a call does that is not refused: it comes to the body of a function of the program, runs a
built-in function, or makes an instance of a class without an initializer. -/
inductive Value.Proceeds : Prop where
  | body {called : Activation} {opened start : Machine}
      (invokes : callee.Invokes machine called opened)
      (visits : Code.Visits bound (.call callee arguments span) machine
        (.stmts called.decl.body) start)
      (begins : called.Begins arguments opened start) : Proceeds
  | builtin {identity : Nat} {function : Builtin} {receiver : Option Value}
      (called : callee = .builtin identity function receiver)
      (runs : callValue bound callee arguments span machine =
        function.perform receiver arguments span machine) : Proceeds
  | plain {cls : Class} (called : callee = .classObject cls)
      (undeclared : cls.findMethod? FunctionDecl.initializerName = none)
      (gives : callValue bound callee arguments span machine =
        .done (machine.heap.newInstance cls).1
          { machine with heap := (machine.heap.newInstance cls).2 }) : Proceeds

end Call

namespace Heap

/-- Where several names are bound, each has the value last given to it. -/
theorem finds_defineAll {heap : Heap} {scope : Nat} {content : Scope}
    (stored : heap.scopes.get? scope = some content) {before after : List (String × Value)}
    {name : String} {value : Value} (last : ∀ binding ∈ after, binding.1 ≠ name) :
    (heap.defineAll scope (before ++ (name, value) :: after)).Finds name scope value scope := by
  obtain ⟨kept, storedLater, -⟩ := (heap.grows_defineAll scope before).scopes _ _ stored
  have split : heap.defineAll scope (before ++ (name, value) :: after) =
      ((heap.defineAll scope before).define scope name value).defineAll scope after := by
    unfold defineAll
    rw [List.foldl_append]
    rfl
  rw [split]
  exact (finds_define storedLater name value).retains (retains_defineAll last _ scope)

end Heap

namespace Activation

variable {called : Activation} {arguments : List Value}

/-- In the scope of the body each name has the value that the bindings give it last. -/
theorem start_lookup? (heap : Heap) {before after : List (String × Value)} {name : String}
    {value : Value} (bindings : called.bindings arguments = before ++ (name, value) :: after)
    (last : ∀ binding ∈ after, binding.1 ≠ name) :
    (called.start arguments heap).2.lookup? (called.start arguments heap).1 name = some value := by
  show ((heap.newScope (some called.scope)).2.defineAll _ (called.bindings arguments)).lookup? _
    name = _
  rw [bindings]
  exact (Heap.finds_defineAll (heap.get?_newScope _) last).lookup?

/-- A parameter stands among the bindings with the argument at its place. -/
theorem bindings_parameter {before after : List Parameter} {parameter : Parameter}
    {argument : Value}
    (parameters : called.decl.parameters = before ++ parameter :: after)
    (given : arguments[before.length]? = some argument) :
    ∃ early late, called.bindings arguments = early ++ (parameter.name, argument) :: late ∧
      ∀ binding ∈ late, ∃ later ∈ after, later.name = binding.1 := by
  obtain ⟨inside, rfl⟩ := List.getElem?_eq_some_iff.mp given
  have cut : (called.decl.parameters.map Parameter.name).zip arguments =
      (before.map Parameter.name).zip (arguments.take before.length) ++
        (parameter.name, arguments[before.length]) ::
          (after.map Parameter.name).zip (arguments.drop (before.length + 1)) := by
    conv => lhs; rw [← List.take_append_drop before.length arguments]
    rw [parameters, List.map_append, List.map_cons, List.zip_append (by simp; omega),
      List.drop_eq_getElem_cons inside, List.zip_cons_cons]
  have late : ∀ binding ∈ (after.map Parameter.name).zip (arguments.drop (before.length + 1)),
      ∃ later ∈ after, later.name = binding.1 := fun binding member =>
    List.mem_map.mp (List.of_mem_zip member).1
  unfold bindings
  rw [cut]
  cases called.receiver with
  | none => exact ⟨_, _, rfl, late⟩
  | some receiver => exact ⟨("this", receiver) :: _, _, rfl, late⟩

/-- Where a function of the program is run, its body begins as it should. -/
theorem begins_start (count : arguments.length = called.decl.parameters.length) (opened : Machine) :
    called.Begins arguments opened { opened with
      heap := (called.start arguments opened.heap).2
      scope := (called.start arguments opened.heap).1
      frames := ⟨called.home⟩ :: opened.frames } where
  entered := rfl
  count := count
  parameter parameters given last := by
    obtain ⟨early, late, bindings, named⟩ := bindings_parameter parameters given
    refine start_lookup? opened.heap bindings fun binding member same => ?_
    obtain ⟨later, inAfter, name⟩ := named binding member
    exact last later inAfter (name.trans same)
  receiver receiver given others := by
    have bindings : called.bindings arguments =
        [] ++ ("this", receiver) :: (called.decl.parameters.map Parameter.name).zip arguments := by
      unfold Activation.bindings
      rw [Option.mem_def.mp given]
      rfl
    refine start_lookup? opened.heap bindings fun binding member => ?_
    obtain ⟨parameter, declared, name⟩ := List.mem_map.mp (List.of_mem_zip member).1
    exact name ▸ others parameter declared

end Activation

section Stages

variable {bound : Nat} {machine reached : Machine} {kind : ResultKind} {code : Code kind}

/-- A stage of a call that does not get to the body of a function runs nothing but further such
stages. -/
theorem Code.visits_calling_step {runner : Runner} {kind' : ResultKind} {inner : Code kind'}
    (calling : code.isCalling = true) (stops : ¬code.Enters machine)
    (visits : Plan.Visits runner code.plan machine inner reached) :
    inner.isCalling = true ∧ ¬inner.Enters reached := by
  cases code with
  | expr | exprs | stmt | stmts | loop => contradiction
  | call callee arguments span =>
    cases callee with
    | function | method | classObject =>
      cases visits with
      | here => exact ⟨rfl, stops⟩
      | onward _ visits => cases visits
    | _ =>
      cases visits with
      | perform _ visits => cases visits
  | instantiation cls arguments =>
    change Plan.Visits runner (cls.plan arguments) machine inner reached at visits
    unfold Class.plan at visits
    by_cases count : arguments.length = cls.arity
    · rw [if_neg (not_not.mpr count)] at visits
      cases visits with
      | @perform _ _ _ _ _ _ object _ _ made visits =>
        obtain ⟨-, rfl⟩ := Outcome.done.inj made
        cases found : cls.findMethod? FunctionDecl.initializerName with
        | none =>
          simp only [found] at visits
          cases visits
        | some initializer =>
          simp only [found] at visits
          cases visits with
          | here =>
            refine ⟨rfl, fun admits => stops ⟨count, fun method present => ?_⟩⟩
            obtain rfl := Option.some.inj (found.symm.trans present)
            exact admits
          | onward _ visits => cases visits
    · rw [if_pos count] at visits
      cases visits with
      | perform failed _ => contradiction
  | activation called arguments =>
    obtain ⟨fault, refused⟩ := checkCall_of_not_admits stops
    cases visits with
    | perform done _ => exact absurd (refused.symm.trans done) nofun

/-- A call that does not get to the body of a function runs nothing but its own stages. -/
theorem Code.visits_calling {kind' : ResultKind} {inner : Code kind'}
    (calling : code.isCalling = true)
    (stops : ¬code.Enters machine) (visits : Code.Visits bound code machine inner reached) :
    inner.isCalling = true := by
  induction visits with
  | here => exact calling
  | inner visits _ ih =>
    obtain ⟨calling, stops⟩ := visits_calling_step calling stops visits
    exact ih calling stops

end Stages

section Checks

variable {decl : FunctionDecl} {count : Nat} {machine : Machine}

/-- A call with another number of arguments than parameters is refused. -/
theorem checkCall_of_count_ne (other : count ≠ decl.parameters.length) :
    checkCall decl count machine =
      .failed (Fault.arity decl.parameters.length count).diagnostic machine := by
  unfold checkCall
  rw [if_pos other]
  rfl

/-- A call is refused where as many calls are open as may be. -/
theorem checkCall_of_full (same : count = decl.parameters.length)
    (full : machine.settings.maxCallDepth ≤ machine.frames.length) :
    checkCall decl count machine =
      .failed (Fault.stackOverflow machine.settings.maxCallDepth decl.name).diagnostic machine := by
  unfold checkCall
  rw [if_neg (not_not.mpr same), if_pos full]
  rfl

/-- A built-in function is made for as many arguments as it says. -/
theorem Builtin.perform_of_not_accepts {function : Builtin} {receiver : Option Value}
    {arguments : List Value} (refuses : function.arity.accepts arguments.length = false)
    (span : Span) :
    function.perform receiver arguments span = Run.fault (.arity 0 arguments.length) := by
  unfold perform
  split <;> first | rfl | contradiction

/-- A built-in function that takes so many arguments is performed. -/
theorem Builtin.call_of_accepts {function : Builtin} {arguments : List Value}
    (accepts : function.arity.accepts arguments.length = true) (receiver : Option Value)
    (span : Span) :
    function.call receiver arguments span = function.perform receiver arguments span := by
  unfold call
  cases arity : function.arity with
  | any => rfl
  | exactly expected =>
    rw [arity] at accepts
    exact if_pos (eq_of_beq accepts)

/-- A built-in function that takes another number of arguments refuses them. -/
theorem Builtin.call_of_count_ne {function : Builtin} {arguments : List Value} {expected : Nat}
    (takes : function.arity = .exactly expected) (other : arguments.length ≠ expected)
    (receiver : Option Value) (span : Span) :
    function.call receiver arguments span = Run.faultAt (.arity expected arguments.length)
      span := by
  unfold call
  rw [takes]
  exact if_neg (Ne.symm other)

end Checks

section Calls

variable {bound : Nat} {callee : Value} {arguments : List Value} {span : Span}
    {machine opened : Machine}
variable {called : Activation} {count : Nat} {fault : Fault}

/-- A class takes as many arguments as its initializer. -/
theorem Class.arity_eq {cls : Class} {found : Method}
    (declared : cls.findMethod? FunctionDecl.initializerName = some found) :
    cls.arity = found.decl.parameters.length := by
  unfold arity
  rw [declared]

namespace Value

/-- A value that runs a function of the program takes as many arguments as that has parameters. -/
theorem Invokes.arity? (invokes : callee.Invokes machine called opened) :
    callee.arity? = some (.exactly called.decl.parameters.length) := by
  cases invokes with
  | function | method => rfl
  | initializer declared =>
    exact congrArg (fun count => some (Arity.exactly count)) (Class.arity_eq declared)

/-- The calls that are open stay open until the body of a function starts. -/
theorem Invokes.frames (invokes : callee.Invokes machine called opened) :
    opened.frames = machine.frames := by cases invokes <;> rfl

/-- The settings stay until the body of a function starts. -/
theorem Invokes.settings (invokes : callee.Invokes machine called opened) :
    opened.settings = machine.settings := by cases invokes <;> rfl

/-- What the body of a function is run for complains as the fault says, without a span. -/
theorem Invokes.complaint (invokes : callee.Invokes machine called opened) (fault : Fault)
    (span : Span) : callee.complaint fault span = fault.diagnostic := by cases invokes <;> rfl

/-- A call that is refused does not get to the body of a function. -/
theorem Refusal.not_enters (refusal : callee.Refusal machine count fault) :
    ¬callee.Enters machine count := by
  intro enters
  cases refusal with
  | type never =>
    cases callee with
    | function | method | classObject => contradiction
    | _ => exact enters
  | arity takes other =>
    cases callee with
    | function | method | classObject =>
      obtain rfl := Arity.exactly.inj (Option.some.inj takes)
      exact other enters.1
    | _ => exact enters
  | depth _ _ invokes full =>
    cases invokes with
    | function | method => exact Nat.not_le_of_lt enters.2 full
    | initializer declared => exact Nat.not_le_of_lt (enters.2 _ declared).2 full

/-- A call that does not get to the body of a function, and is not one of a built-in function, runs
nothing of the callee. -/
theorem not_starts (own : callee.isBuiltin = false)
    (stops : ¬callee.Enters machine arguments.length) :
    ¬callee.Starts bound arguments span machine := by
  intro starts
  cases starts with
  | code visits other =>
    have stuck : ¬(Code.call callee arguments span).Enters machine := stops
    have calling := Code.visits_calling rfl stuck visits
    exact absurd (other.symm.trans calling) Bool.false_ne_true
  | builtin called =>
    rw [called] at own
    contradiction

end Value

/-- A call that is refused before the body of a function fails as the check does. -/
theorem activate_of_failed {diagnostic : Diagnostic}
    (failed : checkCall called.decl arguments.length opened = .failed diagnostic opened) :
    activate (bound + 1) called arguments opened = .failed diagnostic opened := by
  rw [activate]
  exact bind_failed failed

/-- An activation that is admitted comes to the body. -/
theorem Activation.visits_body (admits : called.decl.Admits opened arguments.length) :
    Code.Visits (bound + 1) (.activation called arguments) opened (.stmts called.decl.body)
      { opened with
        heap := (called.start arguments opened.heap).2
        scope := (called.start arguments opened.heap).1
        frames := ⟨called.home⟩ :: opened.frames } :=
  .inner (.perform (checkCall_of_admits admits) (.perform rfl .here)) .here

/-- A class that takes so many arguments makes an instance. -/
theorem instantiate_of_count {cls : Class} (count : arguments.length = cls.arity) :
    instantiate (bound + 1) cls arguments machine =
      (match cls.findMethod? FunctionDecl.initializerName with
        | some found => do
          let _ ← activate bound (.ofMethod (machine.heap.newInstance cls).1 found) arguments
          return (machine.heap.newInstance cls).1
        | none => pure (machine.heap.newInstance cls).1)
        { machine with heap := (machine.heap.newInstance cls).2 } := by
  rw [instantiate, if_neg (not_not.mpr count)]
  rfl

namespace Value

/-- A call of a function fails as the check before its body does. -/
theorem Invokes.callValue_of_failed {diagnostic : Diagnostic}
    (invokes : callee.Invokes machine called opened)
    (count : arguments.length = called.decl.parameters.length)
    (failed : checkCall called.decl arguments.length opened = .failed diagnostic opened) :
    callValue (bound + 3) callee arguments span machine = .failed diagnostic opened := by
  cases invokes with
  | function | method =>
    rw [callValue]
    exact activate_of_failed failed
  | @initializer cls found declared =>
    rw [callValue, instantiate_of_count (count.trans (Class.arity_eq declared).symm), declared]
    exact bind_failed (activate_of_failed failed)

/-- A call that is admitted comes to the body of the function. -/
theorem Invokes.visits_body (invokes : callee.Invokes machine called opened)
    (admits : called.decl.Admits opened arguments.length) :
    Code.Visits (bound + 3) (.call callee arguments span) machine (.stmts called.decl.body)
      { opened with
        heap := (called.start arguments opened.heap).2
        scope := (called.start arguments opened.heap).1
        frames := ⟨called.home⟩ :: opened.frames } := by
  cases invokes with
  | function | method => exact .inner .here (Activation.visits_body admits)
  | @initializer cls found declared =>
    have made : Plan.Visits (.within (bound + 1)) (cls.plan arguments) machine
        (.activation (.ofMethod (machine.heap.newInstance cls).1 found) arguments)
        { machine with heap := (machine.heap.newInstance cls).2 } := by
      unfold Class.plan
      rw [if_neg (not_not.mpr (admits.1.trans (Class.arity_eq declared).symm)), declared]
      exact .perform rfl .here
    exact .inner .here (.inner made (Activation.visits_body admits))

/-- Nothing refers to the instance that a refused class has made. -/
theorem Invokes.all (invokes : callee.Invokes machine called opened) {property : Value → Prop}
    (known : property callee) (all : machine.All property) : opened.All property := by
  cases invokes with
  | function | method => exact all
  | initializer =>
    exact ⟨all.heap.allocInstance _ known OrderedMap.all_empty, all.events⟩

/-- A call whose check fails is refused. -/
theorem Invokes.refused {diagnostic : Diagnostic} (invokes : callee.Invokes machine called opened)
    (count : arguments.length = called.decl.parameters.length)
    (failed : checkCall called.decl arguments.length opened = .failed diagnostic opened)
    (stops : ¬callee.Enters machine arguments.length) :
    callee.Refused (bound + 3) arguments span machine diagnostic opened where
  failed := invokes.callValue_of_failed count failed
  unstarted := not_starts (by cases invokes <;> rfl) stops
  same := by
    cases invokes with
    | function | method => exact .inl rfl
    | @initializer cls => exact .inr ⟨cls, rfl, rfl⟩
  unreachable _ known all := invokes.all known all

/-- A call of what is no built-in function that fails where it stands is refused if it gets
nowhere. -/
theorem refused_of_failed {diagnostic : Diagnostic} (own : callee.isBuiltin = false)
    (stops : ¬callee.Enters machine arguments.length)
    (failed : callValue bound callee arguments span machine = .failed diagnostic machine) :
    callee.Refused bound arguments span machine diagnostic machine where
  failed := failed
  unstarted := not_starts own stops
  same := .inl rfl
  unreachable _ _ all := all

/-- A built-in function with the wrong number of arguments is not run. -/
theorem refused_builtin {identity : Nat} {function : Builtin} {receiver : Option Value}
    {expected : Nat}
    (takes : function.arity = .exactly expected) (other : arguments.length ≠ expected) :
    (Value.builtin identity function receiver).Refused (bound + 1) arguments span machine
      ((Fault.arity expected arguments.length).diagnosticAt span) machine where
  failed := by
    rw [callValue, Builtin.call_of_count_ne takes other]
    rfl
  unstarted starts := by
    cases starts with
    | code visits other =>
      cases visits with
      | here => contradiction
      | inner visits _ =>
        cases visits with
        | perform _ visits => cases visits
    | builtin called runs =>
      obtain ⟨rfl, rfl, rfl⟩ := Value.builtin.inj called
      have refuses : function.arity.accepts arguments.length = false := by
        rw [takes]
        exact beq_false_of_ne (Ne.symm other)
      rw [callValue, Builtin.call_of_count_ne takes other,
        Builtin.perform_of_not_accepts refuses] at runs
      -- The one points at the call and the other nowhere.
      have place := congrArg Diagnostic.span (Outcome.failed.inj runs).1
      contradiction
  same := .inl rfl
  unreachable _ _ all := all

/-- A call that is refused fails with the complaint. -/
theorem Refusal.refused (refusal : callee.Refusal machine arguments.length fault) :
    ∃ later, callee.Refused (bound + 3) arguments span machine (callee.complaint fault span)
      later := by
  have stops := refusal.not_enters
  cases refusal with
  | type never =>
    cases callee with
    | function | method | classObject | builtin => contradiction
    | _ => exact ⟨machine, refused_of_failed rfl stops rfl⟩
  | arity takes other =>
    cases callee with
    | function | method =>
      obtain rfl := Arity.exactly.inj (Option.some.inj takes)
      refine ⟨machine, refused_of_failed rfl stops ?_⟩
      rw [callValue]
      exact activate_of_failed (checkCall_of_count_ne other)
    | classObject cls =>
      obtain rfl := Arity.exactly.inj (Option.some.inj takes)
      refine ⟨machine, refused_of_failed rfl stops ?_⟩
      rw [callValue, instantiate, if_pos other]
      rfl
    | builtin => exact ⟨machine, refused_builtin (Option.some.inj takes) other⟩
    | _ => contradiction
  | @depth _ called opened takes accepts invokes full =>
    obtain rfl := Option.some.inj (takes.symm.trans invokes.arity?)
    have count := (eq_of_beq accepts).symm
    have failed := checkCall_of_full count (invokes.settings ▸ invokes.frames ▸ full)
    rw [invokes.settings] at failed
    exact ⟨opened, invokes.complaint _ span ▸ invokes.refused count failed stops⟩

/-- A call of a value that runs a function of the program gets to the body if it is not refused. -/
theorem Invokes.proceeds (invokes : callee.Invokes machine called opened)
    (accepted : ∀ fault, ¬callee.Refusal machine arguments.length fault) :
    callee.Proceeds (bound + 3) arguments span machine := by
  have count : arguments.length = called.decl.parameters.length :=
    not_not.mp fun other => accepted _ (.arity invokes.arity? other)
  have room : ¬machine.settings.maxCallDepth ≤ machine.frames.length := fun full =>
    accepted _ (.depth invokes.arity? (beq_iff_eq.mpr count.symm) invokes full)
  have admits : called.decl.Admits opened arguments.length := by
    refine ⟨count, ?_⟩
    rw [invokes.frames, invokes.settings]
    exact Nat.lt_of_not_le room
  exact .body invokes (invokes.visits_body admits) (Activation.begins_start count opened)

/-- A call that is not refused gets to the callee. -/
theorem proceeds_of_not_refusal
    (accepted : ∀ fault, ¬callee.Refusal machine arguments.length fault) :
    callee.Proceeds (bound + 3) arguments span machine := by
  cases callee with
  | function identity closure => exact (Invokes.function identity closure).proceeds accepted
  | method identity receiver found =>
    exact (Invokes.method identity receiver found).proceeds accepted
  | classObject cls =>
    cases declared : cls.findMethod? FunctionDecl.initializerName with
    | some found => exact (Invokes.initializer declared).proceeds accepted
    | none =>
      have count : arguments.length = cls.arity :=
        not_not.mp fun other => accepted _ (.arity rfl other)
      refine .plain rfl declared ?_
      rw [callValue, instantiate_of_count count, declared]
      rfl
  | builtin identity function receiver =>
    refine .builtin rfl ?_
    rw [callValue, Builtin.call_of_accepts]
    cases takes : function.arity with
    | any => rfl
    | exactly expected =>
      have count : arguments.length = expected :=
        not_not.mp fun other => accepted _ (.arity (congrArg some takes) other)
      exact beq_iff_eq.mpr count.symm
  | _ => exact absurd (.type rfl) (accepted _)

/-- A call that gets to the callee is not refused. -/
theorem Proceeds.not_refused (proceeds : callee.Proceeds bound arguments span machine)
    {diagnostic : Diagnostic} {later : Machine} :
    ¬callee.Refused bound arguments span machine diagnostic later := by
  intro refused
  cases proceeds with
  | body _ visits => exact refused.unstarted (.code visits rfl)
  | builtin called runs => exact refused.unstarted (.builtin called runs)
  | plain _ _ gives => exact absurd (gives.symm.trans refused.failed) nofun

end Value

/-- A call is refused exactly when the callee cannot be called, takes another number of arguments,
or would be one call of a function of the program too many, and it says so. In every other case the
callee is run: the body of a function with its parameters bound to the arguments, or a built-in
function. -/
theorem callValue_refused_iff (bound : Nat) (callee : Value) (arguments : List Value) (span : Span)
    (machine : Machine) :
    (∀ diagnostic, (∃ later, callee.Refused (bound + 3) arguments span machine diagnostic later) ↔
      ∃ fault, callee.Refusal machine arguments.length fault ∧
        diagnostic = callee.complaint fault span) ∧
    ((∀ fault, ¬callee.Refusal machine arguments.length fault) →
      callee.Proceeds (bound + 3) arguments span machine) := by
  constructor
  · intro diagnostic
    constructor
    · rintro ⟨later, refused⟩
      -- A call ends in one way, so what is refused without a reason would have got to the callee.
      by_cases refusal : ∃ fault, callee.Refusal machine arguments.length fault
      · obtain ⟨fault, refusal⟩ := refusal
        obtain ⟨other, expected⟩ : ∃ later,
            callee.Refused (bound + 3) arguments span machine (callee.complaint fault span) later :=
          refusal.refused
        have same := Outcome.failed.inj (refused.failed.symm.trans expected.failed)
        exact ⟨fault, refusal, same.1⟩
      · have proceeds : callee.Proceeds (bound + 3) arguments span machine :=
          Value.proceeds_of_not_refusal fun fault holds => refusal ⟨fault, holds⟩
        exact absurd refused proceeds.not_refused
    · rintro ⟨fault, refusal, rfl⟩
      exact refusal.refused
  · exact Value.proceeds_of_not_refusal

end Calls

/-- A function of two parameters is refused with one argument, and with two its body starts. -/
theorem callValue_refused_iff_pair :
    ∃ (decl : FunctionDecl) (callee : Value) (machine : Machine), decl.parameters.length = 2 ∧
      (∃ later, callee.Refused 3 [.nil] default machine (Fault.arity 2 1).diagnostic later) ∧
      (∀ fault, ¬callee.Refusal machine 2 fault) ∧
      callee.Proceeds 3 [.bool true, .bool false] default machine := by
  let decl : FunctionDecl := ⟨"f", [⟨"a", default⟩, ⟨"b", default⟩], [], default⟩
  let callee : Value := .function 0 { decl, scope := 0, home := none }
  let machine : Machine := .new {} (.captured "") {} {}
  have accepted : ∀ fault, ¬callee.Refusal machine 2 fault := by
    intro fault refusal
    cases refusal with
    | type never => contradiction
    | arity takes other => exact other (Arity.exactly.inj (Option.some.inj takes))
    | depth _ _ _ full => exact absurd full (by decide)
  have one := (callValue_refused_iff 0 callee [.nil] default machine).1
  have two := (callValue_refused_iff 0 callee [.bool true, .bool false] default machine).2
  have refused := (one (Fault.arity 2 1).diagnostic).mpr ⟨_, .arity rfl (by decide), rfl⟩
  exact ⟨decl, callee, machine, rfl, refused, accepted, two accepted⟩

end EventScript
