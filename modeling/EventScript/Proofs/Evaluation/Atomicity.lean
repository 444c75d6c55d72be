import EventScript.Proofs.Evaluation.OwnContents
import EventScript.Proofs.Evaluation.Receiving
import EventScript.Proofs.Evaluation.Refusal

/-!
# Calls of built-in functions are atomic

A built-in function checks its arguments before it does anything. So a call that fails leaves the
whole machine as it was, and one that succeeds has the one effect of its function
(`Builtin.Effect`): a timer is queued, an operation is begun, or strings, lists and maps change.
`Run.Checks` is what all the checks have in common, and each function is its checks followed by its
effect. A call never comes to the code of a callback, which is left to the event loop
(`Builtin.call_atomic`).
-/

namespace EventScript

/-- The outcome is a result as `gives` says or a failure as `fails` says. -/
def Outcome.Is {α : Type} (gives : α → Machine → Prop) (fails : Diagnostic → Machine → Prop) :
    Outcome α → Prop
  | .done value later => gives value later
  | .failed diagnostic later => fails diagnostic later
  | .exhausted => False

/-- What is known of an outcome is known in a weaker form. -/
theorem Outcome.Is.imp {α : Type} {outcome : Outcome α} {gives gives' : α → Machine → Prop}
    {fails fails' : Diagnostic → Machine → Prop} (ended : outcome.Is gives fails)
    (given : ∀ value later, gives value later → gives' value later)
    (failed : ∀ diagnostic later, fails diagnostic later → fails' diagnostic later) :
    outcome.Is gives' fails' := by
  cases outcome with
  | done value later => exact given value later ended
  | failed diagnostic later => exact failed diagnostic later ended
  | exhausted => exact ended

/-- What holds of the machine in both cases, holds of the one that is left. -/
theorem Outcome.Is.leaves {α : Type} {outcome : Outcome α} {property : Machine → Prop}
    (ends : outcome.Is (fun _ later => property later) fun _ later => property later) :
    outcome.Leaves property := by
  cases outcome with
  | done | failed => exact ends
  | exhausted => trivial

/-- A failure with one of the faults, which leaves the machine as it is. -/
def Machine.Refuses (machine : Machine) (faults : Fault → Prop) (diagnostic : Diagnostic)
    (later : Machine) : Prop :=
  later = machine ∧ ∃ fault, faults fault ∧ diagnostic = fault.diagnostic

/-- Strings, lists and maps are made, and of those there were only the own object is changed. No
scope is made, as every call of a function makes one, no instance, as every call of a class does,
and no function. -/
structure Heap.ChangesData (own : Option Value) (before after : Heap) : Prop where
  others : before.KeepsOthers own after
  scopes : after.scopes = before.scopes
  instances : after.instances = before.instances
  nextIdentity : after.nextIdentity = before.nextIdentity

/-- No code of a program has run in between, as far as the machine shows it: every call of a
function makes a scope, and what runs may print and open calls. -/
structure Machine.RanNoCode (own : Option Value) (before after : Machine) : Prop where
  data : before.heap.ChangesData own after.heap
  scope : after.scope = before.scope
  frames : after.frames = before.frames
  sink : after.sink = before.sink
  reported : after.reported = before.reported
  settings : after.settings = before.settings

namespace Heap

variable (own : Option Value) (heap : Heap)

/-- A heap that nothing happens to has the data it had. -/
theorem changesData_refl : heap.ChangesData own heap := ⟨heap.keepsOthers_refl own, rfl, rfl, rfl⟩

/-- A new string is new data. -/
theorem changesData_newString (content : String) :
    heap.ChangesData own (heap.newString content).2 :=
  ⟨heap.keepsOthers_newString own content, rfl, rfl, rfl⟩

/-- A new list is new data. -/
theorem changesData_newList (items : Array Value) : heap.ChangesData own (heap.newList items).2 :=
  ⟨heap.keepsOthers_newList own items, rfl, rfl, rfl⟩

/-- A new map is new data. -/
theorem changesData_newMap (content : MapContent) : heap.ChangesData own (heap.newMap content).2 :=
  ⟨heap.keepsOthers_newMap own content, rfl, rfl, rfl⟩

variable {own heap}

/-- Data that is changed twice is changed. -/
theorem ChangesData.trans {after later : Heap} (left : heap.ChangesData own after)
    (right : after.ChangesData own later) : heap.ChangesData own later where
  others := left.others.trans right.others
  scopes := right.scopes.trans left.scopes
  instances := right.instances.trans left.instances
  nextIdentity := right.nextIdentity.trans left.nextIdentity

variable (heap) (ref : Nat)

/-- The text of a string is the string's own data. -/
theorem changesData_setText (content : String) :
    heap.ChangesData (some (.string ref)) (heap.setText ref content) :=
  ⟨heap.keepsOthers_setText ref content, rfl, rfl, rfl⟩

/-- The items of a list are the list's own data. -/
theorem changesData_modifyItems (change : Array Value → Array Value) :
    heap.ChangesData (some (.list ref)) (heap.modifyItems ref change) :=
  ⟨heap.keepsOthers_modifyItems ref change, rfl, rfl, rfl⟩

/-- The content of a map is the map's own data. -/
theorem changesData_modifyContent (change : MapContent → MapContent) :
    heap.ChangesData (some (.map ref)) (heap.modifyContent ref change) :=
  ⟨heap.keepsOthers_modifyContent ref change, rfl, rfl, rfl⟩

end Heap

/-- A machine that nothing happens to has run no code. -/
theorem Machine.ranNoCode_refl (own : Option Value) (machine : Machine) :
    machine.RanNoCode own machine :=
  ⟨machine.heap.changesData_refl own, rfl, rfl, rfl, rfl, rfl⟩

namespace Run

variable {α β : Type} {good : α → Prop} {faults : Fault → Prop}

/-- On every machine the computation gives a result as `gives` says, or it fails with one of the
faults and changes nothing. -/
def Does (run : Run α) (gives : Machine → α → Machine → Prop) (faults : Fault → Prop) : Prop :=
  ∀ machine, (run machine).Is (gives machine) (machine.Refuses faults)

/-- The computation changes nothing. Its result is good, or it fails with one of the faults. -/
abbrev Checks (run : Run α) (good : α → Prop) (faults : Fault → Prop) : Prop :=
  run.Does (fun machine value later => later = machine ∧ good value) faults

/-- Failing with a fault that may occur is among what may happen. -/
theorem does_fault {gives : Machine → α → Machine → Prop} {fault : Fault} (may : faults fault) :
    (Run.fault fault : Run α).Does gives faults :=
  fun _ => ⟨rfl, fault, may, rfl⟩

/-- Giving a good value is a check that passes. -/
theorem checks_pure {value : α} (holds : good value) : (pure value : Run α).Checks good faults :=
  fun _ => ⟨rfl, holds⟩

/-- Looking at the heap always passes. -/
theorem checks_heap : Run.heap.Checks (fun _ => True) faults := fun _ => ⟨rfl, trivial⟩

/-- Looking at the machine always passes. -/
theorem checks_machine : Run.machine.Checks (fun _ => True) faults := fun _ => ⟨rfl, trivial⟩

/-- What comes after a check starts where the check did, with a good result. -/
theorem Checks.bind {first : Run α} {rest : α → Run β} {gives : Machine → β → Machine → Prop}
    (checks : first.Checks good faults)
    (onward : ∀ value, good value → (rest value).Does gives faults) :
    (first >>= rest).Does gives faults := by
  intro machine
  have checked := checks machine
  cases ended : first machine with
  | exhausted =>
    rw [ended] at checked
    exact checked.elim
  | failed diagnostic later =>
    rw [ended] at checked
    rw [bind_failed ended]
    exact checked
  | done value later =>
    rw [ended] at checked
    obtain ⟨rfl, holds⟩ := checked
    rw [bind_done ended]
    exact onward value holds later

/-- What comes after a change starts on the changed machine. -/
theorem modify_bind (change : Machine → Machine) (rest : Unit → Run α) (machine : Machine) :
    (Run.modify change >>= rest) machine = rest () (change machine) := rfl

end Run

namespace Builtin

open Run

/-- The name of the type whose objects the function is a method of. -/
def owner? (function : Builtin) : Option String :=
  if function ∈ stringMethods then some "string"
  else if function ∈ listMethods then some "list"
  else if function ∈ mapMethods then some "map"
  else none

/-- Whether calls of the function begin an operation. -/
def beginsOperation : Builtin → Bool
  | read | write | request => true
  | _ => false

/-- What a function may complain of when it runs: a method of its object, if there is none or one of
another type. It never complains of the number of arguments, and never that something cannot be
called. -/
def MayReport (function : Builtin) (receiver : Option Value) : Fault → Prop
  | .missingReceiver => receiver = none ∧ function.owner?.isSome = true
  | .wrongReceiver .. =>
    ∃ object : Value, receiver = some object ∧ function.owner? ≠ some object.typeName
  | .arity .. | .notCallable _ => False
  | _ => True

/-- What a call that succeeds does. A timer is one more task in the queue, with a callback that is a
callable argument. An operation is one more that is pending, with its work, and its callback is a
callable argument if there is one. All other functions change nothing but the contents of their
object, and make strings, lists and maps. -/
inductive Effect (receiver : Option Value) (arguments : List Value) (span : Span)
    (machine : Machine) :
    Builtin → Value → Machine → Prop where
  | timer {due : Duration} {callback : Value} {clock : WallClock} (given : callback ∈ arguments)
      (callable : callback.isCallable = true) :
      Effect receiver arguments span machine delay .nil { machine with
        clock
        events := { machine.events with
          queue := EventLoop.insert ⟨due, machine.events.nextSeq,
            .call callback []⟩ machine.events.queue
          nextSeq := machine.events.nextSeq + 1 } }
  | operation {function : Builtin} {callback : Option Value} {job : Job}
      (begins : function.beginsOperation = true)
      (given : ∀ callee ∈ callback, callee ∈ arguments ∧ callee.isCallable = true) :
      Effect receiver arguments span machine function .nil { machine with
        events := { machine.events with
          nextOperation := machine.events.nextOperation + 1
          pending := machine.events.pending ++
            [⟨machine.events.nextOperation, function.name, span, callback⟩]
          unreported := machine.events.unreported ++ [machine.events.nextOperation] }
        launched := machine.launched ++ [(machine.events.nextOperation, job)] }
  | data {function : Builtin} {value : Value} {heap : Heap} (plain : function ≠ delay)
      (begins : function.beginsOperation = false)
      (changes : machine.heap.ChangesData receiver heap) :
      Effect receiver arguments span machine function value { machine with heap }

variable {function : Builtin} {receiver : Option Value} {arguments : List Value} {span : Span}
  {machine : Machine}

/-! ## The checks -/

/-- Displaying a value changes nothing, and fails only as the function may. -/
theorem display_checks (value : Value) {faults : Fault → Prop} :
    (display value).Checks (fun _ => True) faults := fun _ => ⟨rfl, trivial⟩

/-- Expecting a string changes nothing, and fails only as the function may. -/
theorem expectString_checks (function : Builtin) (value : Value) :
    (expectString function value).Checks (fun _ => True) (function.MayReport receiver) := by
  unfold expectString
  split
  · exact checks_heap.bind fun _ _ => checks_pure trivial
  · exact does_fault trivial

/-- The callback of an operation is the argument itself, if it can be called. -/
theorem expectCallback_checks (function : Builtin) (value : Value) :
    (expectCallback function value).Checks
      (fun callback => ∀ callee ∈ callback, callee = value ∧ callee.isCallable = true)
      (function.MayReport receiver) := by
  unfold expectCallback
  split
  · exact checks_pure nofun
  · split
    · rename_i callable
      refine checks_pure fun callee member => ?_
      obtain rfl := Option.some.inj member
      exact ⟨rfl, callable⟩
    · exact does_fault trivial

/-- Expecting an index changes nothing, and fails only as the function may. -/
theorem expectIndex_checks (function : Builtin) (value : Value) (length : Nat) :
    (expectIndex function value length).Checks (fun _ => True) (function.MayReport receiver) := by
  unfold expectIndex
  split
  · exact (display_checks value).bind fun _ _ => does_fault trivial
  · split
    · exact checks_pure trivial
    · exact (display_checks value).bind fun _ _ => does_fault trivial

/-- Expecting headers changes nothing, and fails only as the function may. -/
theorem expectHeaders_checks (value : Value) :
    (expectHeaders value).Checks (fun _ => True) (request.MayReport receiver) := by
  unfold expectHeaders
  split
  · exact checks_pure trivial
  · exact checks_heap.bind fun _ _ => checks_pure trivial
  · exact does_fault trivial

/-- A method finds the object that it belongs to, or says truly what is wrong with its receiver. -/
theorem Receives.checks {type : String} {own : Nat → Value} {run : Run Nat}
    (receives : function.Receives type own receiver run) (method : function.owner? = some type) :
    run.Checks (fun ref => receiver = some (own ref)) (function.MayReport receiver) := by
  cases receives with
  | found isOwn => exact checks_pure isOwn
  | missing nothing => exact does_fault ⟨nothing, Option.isSome_of_eq_some method⟩
  | wrong given other =>
    refine does_fault ⟨_, given, fun same => other ?_⟩
    exact Option.some.inj (same.symm.trans method)

/-! ## The functions -/

/-- The computation has the effect of the function, or one of its checks fails. -/
abbrev HasEffect (function : Builtin) (receiver : Option Value) (arguments : List Value)
    (span : Span)
    (run : Run Value) : Prop :=
  run.Does (fun machine value later => function.Effect receiver arguments span machine value later)
    (function.MayReport receiver)

/-- A result without an effect. -/
theorem hasEffect_pure (value : Value) (plain : function ≠ delay)
    (begins : function.beginsOperation = false) :
    function.HasEffect receiver arguments span (pure value) :=
  fun machine => .data plain begins (machine.heap.changesData_refl receiver)

/-- An operation is begun with a callback that is one of the arguments. -/
theorem launch_hasEffect {argument : Value} {callback : Option Value} (job : Job)
    (begins : function.beginsOperation = true) (member : argument ∈ arguments)
    (valid : ∀ callee ∈ callback, callee = argument ∧ callee.isCallable = true) :
    function.HasEffect receiver arguments span (launch function span callback job) := by
  refine fun machine => .operation begins fun callee isCallback => ?_
  obtain ⟨rfl, callable⟩ := valid callee isCallback
  exact ⟨member, callable⟩

/-- Reading the time changes the wall clock at most. -/
theorem readTime_done (machine : Machine) :
    ∃ reading clock, readTime machine = .done reading { machine with clock } := by
  unfold readTime Machine.readTime
  cases machine.events.clock
  · exact ⟨_, _, rfl⟩
  · exact ⟨_, machine.clock, rfl⟩

/-- Queueing a call has the effect of the function, or one of its checks fails. -/
theorem callDelay_hasEffect (first second : Value) :
    delay.HasEffect receiver [first, second] span (callDelay first second) := by
  have chosen : (if first.isCallable then (second, first) else (first, second)).2 ∈
      [first, second] := by
    split <;> simp
  unfold callDelay
  generalize (if first.isCallable then (second, first) else (first, second)) = pair at chosen ⊢
  obtain ⟨milliseconds, callback⟩ := pair
  dsimp only at chosen ⊢
  split
  · exact does_fault trivial
  · rename_i callable
    split
    · exact does_fault trivial
    · split
      · exact does_fault trivial
      · intro machine
        obtain ⟨reading, clock, read⟩ := readTime_done machine
        rw [bind_done read]
        exact .timer chosen (by simpa using callable)

/-- Beginning to read a file has the effect of the function, or one of its checks fails. -/
theorem callRead_hasEffect (path callback : Value) :
    read.HasEffect receiver [path, callback] span (callRead span path callback) := by
  refine (expectString_checks read path).bind fun text _ => ?_
  refine (expectCallback_checks read callback).bind fun found valid => ?_
  exact launch_hasEffect _ rfl (by simp) valid

/-- Beginning to write a file has the effect of the function, or one of its checks fails. -/
theorem callWrite_hasEffect (path mode data callback : Value) :
    write.HasEffect receiver [path, mode, data, callback] span
      (callWrite span path mode data callback) := by
  refine (expectString_checks write path).bind fun text _ => ?_
  refine (expectString_checks write mode).bind fun modeName _ => ?_
  split
  · exact does_fault trivial
  · refine (display_checks data).bind fun written _ => ?_
    refine (expectCallback_checks write callback).bind fun found valid => ?_
    exact launch_hasEffect _ rfl (by simp) valid

/-- Beginning a request has the effect of the function, or one of its checks fails. -/
theorem callRequest_hasEffect (url body headers method callback : Value) :
    request.HasEffect receiver [url, body, headers, method, callback] span
      (callRequest span url body headers method callback) := by
  have nothing :
    (pure none : Run (Option String)).Checks (fun _ => True) (request.MayReport receiver) :=
    checks_pure trivial
  have text : (some <$> display body).Checks (fun _ => True) (request.MayReport receiver) :=
    (display_checks body).bind fun _ _ => checks_pure trivial
  refine (expectString_checks request url).bind fun address _ => ?_
  dsimp only
  split
  case' isTrue => refine nothing.bind fun sent _ => ?_
  case' isFalse => refine text.bind fun sent _ => ?_
  all_goals
    refine (expectHeaders_checks headers).bind fun fields _ => ?_
    refine (expectString_checks request method).bind fun methodName _ => ?_
    refine checks_machine.bind fun _ _ => ?_
    split
    · refine (expectCallback_checks request callback).bind fun found valid => ?_
      exact launch_hasEffect _ rfl (by simp) valid
    · exact does_fault trivial

/-! ## Functions that change data -/

/-- Something new is made of strings, lists and maps. -/
theorem create_hasEffect {new : Heap → Value × Heap} (plain : function ≠ delay)
    (begins : function.beginsOperation = false)
    (changes : ∀ heap : Heap, heap.ChangesData receiver (new heap).2) :
    function.HasEffect receiver arguments span (create new) :=
  fun machine => .data plain begins (changes machine.heap)

/-- The data are changed, and a result given. -/
theorem modifyHeap_hasEffect {change : Heap → Heap} (value : Value) (plain : function ≠ delay)
    (begins : function.beginsOperation = false)
    (changes : ∀ heap : Heap, heap.ChangesData receiver (change heap)) :
    function.HasEffect receiver arguments span (modifyHeap change >>= fun _ => pure value) :=
  fun machine => .data plain begins (changes machine.heap)

/-- Reading a character of a string has the effect of the function, or one of its checks fails. -/
theorem callStringAt_hasEffect (index : Value) :
    stringAt.HasEffect receiver arguments span (callStringAt receiver index) := by
  refine ((stringReceiver_receives _ _).checks rfl).bind fun ref _ => ?_
  refine checks_heap.bind fun heap _ => ?_
  refine (expectIndex_checks stringAt index _).bind fun position _ => ?_
  exact create_hasEffect nofun rfl fun heap => heap.changesData_newString receiver _

/-- Replacing a character of a string has the effect of the function, or one of its checks fails. -/
theorem callStringAlter_hasEffect (index replacement : Value) :
    stringAlter.HasEffect receiver arguments span (callStringAlter receiver index replacement) := by
  refine ((stringReceiver_receives _ _).checks rfl).bind fun ref own => ?_
  subst own
  refine checks_heap.bind fun heap _ => ?_
  refine (expectIndex_checks stringAlter index _).bind fun position _ => ?_
  refine (display_checks replacement).bind fun text _ => ?_
  exact modifyHeap_hasEffect .nil nofun rfl fun heap => heap.changesData_setText ref _

/-- Asking for the length of a string has the effect of the function, or one of its checks fails. -/
theorem callStringLength_hasEffect :
    stringLength.HasEffect receiver arguments span (callStringLength receiver) := by
  refine ((stringReceiver_receives _ _).checks rfl).bind fun ref _ => ?_
  exact checks_heap.bind fun heap _ => hasEffect_pure _ nofun rfl

/-- Reading an item of a list has the effect of the function, or one of its checks fails. -/
theorem callListAt_hasEffect (index : Value) :
    listAt.HasEffect receiver arguments span (callListAt receiver index) := by
  refine ((listReceiver_receives _ _).checks rfl).bind fun ref _ => ?_
  refine checks_heap.bind fun heap _ => ?_
  exact (expectIndex_checks listAt index _).bind fun position _ => hasEffect_pure _ nofun rfl

/-- Replacing an item of a list has the effect of the function, or one of its checks fails. -/
theorem callListAlter_hasEffect (index item : Value) :
    listAlter.HasEffect receiver arguments span (callListAlter receiver index item) := by
  refine ((listReceiver_receives _ _).checks rfl).bind fun ref own => ?_
  subst own
  refine checks_heap.bind fun heap _ => ?_
  refine (expectIndex_checks listAlter index _).bind fun position _ => ?_
  exact modifyHeap_hasEffect .nil nofun rfl fun heap => heap.changesData_modifyItems ref _

/-- Asking for the length of a list has the effect of the function, or one of its checks fails. -/
theorem callListLength_hasEffect :
    listLength.HasEffect receiver arguments span (callListLength receiver) := by
  refine ((listReceiver_receives _ _).checks rfl).bind fun ref _ => ?_
  exact checks_heap.bind fun heap _ => hasEffect_pure _ nofun rfl

/-- Adding an item to a list has the effect of the function, or one of its checks fails. -/
theorem callListPush_hasEffect (item : Value) :
    listPush.HasEffect receiver arguments span (callListPush receiver item) := by
  refine ((listReceiver_receives _ _).checks rfl).bind fun ref own => ?_
  subst own
  exact modifyHeap_hasEffect .nil nofun rfl fun heap => heap.changesData_modifyItems ref _

/-- Taking an item off a list has the effect of the function, or one of its checks fails. -/
theorem callListPop_hasEffect :
    listPop.HasEffect receiver arguments span (callListPop receiver) := by
  refine ((listReceiver_receives _ _).checks rfl).bind fun ref own => ?_
  subst own
  refine checks_heap.bind fun heap _ => ?_
  split
  · exact does_fault trivial
  · exact modifyHeap_hasEffect _ nofun rfl fun heap => heap.changesData_modifyItems ref _

/-- Looking up a key of a map has the effect of the function, or one of its checks fails. -/
theorem callMapGet_hasEffect (key : Value) :
    mapGet.HasEffect receiver arguments span (callMapGet receiver key) := by
  refine ((mapReceiver_receives _ _).checks rfl).bind fun ref _ => ?_
  refine checks_heap.bind fun heap _ => ?_
  split
  · exact hasEffect_pure _ nofun rfl
  · exact hasEffect_pure _ nofun rfl

/-- The key that is kept is a new string at most. -/
theorem keptKey_changesData (own : Option Value) (key : Value) (machine : Machine) :
    ∃ kept heap, keptKey key machine = .done kept { machine with heap } ∧
      machine.heap.ChangesData own heap := by
  cases key with
  | string ref => exact ⟨_, _, rfl, machine.heap.changesData_newString own _⟩
  | _ => exact ⟨_, machine.heap, rfl, machine.heap.changesData_refl own⟩

/-- Setting a key of a map has the effect of the function, or one of its checks fails. -/
theorem callMapSet_hasEffect (key value : Value) :
    mapSet.HasEffect receiver arguments span (callMapSet receiver key value) := by
  refine ((mapReceiver_receives _ _).checks rfl).bind fun ref own => ?_
  subst own
  intro machine
  obtain ⟨kept, heap, done, changes⟩ := keptKey_changesData (some (.map ref)) key machine
  rw [bind_done done]
  exact .data nofun rfl (changes.trans (heap.changesData_modifyContent ref _))

/-! ## All functions -/

/-- A call with as many arguments as the function takes has the effect of the function or reports
what it may report. Reading a line and reading the clock are apart: they change the console and the
clock. -/
theorem perform_hasEffect (noInput : function ≠ input) (noClock : function ≠ clock)
    (accepts : function.arity.accepts arguments.length = true) :
    function.HasEffect receiver arguments span (function.perform receiver arguments span) := by
  match function, arguments, accepts with
  | input, _, _ | clock, _, _ => contradiction
  | delay, [_, _], _ => exact callDelay_hasEffect _ _
  | read, [_, _], _ => exact callRead_hasEffect _ _
  | write, [_, _, _, _], _ => exact callWrite_hasEffect _ _ _ _
  | request, [_, _, _, _, _], _ => exact callRequest_hasEffect _ _ _ _ _
  | string, [value], _ =>
    refine (display_checks value).bind fun text _ => ?_
    exact create_hasEffect nofun rfl fun heap => heap.changesData_newString receiver text
  | list, items, _ =>
    exact create_hasEffect (by decide) (by decide) fun heap =>
      heap.changesData_newList receiver items.toArray
  | map, [], _ =>
    exact create_hasEffect (by decide) (by decide) fun heap => heap.changesData_newMap receiver {}
  | stringAt, [_], _ => exact callStringAt_hasEffect _
  | stringAlter, [_, _], _ => exact callStringAlter_hasEffect _ _
  | stringLength, [], _ => exact callStringLength_hasEffect
  | listAt, [_], _ => exact callListAt_hasEffect _
  | listAlter, [_, _], _ => exact callListAlter_hasEffect _ _
  | listLength, [], _ => exact callListLength_hasEffect
  | listPush, [_], _ => exact callListPush_hasEffect _
  | listPop, [], _ => exact callListPop_hasEffect
  | mapGet, [_], _ => exact callMapGet_hasEffect _
  | mapSet, [_, _], _ => exact callMapSet_hasEffect _ _

/-- A call that has the effect of its function has run no code. -/
theorem Effect.ranNoCode {value : Value} {later : Machine}
    (effect : function.Effect receiver arguments span machine value later) :
    machine.RanNoCode receiver later := by
  cases effect with
  | timer | operation => exact ⟨machine.heap.changesData_refl receiver, rfl, rfl, rfl, rfl, rfl⟩
  | data _ _ changes => exact ⟨changes, rfl, rfl, rfl, rfl, rfl⟩

/-- Reading a line runs no code and queues nothing. It fails only if there is no text to read. -/
theorem callInput_is (receiver : Option Value) (prompt : Value) (machine : Machine) :
    (callInput prompt machine).Is
      (fun _ later => machine.RanNoCode receiver later ∧ later.events = machine.events)
      (fun diagnostic later => (machine.RanNoCode receiver later ∧ later.events = machine.events) ∧
        ∃ problem, diagnostic = (Fault.inputFailed problem).diagnostic) := by
  have same : machine.heap.ChangesData receiver machine.heap :=
    machine.heap.changesData_refl receiver
  let asked := machine.console.write (prompt.display machine.heap)
  have shown : display prompt machine = .done (prompt.display machine.heap) machine := rfl
  have took : takeLine { machine with console := asked } =
      .done asked.takeLine.1 { machine with console := asked.takeLine.2 } := rfl
  unfold callInput
  rw [bind_done shown, modify_bind, bind_done took]
  cases asked.takeLine.1 with
  | none => exact ⟨⟨same, rfl, rfl, rfl, rfl, rfl⟩, rfl⟩
  | some line =>
    cases line with
    | none => exact ⟨⟨⟨same, rfl, rfl, rfl, rfl, rfl⟩, rfl⟩, _, rfl⟩
    | some line =>
      exact ⟨⟨machine.heap.changesData_newString receiver _, rfl, rfl, rfl, rfl, rfl⟩, rfl⟩

/-- Reading the clock runs no code and queues nothing, and does not fail. -/
theorem callClock_is (receiver : Option Value) (machine : Machine) :
    (callClock machine).Is (fun _ later => machine.RanNoCode receiver later ∧
      later.events = machine.events)
      fun _ _ => False :=
  ⟨⟨machine.heap.changesData_refl receiver, rfl, rfl, rfl, rfl, rfl⟩, rfl⟩

/-- A call with a wrong number of arguments fails at once, and with any other number the function
runs. -/
theorem call_cases (function : Builtin) (receiver : Option Value) (arguments : List Value)
    (span : Span)
    (machine : Machine) :
    (∃ expected, function.arity = .exactly expected ∧ arguments.length ≠ expected ∧
      function.call receiver arguments span machine =
        .failed ((Fault.arity expected arguments.length).diagnosticAt span) machine) ∨
    function.arity.accepts arguments.length = true ∧
      function.call receiver arguments span = function.perform receiver arguments span := by
  by_cases accepts : function.arity.accepts arguments.length = true
  · exact .inr ⟨accepts, call_of_accepts accepts receiver span⟩
  · cases takes : function.arity with
    | any => exact absurd (takes ▸ rfl) accepts
    | exactly expected =>
      have other : arguments.length ≠ expected := fun same =>
        accepts (takes ▸ beq_iff_eq.mpr same.symm)
      exact .inl ⟨expected, rfl, other,
        congrFun (call_of_count_ne takes other receiver span) machine⟩

/-- What is said of a call is said of the refusal of the number of arguments, and of the
function. -/
theorem call_is {gives : Value → Machine → Prop} {fails : Diagnostic → Machine → Prop}
    (refused : ∀ expected, arguments.length ≠ expected →
      fails ((Fault.arity expected arguments.length).diagnosticAt span) machine)
    (runs : function.arity.accepts arguments.length = true →
      (function.perform receiver arguments span machine).Is gives fails) :
    (function.call receiver arguments span machine).Is gives fails := by
  obtain ⟨expected, -, other, fails⟩ | ⟨accepts, same⟩ :=
    function.call_cases receiver arguments span machine
  · rw [fails]
    exact refused expected other
  · rw [same]
    exact runs accepts

/-- A function that runs reads a line, reads the clock or has an effect. -/
theorem perform_cases {goal : Outcome Value → Prop}
    (accepts : function.arity.accepts arguments.length = true)
    (line : ∀ prompt, goal (callInput prompt machine)) (time : goal (callClock machine))
    (other : function.HasEffect receiver arguments span (function.perform receiver arguments span) →
      goal (function.perform receiver arguments span machine)) :
    goal (function.perform receiver arguments span machine) := by
  by_cases noInput : function = input
  · subst noInput
    match arguments, accepts with
    | [prompt], _ => exact line prompt
  · by_cases noClock : function = clock
    · subst noClock
      match arguments, accepts with
      | [], _ => exact time
    · exact other (perform_hasEffect noInput noClock accepts)

/-- A call of a built-in function runs no code. -/
theorem call_ranNoCode (machine : Machine) :
    (function.call receiver arguments span machine).Is (fun _ later =>
      machine.RanNoCode receiver later)
      fun _ later => machine.RanNoCode receiver later := by
  have same : machine.RanNoCode receiver machine := machine.ranNoCode_refl receiver
  refine call_is (fun _ _ => same) fun accepts => perform_cases accepts ?line ?time ?other
  case line =>
    intro prompt
    exact (callInput_is receiver prompt machine).imp (fun _ _ => And.left) fun _ _ failed =>
      failed.1.1
  case time => exact (callClock_is receiver machine).imp (fun _ _ => And.left) fun _ _ => False.elim
  case other =>
    refine fun does => (does machine).imp (fun _ _ effect => effect.ranNoCode) ?_
    rintro _ _ ⟨rfl, -⟩
    exact same

end Builtin

end EventScript
