import EventScript.Proofs.Evaluation.Contract
import EventScript.Proofs.Evaluation.Receiving
import Mathlib.Logic.Relation

/-!
# What a computation does to the machine

Apart from where the running code is, a program changes a machine by a few acts only
(`Machine.Act`): it changes the heap, prints, writes a prompt, takes a line of input, lets the clock
tick, queues a call without arguments, or begins an operation. So every step of a plan is a series
of acts (`Code.plan_acts`), and a property that acts keep, and that does not depend on where the
code is, is kept by all evaluation (`Machine.Stable.leaves`, `Machine.Stable.visited`). A step that
fails does so with a diagnostic of the running stage, and where that may point is known from the
code (`Run.Acts`).
-/

namespace EventScript

/-- One act of a program, where operations are begun only at the given sites. -/
inductive Machine.Act (sites : Span → Prop) (machine : Machine) : Machine → Prop where
  | heap (heap : Heap) : Act sites machine { machine with heap }
  | print (text : String) : Act sites machine (machine.print text)
  | prompt (text : String) :
      Act sites machine { machine with console := machine.console.write text }
  | takeLine : Act sites machine { machine with console := machine.console.takeLine.2 }
  | tick : Act sites machine { machine with clock := machine.clock.read.2 }
  /-- The time is read, and a call is queued for when some more of it has passed. -/
  | schedule (wait : Duration) (callback : Value) :
      Act sites machine { machine.readTime.2 with
        events := machine.readTime.2.events.schedule machine.readTime.1 wait callback [] }
  | launch (label : String) {span : Span} (site : sites span) (callback : Option Value)
      (job : Job) :
      Act sites machine { machine with
        events := (machine.events.begin label span callback).2
        launched := machine.launched ++ [((machine.events.begin label span callback).1, job)] }

/-- A series of acts. -/
abbrev Machine.Acts (sites : Span → Prop) : Machine → Machine → Prop :=
  Relation.ReflTransGen (Machine.Act sites)

/-- The diagnostic is one of the running stage, without notes, and points where it may: `none`
stands for nowhere. -/
structure Diagnostic.Raised (points : Option Span → Prop) (diagnostic : Diagnostic) : Prop where
  running : ∃ kind, diagnostic.kind = .runtime kind
  notes : diagnostic.notes = []
  points : points diagnostic.span

/-- Where the outcome leaves a machine, it is one that a series of acts leads to, and a failure
points where it may. -/
def Outcome.Acts {α : Type} (sites : Span → Prop) (points : Option Span → Prop)
    (machine : Machine) :
    Outcome α → Prop
  | .done _ later => machine.Acts sites later
  | .failed diagnostic later => machine.Acts sites later ∧ diagnostic.Raised points
  | .exhausted => True

namespace Run

variable {α β : Type} {sites : Span → Prop} {points : Option Span → Prop}

/-- However the computation ends, it has done a series of acts. It begins operations only at the
sites, and its failures point only where they may. -/
def Acts (sites : Span → Prop) (points : Option Span → Prop) (run : Run α) : Prop :=
  ∀ machine, (run machine).Acts sites points machine

/-- Giving a value is no act. -/
theorem Acts.pure (value : α) : (pure value : Run α).Acts sites points := fun _ => .refl

/-- Failing is no act. -/
theorem Acts.raise {diagnostic : Diagnostic} (raised : diagnostic.Raised points) :
    (raise diagnostic : Run α).Acts sites points :=
  fun _ => ⟨.refl, raised⟩

/-- A fault that points nowhere is no act. -/
theorem Acts.fault (nowhere : points none) (fault : Fault) :
    (Run.fault fault : Run α).Acts sites points :=
  .raise ⟨⟨fault.kind, rfl⟩, rfl, nowhere⟩

/-- A fault at a span is no act. -/
theorem Acts.faultAt {span : Span} (there : points (some span)) (fault : Fault) :
    (Run.faultAt fault span : Run α).Acts sites points :=
  .raise ⟨⟨fault.kind, rfl⟩, rfl, there⟩

/-- One series of acts after another is one. -/
theorem Acts.bind {first : Run α} {rest : α → Run β} (acts : first.Acts sites points)
    (onward : ∀ value, (rest value).Acts sites points) : (first >>= rest).Acts sites points := by
  intro machine
  have early := acts machine
  cases done : first machine with
  | exhausted =>
    rw [bind_exhausted done]
    trivial
  | failed diagnostic later =>
    rw [done] at early
    rw [bind_failed done]
    exact early
  | done value later =>
    rw [done] at early
    have late := onward value later
    rw [bind_done done]
    cases ended : rest value later with
    | exhausted => trivial
    | failed diagnostic last =>
      rw [ended] at late
      exact ⟨Relation.ReflTransGen.trans early late.1, late.2⟩
    | done result last =>
      rw [ended] at late
      exact Relation.ReflTransGen.trans early late

/-- Where failures point nowhere, it makes no difference whether a span replaces another. -/
theorem Acts.withSpan_eq {run : Run α} (acts : run.Acts sites (· = none)) (span : Span) :
    run.withSpan span = run.orSpan span := by
  funext machine
  have nowhere := acts machine
  unfold Run.withSpan Run.orSpan Run.mapFailure
  cases ended : run machine with
  | done value later => rfl
  | exhausted => rfl
  | failed diagnostic later =>
    rw [ended] at nowhere
    have points : diagnostic.span = none := nowhere.2.points
    simp only [Diagnostic.orSpan, points]

/-- Failures that point nowhere point at the span that they are offered. -/
theorem Acts.orSpan {run : Run α} (acts : run.Acts sites (· = none)) {span : Span}
    (there : points (some span)) : (run.orSpan span).Acts sites points := by
  rw [← acts.withSpan_eq]
  intro machine
  have nowhere := acts machine
  unfold Run.withSpan Run.mapFailure
  cases ended : run machine with
  | exhausted => trivial
  | done value later =>
    rw [ended] at nowhere
    exact nowhere
  | failed diagnostic later =>
    rw [ended] at nowhere
    exact ⟨nowhere.1, nowhere.2.running, nowhere.2.notes, there⟩

/-- A computation for every element of a list is a series of acts if each of them is. -/
theorem Acts.mapM {run : α → Run β} (list : List α)
    (acts : ∀ element, (run element).Acts sites points) :
    (list.mapM run).Acts sites points := by
  induction list with
  | nil => exact .pure _
  | cons first rest ih =>
    rw [List.mapM_cons]
    exact (acts first).bind fun _ => ih.bind fun _ => .pure _

/-- Looking at the heap is no act. -/
theorem Acts.heap : Run.heap.Acts sites points := fun _ => .refl

/-- Looking at the machine is no act. -/
theorem Acts.machine : Run.machine.Acts sites points := fun _ => .refl

/-- Making something on the heap is one act. -/
theorem Acts.create (new : Heap → α × Heap) : (create new).Acts sites points :=
  fun _ => .single (.heap _)

/-- Changing the heap is one act. -/
theorem Acts.modifyHeap (change : Heap → Heap) : (modifyHeap change).Acts sites points :=
  fun _ => .single (.heap _)

/-- Reading a variable is a series of acts. -/
theorem readVariable_acts {span : Span} (there : points (some span)) (name : String) :
    (readVariable span name).Acts sites points := by
  intro machine
  unfold readVariable
  split
  · exact .refl
  · exact Acts.faultAt there _ machine

/-- Assigning to a variable is a series of acts. -/
theorem assignVariable_acts {span : Span} (there : points (some span)) (name : String)
    (value : Value) : (assignVariable span name value).Acts sites points := by
  intro machine
  unfold assignVariable
  split
  · exact .single (.heap _)
  · exact Acts.faultAt there _ machine

/-- Binding a name is a series of acts. -/
theorem declare_acts (name : String) (value : Value) : (declare name value).Acts sites points :=
  fun _ => .single (.heap _)

/-- Evaluating a literal is a series of acts. -/
theorem literal_acts (value : Literal) : (literal value).Acts sites points := by
  cases value with
  | text content => exact Acts.create fun heap => heap.newString content
  | number | bool | nil => exact .pure _

/-- A numeric operator is a series of acts. -/
theorem numeric_acts (nowhere : points none) (op : BinaryOp) (left right : Value) :
    (numeric op left right).Acts sites points := by
  unfold numeric
  split
  · exact .pure _
  · split <;> exact .fault nowhere _

/-- A binary operator is a series of acts. -/
theorem binary_acts (nowhere : points none) (op : BinaryOp) (left right : Value) :
    (Run.binary op left right).Acts sites points := by
  unfold Run.binary
  split
  · exact Acts.heap.bind fun _ => .pure _
  · exact Acts.heap.bind fun _ => .pure _
  · exact .create _
  · exact numeric_acts nowhere op _ _

/-- No place is lost where the failures of an operator are pointed at it. -/
theorem withSpan_binary (span : Span) (op : BinaryOp) (left right : Value) :
    withSpan span (Run.binary op left right) = orSpan span (Run.binary op left right) := by
  have acts : (Run.binary op left right).Acts (fun _ => True) (· = none) := by
    apply binary_acts
    rfl
  exact acts.withSpan_eq span

/-- A unary operator is a series of acts. -/
theorem unary_acts {span : Span} (there : points (some span)) (op : UnaryOp) (operand : Value) :
    (Run.unary span op operand).Acts sites points := by
  unfold Run.unary
  split
  · exact .pure _
  · split
    · exact .pure _
    · exact .faultAt there _

/-- Getting a property is a series of acts. -/
theorem property_acts (nowhere : points none) (value : Value) (name : String) :
    (property value name).Acts sites points := by
  unfold property
  split
  · refine Acts.heap.bind fun heap => ?_
    dsimp only
    split
    · exact .pure _
    · split
      · exact .create _
      · exact .fault nowhere _
  · split
    · exact .create _
    · exact .fault nowhere _
  · split
    · exact .create _
    · exact .fault nowhere _
  · split
    · exact .create _
    · exact .fault nowhere _
  · exact .fault nowhere _

/-- No place is lost where the failures of a property are pointed at it. -/
theorem withSpan_property (span : Span) (value : Value) (name : String) :
    withSpan span (property value name) = orSpan span (property value name) := by
  have acts : (property value name).Acts (fun _ => True) (· = none) := by
    apply property_acts
    rfl
  exact acts.withSpan_eq span

/-- Asking for the class of the running method is a series of acts. -/
theorem home_acts : home.Acts sites points := fun _ => .refl

/-- Getting a method of the superclass is a series of acts. -/
theorem superMethod_acts {span : Span} (there : points (some span)) (name : String) :
    (superMethod span name).Acts sites points := by
  refine home_acts.bind fun cls => ?_
  split
  · exact .faultAt there _
  · refine (readVariable_acts there "this").bind fun receiver => ?_
    split
    · exact .faultAt there _
    · exact .create _

/-- Closing a declaration is a series of acts. -/
theorem close_acts (decl : FunctionDecl) : (close decl).Acts sites points :=
  home_acts.bind fun _ => Acts.machine.bind fun _ => .create _

/-- Finding the class that a declaration inherits from is a series of acts. -/
theorem resolveSuperclass_acts {superclass : Option SuperclassName}
    (there : ∀ named ∈ superclass, points (some named.span)) :
    (resolveSuperclass superclass).Acts sites points := by
  unfold resolveSuperclass
  split
  · exact .pure _
  · rename_i named
    refine (readVariable_acts (there named rfl) _).bind fun value => ?_
    split
    · exact .pure _
    · exact .faultAt (there named rfl) _

/-- Making a class is a series of acts. -/
theorem makeClass_acts (name : String) (superclass : Option Class) (methods : List FunctionDecl) :
    (makeClass name superclass methods).Acts sites points :=
  Acts.machine.bind fun _ => (Acts.create _).bind fun _ => .pure _

/-- Printing a value is a series of acts. -/
theorem printValue_acts (value : Value) : (printValue value).Acts sites points :=
  fun _ => .single (.print _)

/-- Checking a call is a series of acts. -/
theorem checkCall_acts (nowhere : points none) (decl : FunctionDecl) (count : Nat) :
    (checkCall decl count).Acts sites points := by
  intro machine
  unfold checkCall
  split
  · exact Acts.fault nowhere _ machine
  · split
    · exact Acts.fault nowhere _ machine
    · exact .refl

/-- Opening the scope of a block is a series of acts. -/
theorem blockScope_acts : blockScope.Acts sites points := fun _ => .single (.heap _)

/-- Opening the scope of a body is a series of acts. -/
theorem bodyScope_acts (activation : Activation) (arguments : List Value) :
    (bodyScope activation arguments).Acts sites points := .create _

end Run

namespace Builtin

open Run

variable {sites : Span → Prop} {points : Option Span → Prop}

/-- Displaying a value is a series of acts. -/
theorem display_acts (value : Value) : (display value).Acts sites points :=
  Acts.heap.bind fun _ => .pure _

/-- Taking a line of input is a series of acts. -/
theorem takeLine_acts : takeLine.Acts sites points := fun _ => .single .takeLine

/-- Beginning an operation is a series of acts. -/
theorem launch_acts (function : Builtin) {span : Span} (site : sites span)
    (callback : Option Value) (job : Job) : (launch function span callback job).Acts sites points :=
  fun _ => .single (.launch function.name site callback job)

/-- Asking for the time is a series of acts. -/
theorem callClock_acts : callClock.Acts sites points := by
  have tick : (Run.modify fun machine =>
      { machine with clock := machine.clock.read.2 }).Acts sites points := fun _ => .single .tick
  exact tick.bind fun _ => Acts.machine.bind fun _ => .pure _

/-- Keeping a key is a series of acts. -/
theorem keptKey_acts (key : Value) : (keptKey key).Acts sites points := by
  unfold keptKey
  split
  · exact .create _
  · exact .pure _

section Faults

variable (nowhere : points none)
include nowhere

/-- Expecting a string is a series of acts. -/
theorem expectString_acts (function : Builtin) (value : Value) :
    (expectString function value).Acts sites points := by
  unfold expectString
  split
  · exact Acts.heap.bind fun _ => .pure _
  · exact .fault nowhere _

/-- Expecting a callback is a series of acts. -/
theorem expectCallback_acts (function : Builtin) (value : Value) :
    (expectCallback function value).Acts sites points := by
  unfold expectCallback
  split
  · exact .pure _
  · split
    · exact .pure _
    · exact .fault nowhere _

/-- Expecting an index is a series of acts. -/
theorem expectIndex_acts (function : Builtin) (value : Value) (length : Nat) :
    (expectIndex function value length).Acts sites points := by
  unfold expectIndex
  split
  · exact (display_acts value).bind fun _ => .fault nowhere _
  · split
    · exact .pure _
    · exact (display_acts value).bind fun _ => .fault nowhere _

/-- A built-in method that finds out its receiver does no more than fail. -/
theorem Receives.acts {function : Builtin} {type : String} {own : Nat → Value}
    {receiver : Option Value}
    {run : Run Nat} (receives : function.Receives type own receiver run) :
    run.Acts sites points := by
  cases receives with
  | found => exact .pure _
  | missing | wrong => exact .fault nowhere _

/-- Expecting headers is a series of acts. -/
theorem expectHeaders_acts (value : Value) : (expectHeaders value).Acts sites points := by
  unfold expectHeaders
  split
  · exact .pure _
  · exact Acts.heap.bind fun _ => .pure _
  · exact .fault nowhere _

/-- Asking for a line of input is a series of acts. -/
theorem callInput_acts (prompt : Value) : (callInput prompt).Acts sites points := by
  have write : ∀ text, (Run.modify fun machine =>
      { machine with console := machine.console.write text }).Acts sites points :=
    fun text _ => .single (.prompt text)
  refine (display_acts prompt).bind fun text => (write text).bind fun _ => ?_
  refine takeLine_acts.bind fun line => ?_
  split
  · exact .pure _
  · exact .fault nowhere _
  · exact .create _

/-- Queueing a call is a series of acts. -/
theorem callDelay_acts (first second : Value) : (callDelay first second).Acts sites points := by
  have queue : ∀ (wait : Duration) (callback : Value), (do
      let reading ← readTime
      Run.modify fun machine =>
        { machine with events := machine.events.schedule reading wait callback [] }
      return .nil : Run Value).Acts sites points :=
    fun wait callback _ => .single (.schedule wait callback)
  unfold callDelay
  generalize (if first.isCallable then (second, first) else (first, second)) = chosen
  obtain ⟨milliseconds, callee⟩ := chosen
  dsimp only
  split
  · exact .fault nowhere _
  · split
    · exact .fault nowhere _
    · split
      · exact .fault nowhere _
      · exact queue _ _

/-- Beginning to read a file is a series of acts. -/
theorem callRead_acts {span : Span} (site : sites span) (path callback : Value) :
    (callRead span path callback).Acts sites points :=
  (expectString_acts nowhere _ _).bind fun _ => (expectCallback_acts nowhere _ _).bind fun _ =>
    launch_acts _ site _ _

/-- Beginning to write a file is a series of acts. -/
theorem callWrite_acts {span : Span} (site : sites span) (path mode data callback : Value) :
    (callWrite span path mode data callback).Acts sites points := by
  refine (expectString_acts nowhere _ _).bind fun _ => ?_
  refine (expectString_acts nowhere _ _).bind fun modeName => ?_
  split
  · exact .fault nowhere _
  · exact (display_acts data).bind fun _ => (expectCallback_acts nowhere _ _).bind fun _ =>
      launch_acts _ site _ _

/-- Beginning a request is a series of acts. -/
theorem callRequest_acts {span : Span} (site : sites span)
    (url body headers method callback : Value) :
    (callRequest span url body headers method callback).Acts sites points := by
  have text : (some <$> display body).Acts sites points := (display_acts body).bind fun _ => .pure _
  refine (expectString_acts nowhere _ _).bind fun _ => ?_
  dsimp only
  split
  case' isTrue => refine Acts.bind (.pure none) fun _ => ?_
  case' isFalse => refine text.bind fun _ => ?_
  all_goals
    refine (expectHeaders_acts nowhere headers).bind fun _ => ?_
    refine (expectString_acts nowhere _ _).bind fun _ => ?_
    refine Acts.machine.bind fun _ => ?_
    split
    · exact (expectCallback_acts nowhere _ _).bind fun _ => launch_acts _ site _ _
    · exact .fault nowhere _

/-- Reading a character of a string is a series of acts. -/
theorem callStringAt_acts (receiver : Option Value) (index : Value) :
    (callStringAt receiver index).Acts sites points :=
  ((stringReceiver_receives _ _).acts nowhere).bind fun _ => Acts.heap.bind fun _ =>
    (expectIndex_acts nowhere _ _ _).bind fun _ => .create _

/-- Replacing a character of a string is a series of acts. -/
theorem callStringAlter_acts (receiver : Option Value) (index replacement : Value) :
    (callStringAlter receiver index replacement).Acts sites points :=
  ((stringReceiver_receives _ _).acts nowhere).bind fun _ => Acts.heap.bind fun _ =>
    (expectIndex_acts nowhere _ _ _).bind fun _ => (display_acts _).bind fun _ =>
      (Acts.modifyHeap _).bind fun _ => .pure _

/-- Asking for the length of a string is a series of acts. -/
theorem callStringLength_acts (receiver : Option Value) :
    (callStringLength receiver).Acts sites points :=
  ((stringReceiver_receives _ _).acts nowhere).bind fun _ => Acts.heap.bind fun _ => .pure _

/-- Reading an item of a list is a series of acts. -/
theorem callListAt_acts (receiver : Option Value) (index : Value) :
    (callListAt receiver index).Acts sites points :=
  ((listReceiver_receives _ _).acts nowhere).bind fun _ => Acts.heap.bind fun _ =>
    (expectIndex_acts nowhere _ _ _).bind fun _ => .pure _

/-- Replacing an item of a list is a series of acts. -/
theorem callListAlter_acts (receiver : Option Value) (index item : Value) :
    (callListAlter receiver index item).Acts sites points :=
  ((listReceiver_receives _ _).acts nowhere).bind fun _ => Acts.heap.bind fun _ =>
    (expectIndex_acts nowhere _ _ _).bind fun _ => (Acts.modifyHeap _).bind fun _ => .pure _

/-- Asking for the length of a list is a series of acts. -/
theorem callListLength_acts (receiver : Option Value) :
    (callListLength receiver).Acts sites points :=
  ((listReceiver_receives _ _).acts nowhere).bind fun _ => Acts.heap.bind fun _ => .pure _

/-- Adding an item to a list is a series of acts. -/
theorem callListPush_acts (receiver : Option Value) (item : Value) :
    (callListPush receiver item).Acts sites points :=
  ((listReceiver_receives _ _).acts nowhere).bind fun _ => (Acts.modifyHeap _).bind fun _ => .pure _

/-- Taking an item off a list is a series of acts. -/
theorem callListPop_acts (receiver : Option Value) : (callListPop receiver).Acts sites points := by
  refine ((listReceiver_receives _ _).acts nowhere).bind fun _ => Acts.heap.bind fun _ => ?_
  split
  · exact .fault nowhere _
  · exact (Acts.modifyHeap _).bind fun _ => .pure _

/-- Looking up a key of a map is a series of acts. -/
theorem callMapGet_acts (receiver : Option Value) (key : Value) :
    (callMapGet receiver key).Acts sites points := by
  refine ((mapReceiver_receives _ _).acts nowhere).bind fun _ => Acts.heap.bind fun _ => ?_
  split <;> exact .pure _

/-- Setting a key of a map is a series of acts. -/
theorem callMapSet_acts (receiver : Option Value) (key value : Value) :
    (callMapSet receiver key value).Acts sites points :=
  ((mapReceiver_receives _ _).acts nowhere).bind fun _ => (keptKey_acts _).bind fun _ =>
    Acts.heap.bind fun _ => (Acts.modifyHeap _).bind fun _ => .pure _

/-- Only functions of two arguments and more begin operations. -/
theorem perform_acts (function : Builtin) (receiver : Option Value) (arguments : List Value)
    {span : Span} (site : 2 ≤ arguments.length → sites span) :
    (function.perform receiver arguments span).Acts sites points := by
  unfold perform
  split
  · exact callInput_acts nowhere _
  · exact callClock_acts
  · exact callDelay_acts nowhere _ _
  · exact callRead_acts nowhere (site (by simp)) _ _
  · exact callWrite_acts nowhere (site (by simp)) _ _ _ _
  · exact callRequest_acts nowhere (site (by simp)) _ _ _ _ _
  · exact (display_acts _).bind fun _ => .create _
  · exact .create _
  · exact .create _
  · exact callStringAt_acts nowhere _ _
  · exact callStringAlter_acts nowhere _ _ _
  · exact callStringLength_acts nowhere _
  · exact callListAt_acts nowhere _ _
  · exact callListAlter_acts nowhere _ _ _
  · exact callListLength_acts nowhere _
  · exact callListPush_acts nowhere _ _
  · exact callListPop_acts nowhere _
  · exact callMapGet_acts nowhere _ _
  · exact callMapSet_acts nowhere _ _ _
  · exact .fault nowhere _

/-- A built-in function does acts of its own and calls nothing: the callbacks it is given are
queued, or stored with the operation it begins where it is called. Its failures point there, or
nowhere. -/
theorem call_acts (function : Builtin) (receiver : Option Value) (arguments : List Value)
    {span : Span} (there : points (some span)) (site : 2 ≤ arguments.length → sites span) :
    (function.call receiver arguments span).Acts sites points := by
  unfold call
  split
  · split
    · exact perform_acts nowhere function receiver arguments site
    · exact .faultAt there _
  · exact perform_acts nowhere function receiver arguments site

end Faults

end Builtin

/-- Making the arguments of a callback changes the heap only: it begins no operation, and does not
fail. -/
theorem Payload.arguments_acts (sites : Span → Prop) (points : Option Span → Prop)
    (payload : Payload) :
    payload.arguments.Acts sites points := by
  unfold Payload.arguments
  split
  · exact .pure _
  · exact (Run.Acts.create _).bind fun _ => .pure _
  · refine (Run.Acts.create _).bind fun _ => Run.Acts.machine.bind fun _ => ?_
    refine (Run.Acts.create _).bind fun _ => ?_
    refine (Run.Acts.mapM _ fun _ => ?_).bind fun _ => ?_
    · exact (Run.Acts.create _).bind fun _ => (Run.Acts.create _).bind fun _ => .pure _
    · exact (Run.Acts.create _).bind fun _ => (Run.Acts.create _).bind fun _ => .pure _

end EventScript
