import EventScript.Proofs.Evaluation.Contract
import EventScript.Proofs.Evaluation.Receiving

/-!
# What computations see around them

A running program stands somewhere: in a scope, inside open calls, above a global scope, after some
errors. A `View` says which surroundings look the same, and a computation that sees only the view
(`Run.SeesOnly`) does the same in all of these: it gives the same, does the same to the rest of the
machine, and leaves the surroundings as they are. Built-in functions see nothing of their
surroundings (`Builtin.call_seesOnly`).
-/

namespace EventScript

/-- What lies around the running code. -/
structure Surroundings where
  globals : Nat
  /-- The innermost scope of the running code. -/
  scope : Nat
  /-- The open calls, the innermost first. -/
  frames : List Frame
  /-- The errors reported so far. -/
  reported : List Diagnostic

namespace Surroundings

/-- The class whose method is running, if any. -/
def home (around : Surroundings) : Option Class := around.frames.head?.bind Frame.home

end Surroundings

namespace Machine

/-- What lies around the running code. -/
def surroundings (machine : Machine) : Surroundings :=
  { globals := machine.globals
    scope := machine.scope
    frames := machine.frames
    reported := machine.reported }

/-- The machine with its code in other surroundings. -/
def within (machine : Machine) (around : Surroundings) : Machine :=
  { machine with
    globals := around.globals
    scope := around.scope
    frames := around.frames
    reported := around.reported }

end Machine

/-- The outcome, with the machine that it leaves in other surroundings. -/
def Outcome.within {α : Type} (around : Surroundings) : Outcome α → Outcome α
  | .done value later => .done value (later.within around)
  | .failed diagnostic later => .failed diagnostic (later.within around)
  | .exhausted => .exhausted

/-- What is seen of the surroundings: which of them look the same. -/
structure View where
  same : Surroundings → Surroundings → Prop
  refl : ∀ around, same around around

namespace View

/-- Only how many calls are open is seen. -/
def depth : View where
  same first second := second.frames.length = first.frames.length
  refl _ := rfl

/-- What code sees that runs inside a call: its scope, how many calls are open, and the class whose
method is running. -/
def inside : View where
  same first second :=
    second.scope = first.scope ∧ second.frames.length = first.frames.length ∧
      second.home = first.home
  refl _ := ⟨rfl, rfl, rfl⟩

end View

namespace Run

variable {α β : Type} {view : View}

/-- The computation does the same in surroundings that look the same, and leaves them as they
are. -/
def SeesOnly (view : View) (run : Run α) : Prop :=
  ∀ (machine : Machine) (around : Surroundings), view.same machine.surroundings around →
    run (machine.within around) = (run machine).within around

/-- What sees less sees no more. -/
theorem SeesOnly.mono {run : Run α} {other : View} (sees : run.SeesOnly view)
    (le : ∀ first second, other.same first second → view.same first second) :
    run.SeesOnly other :=
  fun machine around same => sees machine around (le _ _ same)

/-- The computation leaves the surroundings as they are. -/
theorem SeesOnly.leaves {run : Run α} (sees : run.SeesOnly view) (machine : Machine) :
    (run machine).Leaves fun later => later.surroundings = machine.surroundings := by
  have stays : run machine = (run machine).within machine.surroundings :=
    sees machine machine.surroundings (view.refl _)
  rw [stays]
  cases run machine with
  | exhausted => trivial
  | failed diagnostic later | done value later => rfl

/-- Giving a value sees nothing. -/
theorem SeesOnly.pure (value : α) : (pure value : Run α).SeesOnly view := fun _ _ _ => rfl

/-- Failing sees nothing. -/
theorem SeesOnly.raise (diagnostic : Diagnostic) : (raise diagnostic : Run α).SeesOnly view :=
  fun _ _ _ => rfl

/-- Failing with a fault sees nothing. -/
theorem SeesOnly.fault (fault : Fault) : (Run.fault fault : Run α).SeesOnly view := .raise _

/-- Failing with a fault at a span sees nothing. -/
theorem SeesOnly.faultAt (fault : Fault) (span : Span) :
    (Run.faultAt fault span : Run α).SeesOnly view :=
  .raise _

/-- One computation after another sees what both see. -/
theorem SeesOnly.bind {first : Run α} {rest : α → Run β} (sees : first.SeesOnly view)
    (onward : ∀ value, (rest value).SeesOnly view) : (first >>= rest).SeesOnly view := by
  intro machine around same
  have early := sees machine around same
  cases ended : first machine with
  | exhausted =>
    rw [ended] at early
    rw [bind_exhausted ended, bind_exhausted early]
    rfl
  | failed diagnostic later =>
    rw [ended] at early
    rw [bind_failed ended, bind_failed early]
    rfl
  | done value later =>
    have stays := sees.leaves machine
    rw [ended] at early stays
    rw [bind_done ended, bind_done early]
    exact onward value later around (stays ▸ same)

/-- What failures say does not matter. -/
theorem SeesOnly.mapFailure {run : Run α} (sees : run.SeesOnly view)
    (change : Diagnostic → Diagnostic) : (run.mapFailure change).SeesOnly view := by
  intro machine around same
  unfold Run.mapFailure
  rw [sees machine around same]
  cases run machine <;> rfl

/-- Pointing failures at a span sees no more. -/
theorem SeesOnly.withSpan {run : Run α} (sees : run.SeesOnly view) (span : Span) :
    (run.withSpan span).SeesOnly view := sees.mapFailure _

/-- Looking at the heap sees nothing of the surroundings. -/
theorem SeesOnly.heap : Run.heap.SeesOnly view := fun _ _ _ => rfl

/-- A machine may be looked at if what follows is the same wherever the surroundings look the
same. -/
theorem SeesOnly.machine {rest : Machine → Run α}
    (unseen : ∀ machine around, view.same machine.surroundings around →
      rest (machine.within around) = rest machine)
    (onward : ∀ machine, (rest machine).SeesOnly view) : (Run.machine >>= rest).SeesOnly view := by
  intro machine around same
  show rest (machine.within around) (machine.within around) = (rest machine machine).within around
  rw [unseen machine around same]
  exact onward machine machine around same

/-- Making something on the heap sees nothing of the surroundings. -/
theorem SeesOnly.create (new : Heap → α × Heap) : (create new).SeesOnly view := fun _ _ _ => rfl

/-- Changing the heap sees nothing of the surroundings. -/
theorem SeesOnly.modifyHeap (change : Heap → Heap) : (modifyHeap change).SeesOnly view :=
  fun _ _ _ => rfl

/-- A change sees nothing of the surroundings if it changes them nowhere. -/
theorem SeesOnly.modify {change : Machine → Machine}
    (unseen : ∀ machine around, change (machine.within around) = (change machine).within around) :
    (modify change).SeesOnly view :=
  fun machine around _ => congrArg (Outcome.done ()) (unseen machine around)

end Run

/-- How the time is told has nothing to do with the surroundings. -/
theorem Machine.readTime_within (machine : Machine) (around : Surroundings) :
    (machine.within around).readTime = (machine.readTime.1, machine.readTime.2.within around) := by
  obtain ⟨_, _, _, _, ⟨mode, _, _, _, _, _, _, _⟩, _, _, _, _, _, _⟩ := machine
  cases mode <;> rfl

namespace Builtin

open Run

variable {view : View}

/-- Displaying a value sees only what the view shows. -/
theorem display_seesOnly (value : Value) : (display value).SeesOnly view :=
  SeesOnly.heap.bind fun _ => .pure _

/-- Reading the time sees only what the view shows. -/
theorem readTime_seesOnly : readTime.SeesOnly view := by
  intro machine around _
  unfold readTime
  rw [Machine.readTime_within]
  rfl

/-- Taking a line of input sees only what the view shows. -/
theorem takeLine_seesOnly : takeLine.SeesOnly view := fun _ _ _ => rfl

/-- Expecting a string sees only what the view shows. -/
theorem expectString_seesOnly (function : Builtin) (value : Value) :
    (expectString function value).SeesOnly view := by
  unfold expectString
  split
  · exact SeesOnly.heap.bind fun _ => .pure _
  · exact .fault _

/-- Expecting a callback sees only what the view shows. -/
theorem expectCallback_seesOnly (function : Builtin) (value : Value) :
    (expectCallback function value).SeesOnly view := by
  unfold expectCallback
  split
  · exact .pure _
  · split
    · exact .pure _
    · exact .fault _

/-- Expecting an index sees only what the view shows. -/
theorem expectIndex_seesOnly (function : Builtin) (value : Value) (length : Nat) :
    (expectIndex function value length).SeesOnly view := by
  unfold expectIndex
  split
  · exact (display_seesOnly value).bind fun _ => .fault _
  · split
    · exact .pure _
    · exact (display_seesOnly value).bind fun _ => .fault _

/-- Finding out the receiver of a built-in method sees nothing of the surroundings. -/
theorem Receives.seesOnly {function : Builtin} {type : String} {own : Nat → Value}
    {receiver : Option Value}
    {run : Run Nat} (receives : function.Receives type own receiver run) : run.SeesOnly view := by
  cases receives with
  | found => exact .pure _
  | missing | wrong => exact .fault _

/-- Expecting headers sees only what the view shows. -/
theorem expectHeaders_seesOnly (value : Value) : (expectHeaders value).SeesOnly view := by
  unfold expectHeaders
  split
  · exact .pure _
  · exact SeesOnly.heap.bind fun _ => .pure _
  · exact .fault _

/-- Beginning an operation sees only what the view shows. -/
theorem launch_seesOnly (function : Builtin) (span : Span) (callback : Option Value) (job : Job) :
    (launch function span callback job).SeesOnly view :=
  (SeesOnly.modify fun _ _ => rfl).bind fun _ => .pure _

/-- Asking for a line of input sees only what the view shows. -/
theorem callInput_seesOnly (prompt : Value) : (callInput prompt).SeesOnly view := by
  refine (display_seesOnly prompt).bind fun text => ?_
  refine (SeesOnly.modify fun _ _ => rfl).bind fun _ => takeLine_seesOnly.bind fun line => ?_
  split
  · exact .pure _
  · exact .fault _
  · exact .create _

/-- Asking for the time sees only what the view shows. -/
theorem callClock_seesOnly : callClock.SeesOnly view :=
  (SeesOnly.modify fun _ _ => rfl).bind fun _ => .machine (fun _ _ _ => rfl) fun _ => .pure _

/-- Queueing a call sees only what the view shows. -/
theorem callDelay_seesOnly (first second : Value) : (callDelay first second).SeesOnly view := by
  unfold callDelay
  generalize (if first.isCallable then (second, first) else (first, second)) = chosen
  obtain ⟨milliseconds, callee⟩ := chosen
  dsimp only
  split
  · exact .fault _
  · split
    · exact .fault _
    · split
      · exact .fault _
      · exact readTime_seesOnly.bind fun _ => (SeesOnly.modify fun _ _ => rfl).bind fun _ => .pure _

/-- Beginning to read a file sees only what the view shows. -/
theorem callRead_seesOnly (span : Span) (path callback : Value) :
    (callRead span path callback).SeesOnly view :=
  (expectString_seesOnly _ _).bind fun _ => (expectCallback_seesOnly _ _).bind fun _ =>
    launch_seesOnly _ _ _ _

/-- Beginning to write a file sees only what the view shows. -/
theorem callWrite_seesOnly (span : Span) (path mode data callback : Value) :
    (callWrite span path mode data callback).SeesOnly view := by
  refine (expectString_seesOnly _ _).bind fun _ =>
    (expectString_seesOnly _ _).bind fun modeName => ?_
  split
  · exact .fault _
  · exact (display_seesOnly data).bind fun _ => (expectCallback_seesOnly _ _).bind fun _ =>
      launch_seesOnly _ _ _ _

/-- Beginning a request sees only what the view shows. -/
theorem callRequest_seesOnly (span : Span) (url body headers method callback : Value) :
    (callRequest span url body headers method callback).SeesOnly view := by
  have text : (some <$> display body).SeesOnly view := (display_seesOnly body).bind fun _ => .pure _
  refine (expectString_seesOnly _ _).bind fun _ => ?_
  dsimp only
  split
  case' isTrue => refine SeesOnly.bind (.pure none) fun _ => ?_
  case' isFalse => refine text.bind fun _ => ?_
  all_goals
    refine (expectHeaders_seesOnly headers).bind fun _ => ?_
    refine (expectString_seesOnly _ _).bind fun _ => ?_
    refine .machine (fun _ _ _ => rfl) fun _ => ?_
    split
    · exact (expectCallback_seesOnly _ _).bind fun _ => launch_seesOnly _ _ _ _
    · exact .fault _

/-- Reading a character of a string sees only what the view shows. -/
theorem callStringAt_seesOnly (receiver : Option Value) (index : Value) :
    (callStringAt receiver index).SeesOnly view :=
  (stringReceiver_receives _ _).seesOnly.bind fun _ => SeesOnly.heap.bind fun _ =>
    (expectIndex_seesOnly _ _ _).bind fun _ => .create _

/-- Replacing a character of a string sees only what the view shows. -/
theorem callStringAlter_seesOnly (receiver : Option Value) (index replacement : Value) :
    (callStringAlter receiver index replacement).SeesOnly view :=
  (stringReceiver_receives _ _).seesOnly.bind fun _ => SeesOnly.heap.bind fun _ =>
    (expectIndex_seesOnly _ _ _).bind fun _ => (display_seesOnly _).bind fun _ =>
      (SeesOnly.modifyHeap _).bind fun _ => .pure _

/-- Asking for the length of a string sees only what the view shows. -/
theorem callStringLength_seesOnly (receiver : Option Value) :
    (callStringLength receiver).SeesOnly view :=
  (stringReceiver_receives _ _).seesOnly.bind fun _ => SeesOnly.heap.bind fun _ => .pure _

/-- Reading an item of a list sees only what the view shows. -/
theorem callListAt_seesOnly (receiver : Option Value) (index : Value) :
    (callListAt receiver index).SeesOnly view :=
  (listReceiver_receives _ _).seesOnly.bind fun _ => SeesOnly.heap.bind fun _ =>
    (expectIndex_seesOnly _ _ _).bind fun _ => .pure _

/-- Replacing an item of a list sees only what the view shows. -/
theorem callListAlter_seesOnly (receiver : Option Value) (index item : Value) :
    (callListAlter receiver index item).SeesOnly view :=
  (listReceiver_receives _ _).seesOnly.bind fun _ => SeesOnly.heap.bind fun _ =>
    (expectIndex_seesOnly _ _ _).bind fun _ => (SeesOnly.modifyHeap _).bind fun _ => .pure _

/-- Asking for the length of a list sees only what the view shows. -/
theorem callListLength_seesOnly (receiver : Option Value) :
    (callListLength receiver).SeesOnly view :=
  (listReceiver_receives _ _).seesOnly.bind fun _ => SeesOnly.heap.bind fun _ => .pure _

/-- Adding an item to a list sees only what the view shows. -/
theorem callListPush_seesOnly (receiver : Option Value) (item : Value) :
    (callListPush receiver item).SeesOnly view :=
  (listReceiver_receives _ _).seesOnly.bind fun _ => (SeesOnly.modifyHeap _).bind fun _ => .pure _

/-- Taking an item off a list sees only what the view shows. -/
theorem callListPop_seesOnly (receiver : Option Value) : (callListPop receiver).SeesOnly view := by
  refine (listReceiver_receives _ _).seesOnly.bind fun _ => SeesOnly.heap.bind fun _ => ?_
  split
  · exact .fault _
  · exact (SeesOnly.modifyHeap _).bind fun _ => .pure _

/-- Looking up a key of a map sees only what the view shows. -/
theorem callMapGet_seesOnly (receiver : Option Value) (key : Value) :
    (callMapGet receiver key).SeesOnly view := by
  refine (mapReceiver_receives _ _).seesOnly.bind fun _ => SeesOnly.heap.bind fun _ => ?_
  split <;> exact .pure _

/-- Keeping a key sees only what the view shows. -/
theorem keptKey_seesOnly (key : Value) : (keptKey key).SeesOnly view := by
  unfold keptKey
  split
  · exact .create _
  · exact .pure _

/-- Setting a key of a map sees only what the view shows. -/
theorem callMapSet_seesOnly (receiver : Option Value) (key value : Value) :
    (callMapSet receiver key value).SeesOnly view :=
  (mapReceiver_receives _ _).seesOnly.bind fun _ => (keptKey_seesOnly _).bind fun _ =>
    SeesOnly.heap.bind fun _ => (SeesOnly.modifyHeap _).bind fun _ => .pure _

/-- What a built-in function performs sees only what the view shows. -/
theorem perform_seesOnly (function : Builtin) (receiver : Option Value) (arguments : List Value)
    (span : Span) : (function.perform receiver arguments span).SeesOnly view := by
  unfold perform
  split
  · exact callInput_seesOnly _
  · exact callClock_seesOnly
  · exact callDelay_seesOnly _ _
  · exact callRead_seesOnly _ _ _
  · exact callWrite_seesOnly _ _ _ _ _
  · exact callRequest_seesOnly _ _ _ _ _ _
  · exact (display_seesOnly _).bind fun _ => .create _
  · exact .create _
  · exact .create _
  · exact callStringAt_seesOnly _ _
  · exact callStringAlter_seesOnly _ _ _
  · exact callStringLength_seesOnly _
  · exact callListAt_seesOnly _ _
  · exact callListAlter_seesOnly _ _ _
  · exact callListLength_seesOnly _
  · exact callListPush_seesOnly _ _
  · exact callListPop_seesOnly _
  · exact callMapGet_seesOnly _ _
  · exact callMapSet_seesOnly _ _ _
  · exact .fault _

/-- A built-in function does the same wherever it is called from. -/
theorem call_seesOnly (function : Builtin) (receiver : Option Value) (arguments : List Value)
    (span : Span) : (function.call receiver arguments span).SeesOnly view := by
  unfold call
  split
  · split
    · exact perform_seesOnly function receiver arguments span
    · exact .faultAt _ _
  · exact perform_seesOnly function receiver arguments span

end Builtin

end EventScript
