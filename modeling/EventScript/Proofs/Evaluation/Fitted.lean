import EventScript.Proofs.Evaluation.Atomicity
import EventScript.Proofs.Session.Disciplined

/-!
# Built-in functions have what they need

A program comes by a built-in function in two ways only: the global functions are there from the
start, and a method is looked up on a string, list or map, which goes with it. So all built-in
functions that there are fit their objects (`Value.Fitted`, `fittedDiscipline_lawful`). A call of
one fails because of the number of arguments, or it finds all arguments that it reads and the object
that it is a method of (`Builtin.Fits.call_finds`).
-/

namespace EventScript

open Run

/-- The global functions are bound to their names from the start, in the order of the list. -/
theorem Machine.lookup?_new (settings : Settings) (sink : Sink) (console : Console)
    (clock : WallClock)
    {identity : Nat} {function : Builtin} (listed : Builtin.globals[identity]? = some function) :
    let machine := Machine.new settings sink console clock
    machine.heap.lookup? machine.globals function.name =
      some (.builtin identity function none) := by
  match identity, listed with
  | 0, rfl | 1, rfl | 2, rfl | 3, rfl | 4, rfl | 5, rfl | 6, rfl | 7, rfl | 8, rfl => rfl

/-- The fault blames a call as such: for the number of arguments, for the object of a method, or for
what is called. -/
def Fault.isMisuse : Fault → Bool
  | arity .. | missingReceiver | wrongReceiver .. | notCallable _ => true
  | _ => false

/-- No other failure looks like a misuse. -/
theorem Fault.diagnostic_ne {fault misuse : Fault} (isMisuse : misuse.isMisuse = true)
    (other : fault.isMisuse = false) : fault.diagnostic ≠ misuse.diagnostic := by
  intro same
  have kinds : fault.kind = misuse.kind :=
    DiagnosticKind.runtime.inj (congrArg Diagnostic.kind same)
  have messages : fault.message = misuse.message := congrArg Diagnostic.message same
  cases misuse with
  | arity => cases fault <;> contradiction
  | missingReceiver =>
    have start : fault.message.toList.head? = some 'b' := by
      rw [messages]
      rfl
    cases fault <;> first | contradiction | (delta message at start; simp at start)
  | wrongReceiver method type =>
    have start : fault.message.toList.head? = some '\'' := by
      rw [messages]
      delta message
      simp
    -- The refusal of an index starts in the same way, but ends in another one.
    have ends : fault.message.toList.reverse.take 2 = ['.', 'r'] := by
      rw [messages]
      delta message
      simp
    cases fault with
    | indexNotNumber =>
      delta message at ends
      simp at ends
    | _ => first | contradiction | (delta message at start; simp at start)
  | notCallable type =>
    have start : fault.message.toList.take 5 = ['C', 'a', 'n', ' ', 'o'] := by
      rw [messages]
      delta message
      simp
    cases fault <;> first | contradiction | (delta message at start; simp at start)
  | _ => contradiction

namespace Builtin

/-- A function without an object is the global one of this number, and a method has an object of its
type. -/
def Fits (identity : Nat) (function : Builtin) : Option Value → Prop
  | none => globals[identity]? = some function
  | some object => function.owner? = some object.typeName

variable {identity : Nat} {function : Builtin} {receiver : Option Value} {arguments : List Value}
variable {span : Span} {machine : Machine}

/-- Global functions are no methods. -/
theorem owner?_of_global (listed : globals[identity]? = some function) :
    function.owner? = none := by
  have none : ∀ function ∈ globals, function.owner? = none := by decide
  exact none function (List.mem_of_getElem? listed)

/-- A function that fits its object does not complain of it. -/
theorem Fits.not_misuse (fits : function.Fits identity receiver) {fault : Fault}
    (may : function.MayReport receiver fault) : fault.isMisuse = false := by
  cases fault with
  | arity | notCallable => exact may.elim
  | missingReceiver =>
    obtain ⟨rfl, method⟩ := may
    rw [owner?_of_global fits] at method
    contradiction
  | wrongReceiver =>
    obtain ⟨object, rfl, other⟩ := may
    exact absurd fits other
  | _ => rfl

/-- The computation ends, and does not fail because of a misuse. -/
abbrev NoMisuse (outcome : Outcome Value) : Prop :=
  outcome.Is (fun _ _ => True) fun diagnostic _ =>
    ∀ misuse : Fault, misuse.isMisuse = true → diagnostic ≠ misuse.diagnostic

/-- A function that fits its object finds this and all arguments that it reads. -/
theorem Fits.perform_noMisuse (fits : function.Fits identity receiver)
    (accepts : function.arity.accepts arguments.length = true) :
    NoMisuse (function.perform receiver arguments span machine) := by
  refine perform_cases accepts ?line ?time ?other
  case line =>
    intro prompt
    refine (callInput_is receiver prompt machine).imp (fun _ _ _ => trivial) ?_
    rintro _ _ ⟨-, problem, rfl⟩ misuse isMisuse
    exact Fault.diagnostic_ne isMisuse rfl
  case time => exact (callClock_is receiver machine).imp (fun _ _ _ => trivial) fun _ _ =>
    False.elim
  case other =>
    refine fun does => (does machine).imp (fun _ _ _ => trivial) ?_
    rintro _ _ ⟨-, fault, may, rfl⟩ misuse isMisuse
    exact Fault.diagnostic_ne isMisuse (fits.not_misuse may)

/-- A call of a function that fits its object fails because of the number of arguments, before
anything is done, or it runs the function, which finds its object and all arguments that it
reads. -/
theorem Fits.call_finds (fits : function.Fits identity receiver) (arguments : List Value)
    (span : Span)
    (machine : Machine) :
    (∃ expected, function.arity = .exactly expected ∧ arguments.length ≠ expected ∧
      function.call receiver arguments span machine =
        .failed ((Fault.arity expected arguments.length).diagnosticAt span) machine) ∨
    function.call receiver arguments span = function.perform receiver arguments span ∧
      NoMisuse (function.perform receiver arguments span machine) := by
  refine (function.call_cases receiver arguments span machine).imp_right fun ⟨accepts, same⟩ => ?_
  exact ⟨same, fits.perform_noMisuse accepts⟩

end Builtin

/-- All built-in functions that there are in the value fit their objects. -/
inductive Value.Fitted : Value → Prop where
  | data {value : Value} (plain : value.isPlain = true) : Fitted value
  | function (identity : Nat) (closure : Closure) : Fitted (.function identity closure)
  | method {receiver : Value} (identity : Nat) (method : Method) (receives : Fitted receiver) :
      Fitted (.method identity receiver method)
  | classObject (cls : Class) : Fitted (.classObject cls)
  | builtin {identity : Nat} {function : Builtin} {receiver : Option Value}
      (fits : function.Fits identity receiver) (receives : ∀ object ∈ receiver, Fitted object) :
      Fitted (.builtin identity function receiver)

namespace Value

/-- A built-in function that is fitted fits its receiver. -/
theorem Fitted.fits {identity : Nat} {function : Builtin} {receiver : Option Value}
    (fitted : (Value.builtin identity function receiver).Fitted) :
    function.Fits identity receiver := by
  cases fitted with
  | data plain => contradiction
  | builtin fits => exact fits

/-- A method is found on objects of its type only. -/
theorem owner?_of_builtinMethod? {value : Value} {name : String} {function : Builtin}
    (found : value.builtinMethod? name = some function) :
    function.owner? = some value.typeName := by
  have strings : ∀ function ∈ Builtin.stringMethods, function.owner? = some "string" := by decide
  have lists : ∀ function ∈ Builtin.listMethods, function.owner? = some "list" := by decide
  have maps : ∀ function ∈ Builtin.mapMethods, function.owner? = some "map" := by decide
  have listed := List.mem_of_find?_eq_some found
  cases value with
  | string => exact strings function listed
  | list => exact lists function listed
  | map => exact maps function listed
  | _ => contradiction

end Value

/-- All values that there are have fitting built-in functions only. -/
def fittedDiscipline : Discipline where
  Place := Unit
  holds _ value := value.Fitted
  grows _ _ := True
  expr _ _ := True
  stmt _ _ := True
  around _ _ _ _ := True
  calls _ called := ∀ value ∈ called.receiver, value.Fitted
  names _ := True
  occurs _ := True

/-- Evaluation keeps built-in functions and their objects together. -/
theorem fittedDiscipline_lawful : fittedDiscipline.Lawful where
  grows_trans _ _ := trivial
  grows_of_keeps _ := trivial
  grows_define _ _ _ _ := trivial
  grows_newScope _ _ := trivial
  grows_start _ _ _ := trivial
  holds_grows fitted _ := fitted
  around_grows _ _ := trivial
  calls_grows fitted _ := fitted
  plain _ _ plain := .data plain
  global _ listed := .builtin listed nofun
  builtin _ fitted found :=
    .builtin (Value.owner?_of_builtinMethod? found) fun _ same => Option.some.inj same ▸ fitted
  bareClass _ _ _ _ := .classObject _
  expr_part _ _ := trivial
  expr_assigned _ _ := trivial
  stmt_expr _ _ := trivial
  stmt_part _ _ := trivial
  stmt_declared _ _ := trivial
  method _ _ _ := .method _ _ (.data rfl)
  super _ good _ _ _ this _ := .method _ _ (good.heap.lookup? this)
  closure _ _ _ := .function _ _
  made _ _ _ _ makes := (Outcome.done.inj makes).1 ▸ .classObject _
  block _ := trivial
  calls_function _ := nofun
  calls_method fitted := by
    cases fitted with
    | data plain => contradiction
    | method _ _ receives => exact fun _ same => Option.some.inj same ▸ receives
  calls_initializer _ _ := fun _ same => Option.some.inj same ▸ .data rfl
  receiver fitted := fitted
  body _ _ _ := ⟨(), trivial, fun _ _ => trivial⟩

/-- Programs bring no built-in functions along. -/
theorem fittedDiscipline_allows (program : Program) : fittedDiscipline.Allows program :=
  ⟨(), fun _ _ => trivial, fun _ _ => trivial⟩

end EventScript
