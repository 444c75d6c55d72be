import EventScript.Diagnostic
import EventScript.Syntax

/-!
# Faults of a running program

The ways in which a step of a running program can fail, each with its kind and wording. A fault
becomes a diagnostic by `Fault.diagnostic`, which points nowhere yet: the expression or call
around it says where.
-/

namespace EventScript

/-- Why a step of a running program failed. Types are given by name and values by their text. -/
inductive Fault where
  | undefinedVariable (name : String)
  | undefinedProperty (name : String)
  /-- A built-in object has no such method. -/
  | unknownMethod (name type : String)
  /-- Only instances and built-in objects have properties. -/
  | noProperties (type : String)
  /-- Only instances have fields that can be set. -/
  | noFields
  | notCallable (type : String)
  | superclassNotClass
  | superWithoutSuperclass
  | negatedNonNumber
  | addedMixed
  /-- An operator other than `+` met something other than two numbers. -/
  | operandTypes (op left right : String)
  | arity (expected received : Nat)
  | stackOverflow (limit : Nat) (function : String)
  | missingReceiver
  | wrongReceiver (method type : String)
  | indexNotNumber (method value : String)
  | indexOutOfBounds (method value : String) (length : Nat)
  | popFromEmpty
  | stringExpected (function type : String)
  | callbackExpected (function type : String)
  | millisecondsExpected (type : String)
  | delayTooLong (milliseconds : String)
  | unknownFileMode (mode : String)
  | headersExpected (type : String)
  | unknownRequestMethod (method : String)
  | inputFailed (problem : String)
deriving DecidableEq, Inhabited

namespace Fault

/-- The kind of the fault. -/
def kind : Fault → RuntimeKind
  | undefinedVariable _ => .undefinedVariable
  | undefinedProperty _ | unknownMethod .. => .undefinedProperty
  | noProperties _ | noFields | notCallable _ | superclassNotClass | superWithoutSuperclass
  | negatedNonNumber | addedMixed | operandTypes .. | missingReceiver | wrongReceiver ..
  | indexNotNumber .. | stringExpected .. | callbackExpected .. | millisecondsExpected _
  | delayTooLong _ | headersExpected _ => .type
  | arity .. => .arity
  | stackOverflow .. => .stackOverflow
  | indexOutOfBounds .. | popFromEmpty => .index
  | unknownFileMode _ | unknownRequestMethod _ | inputFailed _ => .native

/-- The wording of the fault. -/
def message : Fault → String
  | undefinedVariable name => "Undefined variable '" ++ name ++ "'."
  | undefinedProperty name => "Undefined property '" ++ name ++ "'."
  | unknownMethod name type => "Can't call '" ++ name ++ "' on a " ++ type ++ "."
  | noProperties type => "Only instances have properties, not " ++ type ++ "."
  | noFields => "Only instances have fields."
  | notCallable type => "Can only call functions and classes, not " ++ type ++ "."
  | superclassNotClass => "Superclass must be a class."
  | superWithoutSuperclass => "Can't use 'super' in a class with no superclass."
  | negatedNonNumber => "Operand must be a number."
  | addedMixed => "Operands must be two numbers or two strings."
  | operandTypes op left right =>
    "Operands of '" ++ op ++ "' must be numbers, got " ++ left ++ " and " ++ right ++ "."
  | arity expected received =>
    "Expected " ++ toString expected ++ " arguments but got " ++ toString received ++ "."
  | stackOverflow limit function =>
    "Stack overflow: call depth exceeded " ++ toString limit ++ " in '" ++ function ++ "'."
  | missingReceiver => "built-in method called without a receiver."
  | wrongReceiver method type => "'" ++ method ++ "' expects a " ++ type ++ " receiver."
  | indexNotNumber method value =>
    "'" ++ method ++ "' only accepts a number index. Got '" ++ value ++ "'."
  | indexOutOfBounds method value length =>
    "'" ++ method ++ "' index " ++ value ++ " out of bounds for length " ++ toString length ++ "."
  | popFromEmpty => "Can't pop from an empty list."
  | stringExpected function type => "`" ++ function ++ "` expected a string but got " ++ type ++ "."
  | callbackExpected function type =>
    "`" ++ function ++ "` expected a callback but got " ++ type ++ "."
  | millisecondsExpected type =>
    "`delay` expected milliseconds as a number but got " ++ type ++ "."
  | delayTooLong milliseconds => "`delay` cannot wait " ++ milliseconds ++ " milliseconds."
  | unknownFileMode mode => "Unknown file mode '" ++ mode ++ "'."
  | headersExpected type => "`request` expected headers as a map but got " ++ type ++ "."
  | unknownRequestMethod method => "Unknown request method '" ++ method ++ "'."
  | inputFailed problem => "input failed: " ++ problem

/-- The fault as a diagnostic that points nowhere. -/
def diagnostic (fault : Fault) : Diagnostic :=
  Diagnostic.ofRuntime fault.kind fault.message

/-- The fault as a diagnostic that points at `span`. -/
def diagnosticAt (fault : Fault) (span : Span) : Diagnostic :=
  fault.diagnostic.withSpan span

end Fault

end EventScript
