import EventScript.Builtin.Call

/-!
# Evaluation

What expressions, statements and calls do. Statements end in a `Flow`: they go on, return from the
function, or break out of a loop. A block and a call run in a scope of their own, and however they
end the machine goes back to the scope it was in (`Run.inScope`, `Run.inCall`).

The mutually recursive part takes a bound on its depth. Each round of a loop and each nested
construct takes one off, so a program that ends does so within every large enough bound.
-/

namespace EventScript

/-- How a statement ends. -/
inductive Flow where
  /-- The next statement is run. -/
  | next
  /-- The function returns this value. -/
  | returned (value : Value)
  /-- The loop around ends. -/
  | broke
deriving Inhabited

/-- What is needed to run the body of a function: its declaration, the scope around it, the class
for `super`, and for a method the object it is called on. -/
structure Activation where
  decl : FunctionDecl
  scope : Nat
  home : Option Class := none
  receiver : Option Value := none
  /-- Whether the call gives the object, whatever the body returns. -/
  initializes : Bool := false

namespace Activation

/-- Calling a closure. -/
def ofClosure (closure : Closure) : Activation :=
  { decl := closure.decl, scope := closure.scope, home := closure.home }

/-- Calling a method on an object. -/
def ofMethod (receiver : Value) (method : Method) : Activation :=
  { decl := method.decl
    scope := method.owner.scope
    home := some method.owner
    receiver := some receiver
    initializes := method.decl.isInitializer }

/-- The bindings that the body starts with: the object, then the parameters. -/
def bindings (activation : Activation) (arguments : List Value) : List (String × Value) :=
  let parameters := (activation.decl.parameters.map Parameter.name).zip arguments
  match activation.receiver with
  | some receiver => ("this", receiver) :: parameters
  | none => parameters

/-- What a call gives when the body has ended. -/
def result (activation : Activation) (flow : Flow) : Value :=
  if activation.initializes then activation.receiver.getD .nil
  else match flow with
    | .returned value => value
    | _ => .nil

end Activation

/-- Binds several names in a scope, one after the other. -/
def Heap.defineAll (heap : Heap) (scope : Nat) (bindings : List (String × Value)) : Heap :=
  bindings.foldl (fun heap binding => heap.define scope binding.1 binding.2) heap

namespace Run

variable {α : Type}

/-- Runs in another scope, and goes back to the present scope however that ends. -/
@[inline] def inScope (scope : Nat) (run : Run α) : Run α := fun machine =>
  match run { machine with scope } with
  | .done value later => .done value { later with scope := machine.scope }
  | .failed diagnostic later => .failed diagnostic { later with scope := machine.scope }
  | .exhausted => .exhausted

/-- Runs in another scope with one more call open, and closes the call however that ends. -/
@[inline] def inCall (frame : Frame) (scope : Nat) (run : Run α) : Run α := fun machine =>
  match run { machine with scope, frames := frame :: machine.frames } with
  | .done value later =>
    .done value { later with scope := machine.scope, frames := later.frames.tail }
  | .failed diagnostic later =>
    .failed diagnostic { later with scope := machine.scope, frames := later.frames.tail }
  | .exhausted => .exhausted

/-- The value of a variable. -/
def readVariable (span : Span) (name : String) : Run Value := fun machine =>
  match machine.heap.lookup? machine.scope name with
  | some value => .done value machine
  | none => faultAt (.undefinedVariable name) span machine

/-- Rebinds a variable. -/
def assignVariable (span : Span) (name : String) (value : Value) : Run Unit := fun machine =>
  match machine.heap.binder? machine.scope name with
  | some binder => .done () { machine with heap := machine.heap.define binder name value }
  | none => faultAt (.undefinedVariable name) span machine

/-- Declares a variable in the present scope. -/
def declare (name : String) (value : Value) : Run Unit := fun machine =>
  .done () { machine with heap := machine.heap.define machine.scope name value }

/-- The value of a literal. A text is a new string each time. -/
def literal (value : Literal) : Run Value :=
  match value with
  | .number value => pure (.number value)
  | .text content => create fun heap => heap.newString content
  | .bool value => pure (.bool value)
  | .nil => pure .nil

/-- The result of an operator on two numbers. -/
def arithmetic (op : BinaryOp) (left right : Float) : Value :=
  match op with
  | .add => .number (left + right)
  | .subtract => .number (left - right)
  | .multiply => .number (left * right)
  | .divide => .number (left / right)
  | .less => .bool (left < right)
  | .lessEqual => .bool (left <= right)
  | .greater => .bool (left > right)
  | .greaterEqual => .bool (left >= right)
  | .equal => .bool (left == right)
  | .notEqual => .bool (left != right)

/-- The result of an operator that wants numbers. -/
def numeric (op : BinaryOp) (left right : Value) : Run Value :=
  match left.number?, right.number? with
  | some a, some b => pure (arithmetic op a b)
  | _, _ =>
    match op with
    | .add => fault .addedMixed
    | _ => fault (.operandTypes op.spelling left.typeName right.typeName)

/-- The result of an operator on two values. -/
def binary (op : BinaryOp) (left right : Value) : Run Value := do
  match op, left, right with
  | .equal, _, _ => return .bool ((← heap).equal left right)
  | .notEqual, _, _ => return .bool (!(← heap).equal left right)
  | .add, .string a, .string b => create fun heap => heap.newString (heap.text a ++ heap.text b)
  | _, _, _ => numeric op left right

/-- The result of an operator on one value. -/
def unary (span : Span) (op : UnaryOp) (operand : Value) : Run Value :=
  match op with
  | .not => pure (.bool (!operand.isTruthy))
  | .negate =>
    match operand.number? with
    | some number => pure (.number (-number))
    | none => faultAt .negatedNonNumber span

/-- Whether the left operand decides a logical operator. -/
def decides (op : LogicalOp) (left : Value) : Bool :=
  match op with
  | .or => left.isTruthy
  | .and => !left.isTruthy

/-- A property of a value. Fields of an instance come before methods of its class. -/
def property (value : Value) (name : String) : Run Value := do
  match value with
  | .object ref =>
    let object := (← heap).object ref
    match object.fields.find? name with
    | some field => return field
    | none =>
      match object.cls.findMethod? name with
      | some method => create fun heap => heap.newMethod value method
      | none => fault (.undefinedProperty name)
  | .string _ | .list _ | .map _ =>
    match value.builtinMethod? name with
    | some method => create fun heap => heap.newBuiltin method (some value)
    | none => fault (.unknownMethod name value.typeName)
  | _ => fault (.noProperties value.typeName)

/-- The class whose method is running, if any. -/
def home : Run (Option Class) := fun machine =>
  .done (machine.frames.head?.bind Frame.home) machine

/-- The method of the superclass of the running method's class, on the running method's object. -/
def superMethod (span : Span) (name : String) : Run Value := do
  match (← home).bind Class.superclass? with
  | none => faultAt .superWithoutSuperclass span
  | some superclass =>
    let receiver ← readVariable span "this"
    match superclass.findMethod? name with
    | none => faultAt (.undefinedProperty name) span
    | some method => create fun heap => heap.newMethod receiver method

/-- Closes a declaration over the present scope. A function made while a method runs keeps its
class. -/
def close (decl : FunctionDecl) : Run Value := do
  let home ← home
  let scope := (← machine).scope
  create fun heap => heap.newFunction { decl, scope, home }

/-- The class that a class declaration inherits from. -/
def resolveSuperclass (superclass : Option SuperclassName) : Run (Option Class) := do
  match superclass with
  | none => return none
  | some named =>
    match ← readVariable named.span named.name with
    | .classObject cls => return some cls
    | _ => faultAt .superclassNotClass named.span

/-- A new class. Of methods that share a name the last one counts. -/
def makeClass (name : String) (superclass : Option Class) (methods : List FunctionDecl) :
    Run Value := do
  let scope := (← machine).scope
  let identity ← create Heap.newIdentity
  return .classObject
    { identity
      name
      methods := OrderedMap.ofList (methods.map fun decl => (decl.name, decl))
      scope
      ancestors := superclass.elim [] Class.lineage }

/-- Prints the text of a value. -/
def printValue (value : Value) : Run Unit := fun machine =>
  .done () (machine.print (value.display machine.heap))

/-- Checks that a function can be called now with that many arguments. -/
def checkCall (decl : FunctionDecl) (count : Nat) : Run Unit := fun machine =>
  if count ≠ decl.parameters.length then fault (.arity decl.parameters.length count) machine
  else if machine.settings.maxCallDepth ≤ machine.frames.length then
    fault (.stackOverflow machine.settings.maxCallDepth decl.name) machine
  else .done () machine

/-- A new scope for a block. -/
def blockScope : Run Nat := fun machine =>
  let (scope, heap) := machine.heap.newScope (some machine.scope)
  .done scope { machine with heap }

/-- A new scope for the body of a function, with what the body starts with. -/
def bodyScope (activation : Activation) (arguments : List Value) : Run Nat :=
  create fun heap =>
    let (scope, heap) := heap.newScope (some activation.scope)
    (scope, heap.defineAll scope (activation.bindings arguments))

end Run

open Run

mutual

/-- The value of an expression. -/
def evaluate : Nat → Expr → Run Value
  | 0, _ => exhaust
  | bound + 1, expr =>
    match expr with
    | .literal _ value => literal value
    | .variable span name => readVariable span name
    | .assign span name value => do
      let value ← evaluate bound value
      assignVariable span name value
      return value
    | .binary span op left right => do
      let left ← evaluate bound left
      let right ← evaluate bound right
      withSpan span (binary op left right)
    | .logical _ op left right => do
      let left ← evaluate bound left
      if decides op left then return left else evaluate bound right
    | .unary span op operand => do
      let operand ← evaluate bound operand
      unary span op operand
    | .call span callee arguments => do
      let callee ← evaluate bound callee
      let arguments ← evaluateAll bound arguments
      orSpan span (callValue bound callee arguments span)
    | .get span object name => do
      let object ← evaluate bound object
      withSpan span (property object name)
    | .set span object name value => do
      match ← evaluate bound object with
      | .object ref =>
        let value ← evaluate bound value
        modifyHeap fun heap => heap.setField ref name value
        return value
      | _ => faultAt .noFields span
    | .group _ inner => evaluate bound inner
    | .this span => readVariable span "this"
    | .super span method => superMethod span method

/-- The values of expressions, from left to right. -/
def evaluateAll : Nat → List Expr → Run (List Value)
  | 0, _ => exhaust
  | _ + 1, [] => return []
  | bound + 1, first :: rest => do
    let value ← evaluate bound first
    return value :: (← evaluateAll bound rest)

/-- Runs a statement. -/
def execute : Nat → Stmt → Run Flow
  | 0, _ => exhaust
  | bound + 1, stmt =>
    match stmt with
    | .letDecl _ name initializer => do
      let value ← match initializer with
        | some value => evaluate bound value
        | none => pure .nil
      declare name value
      return .next
    | .function _ decl => do
      let function ← close decl
      declare decl.name function
      return .next
    | .classDecl _ name superclass methods => do
      let superclass ← resolveSuperclass superclass
      let cls ← makeClass name superclass methods
      declare name cls
      return .next
    | .expression _ value => do
      let _ ← evaluate bound value
      return .next
    | .print _ value => do
      let value ← evaluate bound value
      printValue value
      return .next
    | .block _ body => do
      let scope ← blockScope
      inScope scope (executeAll bound body)
    | .conditional _ condition thenBranch elseBranch => do
      if (← evaluate bound condition).isTruthy then execute bound thenBranch
      else match elseBranch with
        | some branch => execute bound branch
        | none => return .next
    | .while _ condition body => executeLoop bound condition body
    | .return _ value =>
      match value with
      | some value => do return .returned (← evaluate bound value)
      | none => return .returned .nil
    | .break _ => return .broke

/-- Runs statements up to the first that does not go on to the next. -/
def executeAll : Nat → List Stmt → Run Flow
  | 0, _ => exhaust
  | _ + 1, [] => return .next
  | bound + 1, first :: rest => do
    match ← execute bound first with
    | .next => executeAll bound rest
    | other => return other

/-- Runs the rounds of a loop. -/
def executeLoop : Nat → Expr → Stmt → Run Flow
  | 0, _, _ => exhaust
  | bound + 1, condition, body => do
    if (← evaluate bound condition).isTruthy then
      match ← execute bound body with
      | .next => executeLoop bound condition body
      | .broke => return .next
      | .returned value => return .returned value
    else return .next

/-- Calls a value. Only built-in functions need to know where the call stands. -/
def callValue : Nat → Value → List Value → Span → Run Value
  | 0, _, _, _ => exhaust
  | bound + 1, callee, arguments, span =>
    match callee with
    | .function _ closure => activate bound (.ofClosure closure) arguments
    | .method _ receiver method => activate bound (.ofMethod receiver method) arguments
    | .classObject cls => instantiate bound cls arguments
    | .builtin _ function receiver => function.call receiver arguments span
    | _ => fault (.notCallable callee.typeName)

/-- Makes an instance of a class and runs its initializer. -/
def instantiate : Nat → Class → List Value → Run Value
  | 0, _, _ => exhaust
  | bound + 1, cls, arguments =>
    if arguments.length ≠ cls.arity then fault (.arity cls.arity arguments.length)
    else do
      let object ← create fun heap => heap.newInstance cls
      match cls.findMethod? FunctionDecl.initializerName with
      | some method =>
        let _ ← activate bound (.ofMethod object method) arguments
        return object
      | none => return object

/-- Runs the body of a function. -/
def activate : Nat → Activation → List Value → Run Value
  | 0, _, _ => exhaust
  | bound + 1, activation, arguments => do
    checkCall activation.decl arguments.length
    let scope ← bodyScope activation arguments
    let flow ← inCall ⟨activation.home⟩ scope (executeAll bound activation.decl.body)
    return activation.result flow

end

/-- The arguments that a callback gets for the result of an operation. -/
def Payload.arguments (payload : Payload) : Run (List Value) := do
  match payload with
  | .unit => return []
  | .text content => return [← create fun heap => heap.newString content]
  | .response status headers body =>
    let identity ← create Heap.newIdentity
    let scope := (← machine).globals
    let cls : Class := { identity, name := "Response", methods := {}, scope }
    let body ← create fun heap => heap.newString body
    let pairs ← headers.mapM fun (name, value) => do
      let name ← create fun heap => heap.newString name
      let value ← create fun heap => heap.newString value
      return (name, value)
    let headers ← create fun heap => heap.newMap (heap.contentOf pairs)
    let fields := OrderedMap.ofList
      [("body", body), ("headers", headers), ("status", Value.number status.toFloat)]
    let response ← create fun heap =>
      let (ref, instances) := heap.instances.alloc { cls, fields }
      (Value.object ref, { heap with instances })
    return [response]

/-- Does what a task is for. -/
def runAction (bound : Nat) (action : Action Value) : Run Unit := do
  match action with
  | .call callee arguments =>
    let _ ← callValue bound callee arguments default
    return ()
  | .deliver callback result =>
    let arguments ← result.arguments
    let _ ← callValue bound callback arguments default
    return ()
  | .fail diagnostic => raise diagnostic

end EventScript
