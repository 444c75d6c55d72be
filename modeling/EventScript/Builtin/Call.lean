import EventScript.Machine
import EventScript.Text.Blank
import EventScript.Text.Upper
import EventScript.Value.Display

/-!
# Calling built-in functions

`Builtin.call` checks the number of arguments and runs the function. Most functions give their
result at once. Those that read, write or request something check their arguments, begin an
operation, ask for the work to be done and give `nil`; the callback is called from the event loop
and never from here.
-/

namespace EventScript

/-- The method of a string, list or map. -/
def Value.builtinMethod? (value : Value) (name : String) : Option Builtin :=
  let methods := match value with
    | .string _ => Builtin.stringMethods
    | .list _ => Builtin.listMethods
    | .map _ => Builtin.mapMethods
    | _ => []
  methods.find? fun method => method.name == name

/-- The mode that a program names: `w`, `a` or `x`, with any number of plus signs after it. -/
def WriteMode.ofName? (name : String) : Option WriteMode :=
  match Text.dropTrailing (· == '+') name.toList with
  | ['w'] => some .truncate
  | ['a'] => some .append
  | ['x'] => some .createNew
  | _ => none

namespace Builtin

open Run

/-- The text of a value. -/
def display (value : Value) : Run String := do
  return value.display (← heap)

/-- Reads the time since the start. -/
def readTime : Run Duration := fun machine =>
  let (reading, machine) := machine.readTime
  .done reading machine

/-- The content of a string argument. -/
def expectString (function : Builtin) (value : Value) : Run String := do
  match value with
  | .string ref => return (← heap).text ref
  | other => fault (.stringExpected function.name other.typeName)

/-- A callback argument, which may be `nil`. -/
def expectCallback (function : Builtin) (value : Value) : Run (Option Value) :=
  if value.isNil then pure none
  else if value.isCallable then pure (some value)
  else fault (.callbackExpected function.name value.typeName)

/-- The index that a number denotes, truncated toward zero, if it lies in a sequence of that
length. -/
def indexWithin? (number : Float) (length : Nat) : Option Nat :=
  match Number.truncate? number with
  | some index => if 0 ≤ index ∧ index < length then some index.toNat else none
  | none => none

/-- An index argument for a sequence of that length. -/
def expectIndex (function : Builtin) (value : Value) (length : Nat) : Run Nat := do
  match value.number? with
  | none => fault (.indexNotNumber function.name (← display value))
  | some number =>
    match indexWithin? number length with
    | some index => return index
    | none => fault (.indexOutOfBounds function.name (← display value) length)

/-- The string that a method belongs to. -/
def stringReceiver (function : Builtin) (receiver : Option Value) : Run Nat :=
  match receiver with
  | none => fault .missingReceiver
  | some (.string ref) => pure ref
  | some _ => fault (.wrongReceiver function.name "string")

/-- The list that a method belongs to. -/
def listReceiver (function : Builtin) (receiver : Option Value) : Run Nat :=
  match receiver with
  | none => fault .missingReceiver
  | some (.list ref) => pure ref
  | some _ => fault (.wrongReceiver function.name "list")

/-- The map that a method belongs to. -/
def mapReceiver (function : Builtin) (receiver : Option Value) : Run Nat :=
  match receiver with
  | none => fault .missingReceiver
  | some (.map ref) => pure ref
  | some _ => fault (.wrongReceiver function.name "map")

/-- Takes a line off the standard input. -/
def takeLine : Run (Option (Option String)) := fun machine =>
  let (line, console) := machine.console.takeLine
  .done line { machine with console }

/-- Writes a prompt and reads a line, which is given without its end; `nil` when there is none. -/
def callInput (prompt : Value) : Run Value := do
  let prompt ← display prompt
  modify fun machine => { machine with console := machine.console.write prompt }
  match ← takeLine with
  | none => return .nil
  | some none => fault (.inputFailed invalidUtf8)
  | some (some line) =>
    let content := Text.dropTrailing (fun c => c == '\n' || c == '\r') line.toList
    create fun heap => heap.newString (String.ofList content)

/-- The time in seconds since 1970. -/
def callClock : Run Value := do
  modify fun machine => { machine with clock := machine.clock.read.2 }
  let nanoseconds := (← machine).clock.current
  let seconds := (nanoseconds / Duration.perSecond).toFloat
  return .number (seconds + (nanoseconds % Duration.perSecond).toFloat / 1000000000)

/-- Queues a call for after some milliseconds. The two arguments may come in either order. -/
def callDelay (first second : Value) : Run Value := do
  let (milliseconds, callback) := if first.isCallable then (second, first) else (first, second)
  if !callback.isCallable then fault (.callbackExpected delay.name callback.typeName)
  else match milliseconds.number? with
    | none => fault (.millisecondsExpected milliseconds.typeName)
    | some number =>
      match Duration.ofMilliseconds? number with
      | none => fault (.delayTooLong (Number.display number))
      | some wait =>
        let reading ← readTime
        modify fun machine =>
          { machine with events := machine.events.schedule reading wait callback [] }
        return .nil

/-- Begins an operation and asks for its work. -/
def launch (function : Builtin) (span : Span) (callback : Option Value) (job : Job) :
    Run Value := do
  modify fun machine =>
    let (operation, events) := machine.events.begin function.name span callback
    { machine with events, launched := machine.launched ++ [(operation, job)] }
  return .nil

/-- Reads a file. -/
def callRead (span : Span) (path callback : Value) : Run Value := do
  let path ← expectString read path
  let callback ← expectCallback read callback
  launch read span callback (.readFile path)

/-- Writes the text of a value to a file. -/
def callWrite (span : Span) (path mode data callback : Value) : Run Value := do
  let path ← expectString write path
  let modeName ← expectString write mode
  match WriteMode.ofName? modeName with
  | none => fault (.unknownFileMode modeName)
  | some mode =>
    let data ← display data
    let callback ← expectCallback write callback
    launch write span callback (.writeFile path mode data)

/-- The headers of a request, from a map or `nil`. -/
def expectHeaders (value : Value) : Run (List (String × String)) := do
  match value with
  | .nil => return []
  | .map ref =>
    let heap ← heap
    return (heap.content ref).values.map fun (key, value) => (key.display heap, value.display heap)
  | other => fault (.headersExpected other.typeName)

/-- Sends a request to a network address. -/
def callRequest (span : Span) (url body headers method callback : Value) : Run Value := do
  let url ← expectString request url
  let body ← if body.isNil then pure none else some <$> display body
  let headers ← expectHeaders headers
  let methodName := Text.upper (← expectString request method)
  let settings := (← machine).settings
  if settings.namesMethod methodName then
    let callback ← expectCallback request callback
    let timeout := settings.requestTimeout
    launch request span callback (.request { url, method := methodName, headers, body, timeout })
  else fault (.unknownRequestMethod methodName)

/-- The character of a string at an index, as a string. -/
def callStringAt (receiver : Option Value) (index : Value) : Run Value := do
  let ref ← stringReceiver stringAt receiver
  let content := ((← heap).text ref).toList
  let index ← expectIndex stringAt index content.length
  create fun heap => heap.newString (String.ofList (content[index]?.toList))

/-- Replaces a character of a string by the text of a value. -/
def callStringAlter (receiver : Option Value) (index replacement : Value) : Run Value := do
  let ref ← stringReceiver stringAlter receiver
  let content := ((← heap).text ref).toList
  let index ← expectIndex stringAlter index content.length
  let replacement ← display replacement
  let altered := content.take index ++ replacement.toList ++ content.drop (index + 1)
  modifyHeap fun heap => heap.setText ref (String.ofList altered)
  return .nil

/-- The number of characters of a string. -/
def callStringLength (receiver : Option Value) : Run Value := do
  let ref ← stringReceiver stringLength receiver
  return .number ((← heap).text ref).toList.length.toFloat

/-- The element of a list at an index. -/
def callListAt (receiver : Option Value) (index : Value) : Run Value := do
  let ref ← listReceiver listAt receiver
  let items := (← heap).items ref
  let index ← expectIndex listAt index items.size
  return items[index]?.getD .nil

/-- Replaces an element of a list. -/
def callListAlter (receiver : Option Value) (index item : Value) : Run Value := do
  let ref ← listReceiver listAlter receiver
  let length := ((← heap).items ref).size
  let index ← expectIndex listAlter index length
  modifyHeap fun heap => heap.modifyItems ref fun items => items.setIfInBounds index item
  return .nil

/-- The number of elements of a list. -/
def callListLength (receiver : Option Value) : Run Value := do
  let ref ← listReceiver listLength receiver
  return .number ((← heap).items ref).size.toFloat

/-- Adds an element to the end of a list. -/
def callListPush (receiver : Option Value) (item : Value) : Run Value := do
  let ref ← listReceiver listPush receiver
  modifyHeap fun heap => heap.modifyItems ref fun items => items.push item
  return .nil

/-- Removes the last element of a list and gives it. -/
def callListPop (receiver : Option Value) : Run Value := do
  let ref ← listReceiver listPop receiver
  match (← heap).lastItem? ref with
  | none => fault .popFromEmpty
  | some last =>
    modifyHeap fun heap => heap.modifyItems ref fun items => items.pop
    return last

/-- The value that a map has for a key, `nil` if there is none. -/
def callMapGet (receiver : Option Value) (key : Value) : Run Value := do
  let ref ← mapReceiver mapGet receiver
  let heap ← heap
  match (heap.content ref).find? (heap.keyOf key) with
  | some (_, value) => return value
  | none => return .nil

/-- The value to keep as a key: for a string a copy, which no program can alter. -/
def keptKey (key : Value) : Run Value := do
  match key with
  | .string ref => create fun heap => heap.newString (heap.text ref)
  | other => return other

/-- Sets the value that a map has for a key. -/
def callMapSet (receiver : Option Value) (key value : Value) : Run Value := do
  let ref ← mapReceiver mapSet receiver
  let key ← keptKey key
  let filed := (← heap).keyOf key
  modifyHeap fun heap => heap.modifyContent ref fun content => content.insert filed (key, value)
  return .nil

/-- Runs a function on as many arguments as it takes. -/
def perform (function : Builtin) (receiver : Option Value) (arguments : List Value) (span : Span) :
    Run Value :=
  match function, arguments with
  | input, [prompt] => callInput prompt
  | clock, [] => callClock
  | delay, [first, second] => callDelay first second
  | read, [path, callback] => callRead span path callback
  | write, [path, mode, data, callback] => callWrite span path mode data callback
  | request, [url, body, headers, method, callback] =>
    callRequest span url body headers method callback
  | string, [value] => do
    let content ← display value
    create fun heap => heap.newString content
  | list, items => create fun heap => heap.newList items.toArray
  | map, [] => create fun heap => heap.newMap {}
  | stringAt, [index] => callStringAt receiver index
  | stringAlter, [index, replacement] => callStringAlter receiver index replacement
  | stringLength, [] => callStringLength receiver
  | listAt, [index] => callListAt receiver index
  | listAlter, [index, item] => callListAlter receiver index item
  | listLength, [] => callListLength receiver
  | listPush, [item] => callListPush receiver item
  | listPop, [] => callListPop receiver
  | mapGet, [key] => callMapGet receiver key
  | mapSet, [key, value] => callMapSet receiver key value
  | _, _ => fault (.arity 0 arguments.length)

/-- Calls a function, which fails at `span` if the number of arguments is wrong. -/
def call (function : Builtin) (receiver : Option Value) (arguments : List Value) (span : Span) :
    Run Value :=
  match function.arity with
  | .exactly expected =>
    if expected = arguments.length then function.perform receiver arguments span
    else faultAt (.arity expected arguments.length) span
  | .any => function.perform receiver arguments span

end Builtin

end EventScript
