import EventScript.Session.Lines

/-!
# The command line

The interpreter is called with a command and options. The command is `run` with the path of a
script, `eval` with a source text, or `repl`, which reads lines; without one it is `repl`. Options
stand before or after the command, each at most once on either side, and those after it win. A
variable of the environment can stand in for each option and gives way to it.
`Invocation.ofArguments?` reads all this, and `Invocation.execute` does it and gives the exit
code.
-/

namespace EventScript

/-- What the interpreter is called for. -/
inductive Command where
  | run (script : String)
  | eval (source : String)
  | repl
deriving DecidableEq, Inhabited

/-- The options given on one side of the command, or by the environment. -/
structure Options where
  virtualTime : Option Bool := none
  /-- In milliseconds. -/
  requestTimeout : Option Nat := none
  maxCallDepth : Option Nat := none
deriving DecidableEq, Inhabited

/-- A call of the interpreter. -/
structure Invocation where
  command : Command
  options : Options
deriving DecidableEq, Inhabited

/-- An unsigned number of 64 bits in decimal digits. A plus sign may stand before it. -/
def readUnsigned? (text : String) : Option Nat :=
  let digits := match text.toList with
    | '+' :: digits => digits
    | digits => digits
  if digits.isEmpty ∨ ¬digits.all Char.isDigit then none
  else
    let number := digits.foldl (fun total c => total * 10 + (c.toNat - 48)) 0
    if number < Nat.pow 2 64 then some number else none

/-- A truth value, spelled out. -/
def readBool? : String → Option Bool
  | "true" => some true
  | "false" => some false
  | _ => none

namespace Options

/-- The options of `winner`, and those of `other` that it leaves open. -/
def orElse (winner other : Options) : Options :=
  { virtualTime := winner.virtualTime <|> other.virtualTime
    requestTimeout := winner.requestTimeout <|> other.requestTimeout
    maxCallDepth := winner.maxCallDepth <|> other.maxCallDepth }

/-- Sets an option that takes a value. There is no result if it was set or the value will not do. -/
def set? (name value : String) (options : Options) : Option Options := do
  match name with
  | "--request-timeout-ms" =>
    if options.requestTimeout.isSome then none
    else return { options with requestTimeout := some (← readUnsigned? value) }
  | "--max-call-depth" =>
    if options.maxCallDepth.isSome then none
    else return { options with maxCallDepth := some (← readUnsigned? value) }
  | _ => none

/-- The variable that stands in for `--virtual-time`. -/
def virtualTimeVariable : String := "HOOT_VIRTUAL_TIME"

/-- The variable that stands in for `--request-timeout-ms`. -/
def requestTimeoutVariable : String := "HOOT_REQUEST_TIMEOUT_MS"

/-- The variable that stands in for `--max-call-depth`. -/
def maxCallDepthVariable : String := "HOOT_MAX_CALL_DEPTH"

/-- The variables of the environment that stand in for options. -/
def variableNames : List String :=
  [virtualTimeVariable, requestTimeoutVariable, maxCallDepthVariable]

/-- The value of a variable, unless the option that it stands in for is given. A value that will not
do leaves no result. -/
def readVariable? {α : Type} (environment : String → Option String) (given : Option α)
    (name : String)
    (parse : String → Option α) : Option (Option α) :=
  if given.isSome then some none else (environment name).mapM parse

/-- The options that the environment gives where `given` leaves them open. -/
def fallback? (given : Options) (environment : String → Option String) : Option Options := do
  let virtualTime ← readVariable? environment given.virtualTime virtualTimeVariable readBool?
  let requestTimeout ←
    readVariable? environment given.requestTimeout requestTimeoutVariable readUnsigned?
  let maxCallDepth ← readVariable? environment given.maxCallDepth maxCallDepthVariable readUnsigned?
  return { virtualTime, requestTimeout, maxCallDepth }

/-- The settings that the options stand for. -/
def settings (options : Options) (scriptName : Option String) : Settings :=
  let standard : Settings := {}
  { scriptName
    clock := if options.virtualTime = some true then .virtual else .real
    requestTimeout := match options.requestTimeout with
      | some milliseconds => ⟨milliseconds * 1000000⟩
      | none => standard.requestTimeout
    maxCallDepth := options.maxCallDepth.getD standard.maxCallDepth }

end Options

/-- What stands on one side of the command: options, operands, and what was not read. -/
structure ArgumentGroup where
  options : Options := {}
  operands : List String := []
  rest : List String := []

namespace ArgumentGroup

/-- Whether an argument has the form of an option. A single dash has not. -/
def isOption (argument : String) : Bool :=
  match argument.toList with
  | '-' :: _ :: _ => true
  | _ => false

/-- The name and the value of an option with an equals sign in it. -/
def splitOption? (argument : String) : Option (String × String) :=
  let name := argument.toList.takeWhile (· ≠ '=')
  match argument.toList.drop name.length with
  | _ :: value => some (String.ofList name, String.ofList value)
  | [] => none

/-- Reads arguments up to the first operand that the group has no room for. After `--` all are
operands. -/
def read? (room : Nat) : List String → ArgumentGroup → Option ArgumentGroup
  | [], group => some group
  | argument :: rest, group =>
    if argument = "--" then some { group with operands := group.operands ++ rest }
    else if isOption argument then
      if argument = "--virtual-time" then
        if group.options.virtualTime.isSome then none
        else read? room rest { group with options :=
          { group.options with virtualTime := some true } }
      else match splitOption? argument with
        | some (name, value) => do
          read? room rest { group with options := ← group.options.set? name value }
        | none =>
          match rest with
          | value :: rest => do
            if isOption value then none
            else read? room rest { group with options := ← group.options.set? argument value }
          | [] => none
    else if group.operands.length < room then
      read? room rest { group with operands := group.operands ++ [argument] }
    else some { group with rest := argument :: rest }

end ArgumentGroup

namespace Command

/-- How many operands a command takes. -/
def room? : String → Option Nat
  | "run" => some 1
  | "eval" => some 1
  | "repl" => some 0
  | _ => none

/-- The command of a name with its operands. The path of a script is not empty. -/
def ofOperands? : String → List String → Option Command
  | "run", [script] => if script = "" then none else some (.run script)
  | "eval", [source] => some (.eval source)
  | "repl", [] => some .repl
  | _, _ => none

end Command

namespace Invocation

/-- Reads arguments. Each side of the command is completed from the environment, whose variables
must be right wherever they are needed. -/
def ofArguments? (environment : String → Option String) (arguments : List String) :
    Option Invocation := do
  let before ← ArgumentGroup.read? 0 arguments {}
  let fallback ← before.options.fallback? environment
  match before.operands, before.rest with
  | [], [] => return { command := .repl, options := before.options.orElse fallback }
  | [], name :: arguments =>
    let after ← ArgumentGroup.read? (← Command.room? name) arguments {}
    let inner ← after.options.fallback? environment
    if after.rest.isEmpty then
      let command ← Command.ofOperands? name after.operands
      let given := after.options.orElse before.options
      return { command, options := given.orElse (inner.orElse fallback) }
    else none
  | _ :: _, _ => none

/-- The exit code for a call that makes no sense. -/
def usageExitCode : Nat := 2

/-- The settings of a run: scripts have a name. -/
def settings (invocation : Invocation) : Settings :=
  invocation.options.settings <| match invocation.command with
    | .run script => some script
    | _ => none

/-- The source text that the interpreter is called for, unless it is to run lines. -/
def source? (read : String → Except FileProblem String) (invocation : Invocation) :
    Option (Except FileProblem String) :=
  match invocation.command with
  | .eval source => some (.ok source)
  | .run script => some (read script)
  | .repl => none

end Invocation

/-- Does what the interpreter is called for. -/
@[specialize] def Hosting.perform {m : Type → Type} [Monad m]
    (hosting : Hosting m) (bound : Nat) (source? : Option (Except FileProblem String))
    (session : Session) : m (Except Failure Unit × Session) :=
  match source? with
  | none => hosting.runLines bound session
  | some (.ok source) => hosting.evaluate bound source session
  | some (.error problem) => return (.error (.io problem.text), session)

namespace Invocation

/-- Does what the interpreter is called for, in a session with the settings of the call. -/
def perform (bound : Nat) (invocation : Invocation) (session : Session) :
    Option (Except Failure Unit × Session) :=
  Hosting.ofWorld.perform bound (invocation.source? session.host.files.read) session

/-- The exit code of a call that ends so. -/
def exitCode : Except Failure Unit → Nat
  | .ok () => 0
  | .error failure => failure.exitCode

/-- Does what the interpreter is called for, and gives the exit code and the session at the end. -/
def execute (bound : Nat) (invocation : Invocation) (console : Console) (files : Files)
    (clock : WallClock) (world : World := .offline) : Option (Nat × Session) := do
  let session := Session.new invocation.settings .console console files clock world
  let (result, session) ← invocation.perform bound session
  return (exitCode result, session.announce result)

end Invocation

end EventScript
