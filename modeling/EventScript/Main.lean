import EventScript.CommandLine
import Std.Time.DateTime.Timestamp

/-!
# The program

Calls of the interpreter from a shell. All that is decided is decided by `Invocation`, `Machine` and
`Hosting`; here is the hosting of a shell: jobs are carried out on the files of the system, timers
wait, and printed text is passed on. There is no network. Standard input is read to its end before a
program starts that can ask for it.
-/

namespace EventScript.Shell

/-- A bound that no run reaches. -/
def patience : Nat := Nat.pow 10 18

/-- The problem that the system tells of by a number, which may come negated. -/
def problemOfCode (code : UInt32) (details : String) : FileProblem :=
  .ofCode (min code.toNat (-code).toNat) details

/-- The problem with a file that the system tells of. -/
def problemOf : IO.Error → FileProblem
  | .alreadyExists _ code details | .noFileOrDirectory _ code details
  | .inappropriateType _ code details | .interrupted _ code details
  | .invalidArgument _ code details | .noSuchThing _ code details
  | .permissionDenied _ code details | .resourceExhausted _ code details
  | .otherError code details | .resourceBusy code details | .resourceVanished code details
  | .unsupportedOperation code details | .hardwareFault code details
  | .unsatisfiedConstraints code details | .illegalOperation code details
  | .protocolError code details | .timeExpired code details => problemOfCode code details
  | .unexpectedEof => .notUtf8
  | .userError details => .system 0 details

/-- Reads a file as a text. -/
def readFile (path : String) : IO (Except FileProblem String) := do
  if '\x00' ∈ path.toList then return .error .nulInPath
  try
    let bytes ← IO.FS.readBinFile path
    match decodeUtf8? bytes.toList with
    | some content => return .ok content
    | none => return .error .notUtf8
  catch error => return .error (problemOf error)

/-- Writes to a file. -/
def writeFile (path : String) (mode : WriteMode) (data : String) :
    IO (Except FileProblem Unit) := do
  if '\x00' ∈ path.toList then return .error .nulInPath
  try
    let handle ← IO.FS.Handle.mk path <| match mode with
      | .truncate => .write
      | .append => .append
      | .createNew => .writeNew
    handle.write data.toUTF8
    handle.flush
    return .ok ()
  catch error => return .error (problemOf error)

/-- Carries out a job. -/
def performJob : (job : Job) → IO (Except job.Problem job.Answer)
  | .readFile path => readFile path
  | .writeFile path mode data => writeFile path mode data
  | .request request => return .error request.refusal

/-- Passes printed text on. -/
def flush (session : Session) : IO Session := do
  let console := session.machine.console
  let stdout ← IO.getStdout
  stdout.putStr console.output
  stdout.flush
  (← IO.getStderr).putStr console.errors
  let console := { console with output := "", errors := "" }
  return { session with machine := { session.machine with console } }

/-- The time that has passed since `origin`. -/
def timeSince (origin : Nat) : IO Duration := do
  return ⟨(← IO.monoNanosNow) - origin⟩

/-- Carries out the jobs that were asked for. Their reports come at once. -/
def carryOut (session : Session) : IO Session := do
  let machine := session.machine
  let mut deliveries := session.host.deliveries
  for (operation, job) in machine.launched do
    let outcome := job.outcome (some (← performJob job))
    deliveries := Host.insert ⟨operation, outcome, machine.clock.elapsed⟩ deliveries
  return { machine := { machine with launched := [] }, host := { session.host with deliveries } }

/-- The system carries out the jobs, and time goes on as its clock does, which showed `origin` at
the start. -/
def hosting (origin : Nat) : Hosting (OptionT IO) where
  giveUp := failure
  look session := do
    let clock := session.machine.clock.advanceTo (← timeSince origin)
    return { session with machine := { session.machine with clock } }
  handOn session := do flush (← carryOut session)
  sleepUntil wake session := do
    let rest := wake.nanoseconds - (← timeSince origin).nanoseconds
    IO.sleep ((rest + 999999) / 1000000).toUInt32
    return session
  -- A job has been carried out before anybody waits for it.
  await _ session := return session

/-- Whether a source text names the function that reads the standard input. -/
def readsInput (source : String) : Bool :=
  match Token.ofText source with
  | .ok tokens => tokens.any fun token => token.lexeme == Builtin.input.name
  | .error _ => false

/-- The session for a call, with the standard input if it is wanted. -/
def start (invocation : Invocation) (wantsInput : Bool) : IO Session := do
  let input ← if wantsInput then (← IO.getStdin).readBinToEnd else pure ByteArray.empty
  let now := (← Std.Time.Timestamp.now).toNanosecondsSinceUnixEpoch.val.toNat
  let clock : WallClock := { started := now, current := now }
  return .new invocation.settings .console { input := input.toList } {} clock

/-- Does what the interpreter is called for, and gives the exit code. -/
def perform (invocation : Invocation) : IO Nat := do
  let origin ← IO.monoNanosNow
  let script ← match invocation.command with
    | .run script => readFile script
    | _ => pure (.ok "")
  let source? := invocation.source? fun _ => script
  let wantsInput := match source? with
    | none => true
    | some (.ok source) => readsInput source
    | some (.error _) => false
  let session ← start invocation wantsInput
  match ← (hosting origin).perform patience source? session with
  | none => return 0
  | some (result, session) =>
    let _ ← flush (session.announce result)
    return Invocation.exitCode result

/-- How the interpreter is called. -/
def usage : String :=
  "usage: [--virtual-time] [--request-timeout-ms N] [--max-call-depth N] " ++
    "[run SCRIPT | eval SOURCE | repl]\n"

/-- The variables of the environment that hold options. -/
def optionVariables : IO (String → Option String) := do
  let values ← Options.variableNames.mapM fun name => return (name, ← IO.getEnv name)
  return fun name => (values.find? fun entry => entry.1 == name).bind Prod.snd

end EventScript.Shell

open EventScript in
/-- Runs the interpreter and gives its exit code. -/
def main (arguments : List String) : IO UInt32 := do
  match Invocation.ofArguments? (← Shell.optionVariables) arguments with
  | none =>
    (← IO.getStderr).putStr Shell.usage
    return Invocation.usageExitCode.toUInt32
  | some invocation =>
    return (← Shell.perform invocation).toUInt32
