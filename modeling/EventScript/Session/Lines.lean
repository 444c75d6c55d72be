import EventScript.Session
import EventScript.Text.Blank

/-!
# Line sessions

A line session takes lines off the standard input and runs each as a source text of its own, up to
the end of the input or a line that asks to stop. What earlier lines declared stays declared, and
a line that fails does not end the session. Programs that read the standard input take their lines
from the same place.
-/

namespace EventScript

/-- Prints how a run failed, unless that was printed when it was reported. -/
def Machine.announce (result : Except Failure Unit) (machine : Machine) : Machine :=
  match result with
  | .ok () => machine
  | .error (.runtime _) => machine
  | .error failure => { machine with console := machine.console.writeError (failure.text ++ "\n") }

namespace Session

/-- Prints how a run failed, unless that was printed when it was reported. -/
def announce (result : Except Failure Unit) (session : Session) : Session :=
  { session with machine := session.machine.announce result }

/-- What to do with a line of input. -/
inductive LineAction where
  | run (source : String)
  | skip
  | stop
deriving DecidableEq

/-- Blanks around a line do not count, and blank lines are skipped. -/
def LineAction.ofLine (line : String) : LineAction :=
  match String.ofList (Text.trim line.toList) with
  | "" => .skip
  | ":quit" => .stop
  | ":exit" => .stop
  | source => .run source

end Session

namespace Hosting

variable {m : Type → Type} [Monad m]

/-- Runs a line as a source text. -/
@[specialize] def runLine (hosting : Hosting m) (bound : Nat) (line : String)
    (session : Session) : m Session := do
  let (result, session) ← hosting.evaluate bound line session
  hosting.handOn (session.announce result)

/-- Runs the lines of the standard input. Input that is not UTF-8 ends the session with a
failure. -/
@[specialize] def runLines (hosting : Hosting m) :
    Nat → Session → m (Except Failure Unit × Session)
  | 0, _ => hosting.giveUp
  | bound + 1, session => do
    let (line, console) := session.machine.console.takeLine
    let session := { session with machine := { session.machine with console } }
    match line with
    | none => return (.ok (), session)
    | some none => return (.error (.io invalidUtf8), session)
    | some (some line) =>
      match Session.LineAction.ofLine line with
      | .skip => runLines hosting bound session
      | .stop => return (.ok (), session)
      | .run source => runLines hosting bound (← hosting.runLine bound source session)

end Hosting

namespace Session

/-- Runs a line as a source text. -/
def runLine (bound : Nat) (line : String) (session : Session) : Option Session :=
  Hosting.ofWorld.runLine bound line session

/-- Runs the lines of the standard input. -/
def runLines (bound : Nat) (session : Session) : Option (Except Failure Unit × Session) :=
  Hosting.ofWorld.runLines bound session

end Session

end EventScript
