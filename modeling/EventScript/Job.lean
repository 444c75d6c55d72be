import EventScript.EventLoop
import EventScript.Files

/-!
# Jobs

The work outside the program that an operation asks for, what comes back if it succeeds, and what is
said if it does not. Who carries a job out, and how it ends, is not said here: that is up to the
world of a session.
-/

namespace EventScript

/-- A request to a network address. -/
structure Request where
  url : String
  method : String
  headers : List (String × String)
  body : Option String
  timeout : Duration
deriving Inhabited

/-- The answer to a request. -/
structure Response where
  status : Nat
  headers : List (String × String)
  body : String
deriving DecidableEq, Inhabited

/-- What was wrong with a request, and how those who made it put it. -/
inductive RequestProblem where
  /-- There was nobody to make it. -/
  | notMade (wording : String)
  | timedOut (wording : String)
  | notAnswered (wording : String)
  /-- The body of the answer could not be read to its end. -/
  | brokenOff (wording : String)
deriving DecidableEq, Inhabited

/-- The printed form, for a request to this address. -/
def RequestProblem.describe (problem : RequestProblem) (url : String) : String :=
  match problem with
  | notMade wording => "http client init failed: " ++ wording
  | timedOut wording => "`" ++ url ++ "` timed out: " ++ wording
  | notAnswered wording => "`" ++ url ++ "`: " ++ wording
  | brokenOff wording => "response body read failed: " ++ wording

/-- Work outside the program. -/
inductive Job where
  | readFile (path : String)
  | writeFile (path : String) (mode : WriteMode) (data : String)
  | request (request : Request)
deriving Inhabited

namespace Job

/-- What comes back from a job that succeeds. -/
def Answer : Job → Type
  | readFile _ => String
  | writeFile .. => Unit
  | request _ => Response

/-- What can be wrong with a job. -/
def Problem : Job → Type
  | readFile _ | writeFile .. => FileProblem
  | request _ => RequestProblem

/-- What comes back from a job, as the event loop takes it in. -/
def payload : (job : Job) → job.Answer → Payload
  | readFile _, content => .text content
  | writeFile .., () => .unit
  | request _, response => .response response.status response.headers response.body

/-- The printed form of what is wrong with a job. -/
def describe : (job : Job) → job.Problem → String
  | readFile path, problem | writeFile path .., problem => FileProblem.describe problem path
  | request wanted, problem => RequestProblem.describe problem wanted.url

/-- What is reported on a job. Where there is no result, those who carried it out are gone. -/
def outcome (job : Job) : Option (Except job.Problem job.Answer) → OperationOutcome
  | some (.ok answer) => .ok (job.payload answer)
  | some (.error problem) => .error (job.describe problem)
  | none => .error EventLoop.abandonment

end Job

/-- Whether a character may stand in a method or in the name of a header. -/
def isTokenCharacter (c : Char) : Bool :=
  c.isAlphanum || "!#$%&'*+-.^_`|~".toList.contains c

/-- Whether a text is the name of a method or header. -/
def isTokenText (name : String) : Bool :=
  !name.toList.isEmpty && name.toList.all isTokenCharacter

end EventScript
