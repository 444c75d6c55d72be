import EventScript.Address
import EventScript.Host

/-!
# A world without a network

`World.offline` carries out file work on the files and refuses every request, after checking it:
`Request.refusal` says with which problem. It is the world of the command line and of all that does
not name another one. No theorem depends on it.
-/

namespace EventScript

/-- Whether a text can be the value of a header. -/
def isHeaderValue (value : String) : Bool :=
  value.toList.all fun c => c == '\t' || (32 ≤ c.toNat && c.toNat != 127)

/-- Why a request fails where there is no network. -/
def Request.refusal (request : Request) : RequestProblem :=
  match Address.parse? request.url with
  | none => .notAnswered "builder error"
  | some address =>
    let target := " for url (" ++ address.text ++ ")"
    if (address.host.getD "").isEmpty then .notAnswered ("builder error" ++ target)
    else if !request.headers.all fun (name, value) => isTokenText name && isHeaderValue value then
      .notAnswered "builder error"
    else if request.timeout = .zero then .timedOut ("error sending request" ++ target)
    else if address.scheme == "http" || address.scheme == "https" then
      .notAnswered ("error sending request" ++ target)
    else .notAnswered ("builder error" ++ target)

namespace Job

/-- Carries out a job where there is no network. -/
def performOffline : (job : Job) → Files → Except job.Problem job.Answer × Files
  | readFile path, files => (files.read path, files)
  | writeFile path mode data, files =>
    match files.write path mode data.toUTF8.toList with
    | .ok written => (.ok (), written)
    | .error problem => (.error problem, files)
  | request wanted, files => (.error wanted.refusal, files)

/-- How long a job takes where there is no network, in nanoseconds: even so, to find that out takes
longer than work on files. -/
def latencyOffline : Job → Nat
  | readFile _ | writeFile .. => 100000
  | request _ => 5000000

end Job

/-- A world without a network. -/
def World.offline : World where
  perform _ job files := (job.performOffline files).map some id
  latency _ job := ⟨job.latencyOffline⟩

end EventScript
