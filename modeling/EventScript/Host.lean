import EventScript.Job

/-!
# The host

What carries out the jobs of a program. What becomes of a job is up to a `World`, which is any
function: it says what comes back, if anything, what becomes of the files, and how long it takes
until the outcome is reported. A job takes effect when it is undertaken, and reports come in the
order of their arrival times (`Host.next?`).
-/

namespace EventScript

/-- How the jobs of a program go. -/
structure World where
  /-- Carries out the job of an operation on some files. What comes back is the answer or what is
  wrong, unless those who carry it out are lost, and the files after it. -/
  perform : (operation : Nat) → (job : Job) → Files →
    Option (Except job.Problem job.Answer) × Files
  /-- How long it takes from when the job of an operation is undertaken until its outcome is
  reported. -/
  latency : (operation : Nat) → Job → Duration

/-- The outcome of a job, on its way to the event loop. -/
structure Delivery where
  operation : Nat
  outcome : OperationOutcome
  /-- When the report comes, since the start of the program. -/
  arrival : Duration

/-- The files, and the reports that are on their way, the next one first. -/
structure Host where
  world : World
  files : Files := {}
  deliveries : List Delivery := []

namespace Host

/-- Puts a delivery behind those that arrive before it or with it. -/
def insert (delivery : Delivery) : List Delivery → List Delivery
  | [] => [delivery]
  | head :: rest =>
    if head.arrival ≤ delivery.arrival then head :: insert delivery rest
    else delivery :: head :: rest

/-- Carries out the job of an operation. -/
def undertake (now : Duration) (host : Host) (launched : Nat × Job) : Host :=
  let (operation, job) := launched
  let (result, files) := host.world.perform operation job host.files
  let delivery : Delivery :=
    { operation
      outcome := job.outcome result
      arrival := now + host.world.latency operation job }
  { host with files, deliveries := insert delivery host.deliveries }

/-- Takes out the next delivery. -/
def next? (host : Host) : Option (Delivery × Host) :=
  match host.deliveries with
  | [] => none
  | delivery :: rest => some (delivery, { host with deliveries := rest })

end Host

end EventScript
