import EventScript.Session
import Mathlib.Logic.Relation

/-!
# What happens between tasks

`Machine.Happens` is what may happen to a machine from outside, at any time: the time goes on,
somebody reports how an operation has ended, in whatever way that is, or the jobs that were asked
for are handed on. While a session waits for the next task nothing else happens to it, but that the
event loop is asked in vain (`Session.Lingers`). So much is known of every world and every clock:
`Session.nextTask` goes through such steps until the event loop has an answer
(`Session.nextTask_cases`).
-/

namespace EventScript

open Relation (ReflTransGen)

/-- What may happen to a machine from outside. -/
inductive Machine.Happens (machine : Machine) : Machine → Prop where
  /-- The time goes on. -/
  | time {clock : WallClock} (onward : machine.clock.elapsed ≤ clock.elapsed) :
      Happens machine { machine with clock }
  /-- Somebody reports how an operation that is under way has ended. -/
  | report {operation : Nat} {outcome : OperationOutcome} {events : EventLoop Value}
      (reported : machine.events.report? operation outcome = some events) :
      Happens machine { machine with events }
  /-- The jobs that were asked for are handed on. -/
  | handOn : Happens machine { machine with launched := [] }

namespace WallClock

/-- Reading the clock takes it on. -/
theorem elapsed_le_read (clock : WallClock) : clock.elapsed ≤ clock.read.2.elapsed := by
  show clock.current - clock.started ≤ clock.current + clock.pace clock.readings - clock.started
  omega

/-- Waiting takes the clock on. -/
theorem elapsed_le_advanceTo (clock : WallClock) (wake : Duration) :
    clock.elapsed ≤ (clock.advanceTo wake).elapsed := by
  show clock.current - clock.started ≤
    max clock.current (clock.started + wake.nanoseconds) - clock.started
  omega

end WallClock

/-- To deliver a report is to report, or nothing. -/
theorem Machine.happens_deliver (machine : Machine) (delivery : Delivery) :
    ReflTransGen Happens machine (machine.deliver delivery) := by
  unfold deliver
  split
  · rename_i events reported
    exact .single (.report reported)
  · exact .refl

/-- To deliver several reports is to report one after another. -/
theorem Machine.happens_deliveries (deliveries : List Delivery) (machine : Machine) :
    ReflTransGen Happens machine (deliveries.foldl deliver machine) := by
  induction deliveries generalizing machine with
  | nil => exact .refl
  | cons delivery rest ih => exact (machine.happens_deliver delivery).trans (ih _)

/-- The event loop has no answer yet. -/
def Poll.Waits {κ : Type} : Poll κ → Prop
  | sleep _ | await _ => True
  | ready _ | idle => False

namespace Session

variable {session later : Session} {bound : Nat}

/-- Only what may happen from outside happens to the machine of a session. What carries out its jobs
may change meanwhile. -/
def Undergoes (session later : Session) : Prop :=
  ReflTransGen Machine.Happens session.machine later.machine

namespace Undergoes

/-- One thing happens after another. -/
theorem trans {last : Session} (first : session.Undergoes later) (second : later.Undergoes last) :
    session.Undergoes last :=
  ReflTransGen.trans first second

/-- To look how late it is takes some time, or none. -/
theorem look (session : Session) : session.Undergoes session.look := by
  unfold Session.look Undergoes
  dsimp only
  split
  · exact .refl
  · exact .single (.time session.machine.clock.elapsed_le_read)

/-- Reports are taken in one after another. -/
theorem collect (session : Session) : session.Undergoes session.collect :=
  Machine.happens_deliveries _ session.machine

/-- The jobs are handed on. -/
theorem undertake (session : Session) : session.Undergoes session.undertake :=
  .single .handOn

/-- In a sleep time passes. -/
theorem sleepUntil (wake : Duration) (session : Session) :
    session.Undergoes (session.sleepUntil wake) :=
  .single (.time (session.machine.clock.elapsed_le_advanceTo wake))

/-- Time passes until a delivery comes. -/
theorem receive (delivery : Delivery) (session : Session) :
    session.Undergoes (session.receive delivery) :=
  (sleepUntil delivery.arrival session).trans
    (Machine.happens_deliver (session.sleepUntil delivery.arrival).machine delivery)

/-- In a wait time passes, and then a delivery may come. -/
theorem await {deadline : Option Duration} (awaited : session.await deadline = some later) :
    session.Undergoes later := by
  unfold Session.await at awaited
  cases next : session.host.next? with
  | none =>
    rw [next] at awaited
    cases deadline with
    | none => contradiction
    | some wake =>
      obtain rfl := Option.some.inj awaited
      exact sleepUntil wake session
  | some arrived =>
    obtain ⟨delivery, host⟩ := arrived
    rw [next] at awaited
    have received : session.Undergoes (Session.receive delivery { session with host }) :=
      receive delivery { session with host }
    cases deadline with
    | none =>
      obtain rfl := Option.some.inj awaited
      exact received
    | some wake =>
      dsimp only at awaited
      split at awaited
      · obtain rfl := Option.some.inj awaited
        exact sleepUntil wake session
      · obtain rfl := Option.some.inj awaited
        exact received

end Undergoes

/-- A step of a session that lingers until there is a next task. -/
inductive Lingers (session : Session) : Session → Prop where
  /-- Something happens from outside. -/
  | outside {later : Session} (happens : session.machine.Happens later.machine) :
      Lingers session later
  /-- The event loop is asked in vain. -/
  | again {poll : Poll Value} {asked : Machine} (asks : session.machine.ask = (poll, asked))
      (waits : poll.Waits) : Lingers session { session with machine := asked }

/-- While a session lingers it may undergo anything that happens from outside. -/
theorem Undergoes.lingers (undergoes : session.Undergoes later) :
    ReflTransGen Lingers session later := by
  obtain ⟨machine, host⟩ := session
  obtain ⟨last, lastHost⟩ := later
  have reached : ReflTransGen Lingers ⟨machine, host⟩ ⟨last, host⟩ := by
    change ReflTransGen Machine.Happens machine last at undergoes
    induction undergoes with
    | refl => exact .refl
    | tail _ happens ih => exact ih.tail (.outside happens)
  -- The host may have changed in the end.
  exact reached.tail (.outside (.time (Duration.le_refl _)))

section NextTask

/-- A session asks for its next task again and again, until there is an answer. -/
theorem nextTask_succ (bound : Nat) (session : Session) :
    session.nextTask (bound + 1) =
      match session.look.collect.machine.ask with
      | (.ready task, machine) => some (some task, { session.look.collect with machine })
      | (.idle, machine) => some (none, { session.look.collect with machine })
      | (.sleep wake, machine) =>
        (({ session.look.collect with machine } : Session).sleepUntil wake).nextTask bound
      | (.await deadline, machine) =>
        (({ session.look.collect with machine } : Session).await deadline).bind
          (nextTask bound) := by
  show Hosting.ofWorld.nextTask (bound + 1) session = _
  have looks : Hosting.ofWorld.look session = some session.look := rfl
  rw [Hosting.nextTask, looks, Option.bind_eq_bind, Option.bind_some]
  dsimp only
  rcases session.look.collect.machine.ask with ⟨poll, machine⟩
  cases poll <;> rfl

/-- The event loop answers that there is nothing to do, or that a task is ready. -/
inductive Replies (session : Session) : Option (Task Value) → Machine → Prop where
  | idle {asked : Machine} (asks : session.machine.ask = (.idle, asked)) :
      Replies session none asked
  | ready {task : Task Value} {asked : Machine}
      (asks : session.machine.ask = (.ready task, asked)) :
      Replies session (some task) asked

/-- Where there is a next task, or none any more, the event loop has answered so, after steps of
waiting only. -/
theorem nextTask_cases {next : Option (Task Value)}
    (called : session.nextTask bound = some (next, later)) :
    ∃ before asked, ReflTransGen Lingers session before ∧ before.Replies next asked ∧
      later = { before with machine := asked } := by
  induction bound generalizing session with
  | zero => contradiction
  | succ bound ih =>
    have looks := ((Undergoes.look session).trans (.collect session.look)).lingers
    rw [nextTask_succ] at called
    rcases asks : session.look.collect.machine.ask with ⟨poll, asked⟩
    rw [asks] at called
    cases poll with
    | ready task =>
      obtain ⟨rfl, rfl⟩ := Prod.mk.inj (Option.some.inj called)
      exact ⟨_, asked, looks, .ready asks, rfl⟩
    | idle =>
      obtain ⟨rfl, rfl⟩ := Prod.mk.inj (Option.some.inj called)
      exact ⟨_, asked, looks, .idle asks, rfl⟩
    | sleep wake =>
      obtain ⟨before, answered, lingers, replies, same⟩ := ih called
      have waits :=
        (Undergoes.sleepUntil wake { session.look.collect with machine := asked }).lingers
      exact ⟨before, answered, ((looks.tail (.again asks trivial)).trans waits).trans lingers,
        replies, same⟩
    | await deadline =>
      obtain ⟨waited, awaited, further⟩ := Option.bind_eq_some_iff.mp called
      obtain ⟨before, answered, lingers, replies, same⟩ := ih further
      have waits := (Undergoes.await awaited).lingers
      exact ⟨before, answered, ((looks.tail (.again asks trivial)).trans waits).trans lingers,
        replies, same⟩

end NextTask

/-- The event loop runs task after task. -/
theorem drain_succ (bound : Nat) (session : Session) :
    drain (bound + 1) session =
      (session.nextTask bound).bind fun (next, session) =>
        match next with
        | none => some { session with machine := session.machine.toTopLevel }
        | some task => (session.machine.runTask bound task).bind fun machine =>
          drain bound { session with machine }.undertake := by
  show Hosting.ofWorld.drain (bound + 1) session = _
  unfold Hosting.drain
  show (session.nextTask bound).bind _ = _
  congr 1
  funext ⟨next, between⟩
  cases next with
  | none => rfl
  | some task =>
    dsimp only
    cases between.machine.runTask bound task <;> rfl

/-- The event loop ends with the next task, if there is none, and else goes on after it has been
run. -/
theorem drain_cases (drained : drain (bound + 1) session = some later) :
    (∃ between, session.nextTask bound = some (none, between) ∧
        later = { between with machine := between.machine.toTopLevel }) ∨
      ∃ task between machine, session.nextTask bound = some (some task, between) ∧
        between.machine.runTask bound task = some machine ∧
        drain bound ({ between with machine } : Session).undertake = some later := by
  rw [drain_succ] at drained
  obtain ⟨⟨next, between⟩, called, onward⟩ := Option.bind_eq_some_iff.mp drained
  cases next with
  | none => exact .inl ⟨between, called, (Option.some.inj onward).symm⟩
  | some task =>
    obtain ⟨machine, ran, further⟩ := Option.bind_eq_some_iff.mp onward
    exact .inr ⟨task, between, machine, called, ran, further⟩

/-- Running a program is running its body, then the event loop. -/
theorem interpret_eq_some {program : Program} {result : Except Failure Unit} :
    session.interpret bound program = some (result, later) ↔
      ∃ machine, session.machine.runBody bound program = some machine ∧
        drain bound { session with machine }.undertake = some later ∧
        result = later.machine.conclusion session.machine.reported.length := by
  have interprets : session.interpret bound program =
      (session.machine.runBody bound program).bind fun machine =>
        (drain bound { session with machine }.undertake).bind fun later =>
          some (later.machine.conclusion session.machine.reported.length, later) := by
    show Hosting.ofWorld.interpret bound program session = _
    unfold Hosting.interpret
    cases session.machine.runBody bound program <;> rfl
  rw [interprets]
  constructor
  · intro interpreted
    obtain ⟨machine, ran, onward⟩ := Option.bind_eq_some_iff.mp interpreted
    obtain ⟨drained, draining, given⟩ := Option.bind_eq_some_iff.mp onward
    obtain ⟨rfl, rfl⟩ := Prod.mk.inj (Option.some.inj given)
    exact ⟨machine, ran, draining, rfl⟩
  · rintro ⟨machine, ran, draining, rfl⟩
    refine Option.bind_eq_some_iff.mpr ⟨machine, ran, ?_⟩
    exact Option.bind_eq_some_iff.mpr ⟨later, draining, rfl⟩

/-- An accepted source text forms a program. -/
theorem exists_accepted {source : String} (accepts : (Program.accept source).isOk = true) :
    ∃ program, Program.accept source = .ok program := by
  cases read : Program.accept source with
  | ok program => exact ⟨program, rfl⟩
  | error failure =>
    rw [read] at accepts
    contradiction

/-- A source text that is accepted is run, and another one fails. -/
theorem evaluate_eq (bound : Nat) (source : String) (session : Session) :
    session.evaluate bound source =
      match Program.accept source with
      | .error failure => some (.error failure, session)
      | .ok program => session.interpret bound program := by
  show Hosting.ofWorld.evaluate bound source session = _
  unfold Hosting.evaluate
  cases Program.accept source <;> rfl

end Session

/-- Carries out a job where each request is answered alike, and all else is done as without a
network. -/
def Job.performAnswering (response : Response) :
    (job : Job) → Files → Except job.Problem job.Answer × Files
  | request _, files => (.ok response, files)
  | readFile path, files => (readFile path).performOffline files
  | writeFile path mode data, files => (writeFile path mode data).performOffline files

/-- A world in which each request is answered alike, and every job takes the same time. -/
def World.answering (response : Response) (latency : Duration) : World where
  perform _ job files := (job.performAnswering response files).map some id
  latency _ _ := latency

end EventScript
