import EventScript.EventLoop

/-!
# An event loop among its collaborators

`EventLoop` says what each operation does. A `LoopSystem` puts the loop among those who use it: the
owner, who queues tasks, begins operations and calls for the next task, and the collaborators, who
hold the operations begun and report on each of them at any moment, also while a call for the next
task is under way. A call is many steps: it takes in one report at a time until it finds the inbox
empty, then decides, and starts over after a wait. Between any two steps the wall clock may go on
and further reports may come.

The system also keeps a history, which no step reads: the tasks queued, the answers given to calls,
the operations begun and those taken in. `LoopSystem.Reachable` is every state of every run. That
`EventLoop.poll` is one such way through a call is said of the systems that it is asked in
(`LoopSystem.Reachable.polled`).
-/

namespace EventScript

/-- Where the owner of a loop stands. Between tasks it runs the program. A call for the next task
takes in reports, decides when there are none left, and waits before it starts over. -/
inductive Stage where
  | running
  | receiving
  | deciding
  /-- Waits for a report or, if there is a deadline, not longer than until then. -/
  | waiting (deadline : Option Duration)
  /-- Waits for the time alone. -/
  | sleeping (wake : Duration)
deriving DecidableEq

namespace Stage

/-- Whether a report can be taken in. -/
def receives : Stage → Bool
  | receiving | waiting _ => true
  | _ => false

/-- Whether a wait can end without a report. -/
def wakes : Stage → Bool
  | sleeping _ | waiting (some _) => true
  | _ => false

end Stage

namespace Poll

variable {κ : Type}

/-- Where the owner goes on after deciding. -/
def stage : Poll κ → Stage
  | ready _ | idle => .running
  | sleep wake => .sleeping wake
  | await deadline => .waiting deadline

/-- What a call for the next task gives, if it ends: the task, or nothing when the loop is idle. -/
def answer? : Poll κ → Option (Option (Task κ))
  | ready task => some (some task)
  | idle => some none
  | _ => none

end Poll

namespace EventLoop

variable {κ : Type}

/-- Reports how an operation ended and lets go of it. Letting go reports that nobody carries out the
operation any more, unless it has been reported already. -/
def complete? (loop : EventLoop κ) (operation : Nat) (outcome : OperationOutcome) :
    Option (EventLoop κ) :=
  (loop.report? operation outcome).map fun reported =>
    (reported.abandon? operation).getD reported

/-- A report moves its operation from those held to the inbox, and changes nothing else. -/
theorem eq_of_report? {loop later : EventLoop κ} {operation : Nat} {outcome : OperationOutcome}
    (reported : loop.report? operation outcome = some later) :
    operation ∈ loop.unreported ∧
      later = { loop with
        unreported := loop.unreported.erase operation
        inbox := loop.inbox ++ [⟨operation, outcome⟩] } := by
  unfold report? at reported
  split at reported
  · rename_i held
    exact ⟨held, (Option.some.inj reported).symm⟩
  · contradiction

/-- Letting go of an operation after a report can only move it to the inbox once more. -/
theorem eq_of_complete? {loop later : EventLoop κ} {operation : Nat} {outcome : OperationOutcome}
    (completed : loop.complete? operation outcome = some later) :
    ∃ unreported inbox, later = { loop with unreported, inbox } := by
  obtain ⟨reported, first, second⟩ := Option.map_eq_some_iff.mp completed
  obtain ⟨_, rfl⟩ := eq_of_report? first
  subst second
  cases again : EventLoop.abandon? _ operation with
  | none => exact ⟨_, _, rfl⟩
  | some dropped =>
    obtain ⟨_, rfl⟩ := eq_of_report? again
    exact ⟨_, _, rfl⟩

/-- Where every operation is held once, letting go after a report has no effect. -/
theorem complete?_eq_report? {loop : EventLoop κ} (once : loop.unreported.Nodup) (operation : Nat)
    (outcome : OperationOutcome) :
    loop.complete? operation outcome = loop.report? operation outcome := by
  unfold complete?
  cases reported : loop.report? operation outcome with
  | none => rfl
  | some later =>
    obtain ⟨_, rfl⟩ := eq_of_report? reported
    have gone : operation ∉ loop.unreported.erase operation := once.not_mem_erase
    simp [abandon?, report?, gone]

/-- What deciding can come to: each answer with the situation it is given in and the loop after
it. -/
inductive Decision (loop : EventLoop κ) (reading : Duration) : Poll κ → EventLoop κ → Prop where
  | idle (empty : loop.queue = []) (settled : loop.pending = []) : Decision loop reading .idle loop
  /-- The first task is due. -/
  | due {head : Task κ} {rest : List (Task κ)} (queue : loop.queue = head :: rest)
      (due : head.due ≤ loop.now reading) :
      Decision loop reading (.ready head) { loop with queue := rest }
  /-- Nothing else can happen before the first task is due, so the virtual time jumps to it. -/
  | jump {head : Task κ} {rest : List (Task κ)} (queue : loop.queue = head :: rest)
      (future : loop.now reading < head.due) (clock : loop.clock = .virtual)
      (settled : loop.pending = []) :
      Decision loop reading (.ready head) { loop with queue := rest, virtualNow := head.due }
  | await (pending : loop.pending ≠ []) : Decision loop reading (.await none) loop
  | awaitUntil (deadline : Duration) (clock : loop.clock = .real) (pending : loop.pending ≠ []) :
      Decision loop reading (.await (some deadline)) loop
  | sleep (wake : Duration) (clock : loop.clock = .real) (settled : loop.pending = []) :
      Decision loop reading (.sleep wake) loop

/-- Every answer of `select` is one of the decisions. -/
theorem decision_of_select {loop later : EventLoop κ} {reading : Duration} {poll : Poll κ}
    (selected : loop.select reading = (poll, later)) : Decision loop reading poll later := by
  unfold select at selected
  split at selected
  · rename_i empty
    obtain ⟨rfl, rfl⟩ := Prod.mk.inj selected
    split
    · rename_i settled
      exact .idle empty (List.isEmpty_iff.mp settled)
    · rename_i pending
      exact .await fun settled => pending (List.isEmpty_iff.mpr settled)
  · rename_i head rest queue
    split at selected
    · rename_i due
      obtain ⟨rfl, rfl⟩ := Prod.mk.inj selected
      exact .due queue due
    · rename_i future
      split at selected
      · rename_i clock
        split at selected
        · rename_i settled
          obtain ⟨rfl, rfl⟩ := Prod.mk.inj selected
          exact .jump queue (Duration.not_le.mp future) clock (List.isEmpty_iff.mp settled)
        · rename_i pending
          obtain ⟨rfl, rfl⟩ := Prod.mk.inj selected
          exact .await fun settled => pending (List.isEmpty_iff.mpr settled)
      · rename_i clock
        obtain ⟨rfl, rfl⟩ := Prod.mk.inj selected
        split
        · rename_i settled
          exact .sleep _ clock (List.isEmpty_iff.mp settled)
        · rename_i pending
          exact .awaitUntil _ clock fun settled => pending (List.isEmpty_iff.mpr settled)

end EventLoop

/-- An event loop, what the wall clock shows, where the owner stands, and the history. -/
structure LoopSystem (κ : Type) where
  loop : EventLoop κ
  reading : Duration := .zero
  stage : Stage := .running
  /-- Every task queued so far, in the order of queueing. -/
  queued : List (Task κ) := []
  /-- What the calls for the next task gave so far, the first one first. -/
  answers : List (Option (Task κ)) := []
  /-- Every operation begun so far. -/
  begun : List (PendingOperation κ) := []
  /-- The operations whose report was taken in so far, once for each time. -/
  accepted : List (PendingOperation κ) := []

namespace LoopSystem

variable {κ : Type}

/-- A loop that nothing has happened to. -/
def fresh (clock : ClockMode) : LoopSystem κ := { loop := { clock } }

/-- The time as the loop tells it. -/
def now (system : LoopSystem κ) : Duration := system.loop.now system.reading

/-- The tasks that calls for the next task gave so far. -/
def returned (system : LoopSystem κ) : List (Task κ) := system.answers.filterMap id

/-- The task that queueing an action for some time makes. -/
def newTask (system : LoopSystem κ) (due : Duration) (action : Action κ) : Task κ :=
  ⟨due, system.loop.nextSeq, action⟩

/-- One step of the owner, of a collaborator or of the wall clock. -/
inductive Step (system : LoopSystem κ) : LoopSystem κ → Prop where
  /-- The program queues a call. -/
  | schedule (running : system.stage = .running) (delay : Duration) (callee : κ)
      (arguments : List κ) :
      Step system { system with
        loop := system.loop.schedule system.reading delay callee arguments
        queued := system.queued ++ [system.newTask (system.now + delay) (.call callee arguments)] }
  /-- The program queues an error. -/
  | scheduleFailure (running : system.stage = .running) (diagnostic : Diagnostic) :
      Step system { system with
        loop := system.loop.scheduleFailure system.reading diagnostic
        queued := system.queued ++ [system.newTask system.now (.fail diagnostic)] }
  /-- The program begins an operation, and a collaborator holds it from now on. -/
  | begin (running : system.stage = .running) (label : String) (span : Span)
      (callback : Option κ) :
      Step system { system with
        loop := (system.loop.begin label span callback).2
        begun := system.begun ++ [⟨system.loop.nextOperation, label, span, callback⟩] }
  /-- A collaborator reports how an operation ended. -/
  | complete {loop : EventLoop κ} (operation : Nat) (outcome : OperationOutcome)
      (held : system.loop.complete? operation outcome = some loop) :
      Step system { system with loop }
  /-- A collaborator lets go of an operation without a report. -/
  | abandon {loop : EventLoop κ} (operation : Nat)
      (held : system.loop.abandon? operation = some loop) :
      Step system { system with loop }
  /-- The wall clock goes on. -/
  | tick (reading : Duration) (later : system.reading ≤ reading) (fits : reading ≤ .longest) :
      Step system { system with reading }
  /-- The owner calls for the next task. -/
  | ask (running : system.stage = .running) : Step system { system with stage := .receiving }
  /-- The call takes in the oldest report. -/
  | receive {report : Report} {rest : List Report} (receives : system.stage.receives = true)
      (inbox : system.loop.inbox = report :: rest) :
      Step system { system with
        loop := system.loop.receive system.reading
        stage := .receiving
        queued := system.queued ++
          (system.loop.actionOf? report).toList.map (system.newTask system.now)
        accepted := system.accepted ++
          system.loop.pending.filter fun operation => operation.id = report.operation }
  /-- The call finds no report left. -/
  | exhaust (receiving : system.stage = .receiving) (inbox : system.loop.inbox = []) :
      Step system { system with stage := .deciding }
  /-- The call ends with an answer or goes on to wait. -/
  | select {poll : Poll κ} {loop : EventLoop κ} (deciding : system.stage = .deciding)
      (selected : system.loop.select system.reading = (poll, loop)) :
      Step system { system with
        loop
        stage := poll.stage
        answers := system.answers ++ poll.answer?.toList }
  /-- A wait ends without a report. -/
  | wake (wakes : system.stage.wakes = true) : Step system { system with stage := .receiving }

/-- The states of all runs on a clock. -/
inductive Reachable (clock : ClockMode) : LoopSystem κ → Prop where
  | fresh : Reachable clock (fresh clock)
  | step {system later : LoopSystem κ} (reached : Reachable clock system)
      (step : system.Step later) : Reachable clock later

/-- Taking in the oldest report settles its operation, where that has no further consequence. -/
theorem receive_of_none {loop : EventLoop κ} {report : Report} {rest : List Report}
    (inbox : loop.inbox = report :: rest) (none : loop.actionOf? report = none)
    (reading : Duration) :
    loop.receive reading = { loop with
      inbox := rest
      pending := loop.pending.filter fun other => other.id ≠ report.operation } := by
  have accepted := EventLoop.accept_eq { loop with inbox := rest } reading report
  rw [show EventLoop.actionOf? { loop with inbox := rest } report = .none from none] at accepted
  unfold EventLoop.receive
  rw [inbox]
  exact accepted

/-- Taking in the oldest report settles its operation, and queues its action for the present
time. -/
theorem receive_of_some {loop : EventLoop κ} {report : Report} {rest : List Report}
    {action : Action κ} (inbox : loop.inbox = report :: rest)
    (some : loop.actionOf? report = some action) (reading : Duration) :
    loop.receive reading = { loop with
      inbox := rest
      pending := loop.pending.filter fun other => other.id ≠ report.operation
      queue := EventLoop.insert ⟨loop.now reading, loop.nextSeq, action⟩ loop.queue
      nextSeq := loop.nextSeq + 1 } := by
  have accepted := EventLoop.accept_eq { loop with inbox := rest } reading report
  rw [show EventLoop.actionOf? { loop with inbox := rest } report = .some action from some]
    at accepted
  unfold EventLoop.receive
  rw [inbox]
  exact accepted

/-- Where the wall clock goes on, the time does not go back, and still fits. -/
theorem now_of_tick {loop : EventLoop κ} {before after : Duration} (later : before ≤ after)
    (beforeFits : loop.now before ≤ .longest) (afterFits : after ≤ .longest) :
    loop.now before ≤ loop.now after ∧ loop.now after ≤ .longest := by
  cases clock : loop.clock with
  | real =>
    simp only [EventLoop.now, clock]
    exact ⟨later, afterFits⟩
  | virtual =>
    simp only [EventLoop.now, clock] at beforeFits ⊢
    exact ⟨Duration.le_refl _, beforeFits⟩

/-- A jump takes the virtual time to where it goes. -/
theorem now_of_jump {loop : EventLoop κ} (clock : loop.clock = .virtual) (queue : List (Task κ))
    (due reading : Duration) :
    EventLoop.now { loop with queue, virtualNow := due } reading = due := by
  simp only [EventLoop.now, clock]

/-- Only deciding adds an answer, and only the one it comes to. -/
theorem eq_of_answer {system later : LoopSystem κ} {answer : Option (Task κ)}
    (step : system.Step later) (answered : later.answers = system.answers ++ [answer]) :
    system.stage = .deciding ∧
      ∃ poll loop, EventLoop.Decision system.loop system.reading poll loop ∧
        poll.answer? = some answer ∧
        later = { system with
          loop
          stage := poll.stage
          answers := system.answers ++ [answer] } := by
  cases step with
  | @select poll loop deciding selected =>
    have same : poll.answer?.toList = [answer] := List.append_cancel_left answered
    have given : poll.answer? = some answer := by
      cases given : poll.answer? with
      | none => rw [given] at same; contradiction
      | some other =>
        rw [given] at same
        exact congrArg some (List.cons.inj same).1
    refine ⟨deciding, poll, loop, EventLoop.decision_of_select selected, given, ?_⟩
    rw [same]
  | schedule | scheduleFailure | begin | complete | abandon | tick | ask | receive | exhaust
  | wake => exact absurd answered (by simp)

/-- A loop that says it is idle has nothing queued and nothing pending. -/
theorem settled_of_idle {system later : LoopSystem κ} (step : system.Step later)
    (idle : later.answers = system.answers ++ [none]) :
    later.loop.queue = [] ∧ later.loop.pending = [] := by
  obtain ⟨_, poll, loop, decision, answer, rfl⟩ := eq_of_answer step idle
  cases decision with
  | idle empty settled => exact ⟨empty, settled⟩
  | due | jump | await | awaitUntil | sleep => cases answer

/-- No step changes how the time is told. -/
theorem clock_eq {clock : ClockMode} {system : LoopSystem κ} (reached : system.Reachable clock) :
    system.loop.clock = clock := by
  induction reached with
  | fresh => rfl
  | step _ step ih =>
    cases step with
    | schedule | scheduleFailure | begin | tick | ask | exhaust | wake => exact ih
    | complete operation outcome held =>
      obtain ⟨_, _, rfl⟩ := EventLoop.eq_of_complete? held
      exact ih
    | abandon operation held =>
      obtain ⟨_, rfl⟩ := EventLoop.eq_of_report? held
      exact ih
    | @receive report _ receives inbox =>
      cases action : EventLoop.actionOf? _ report with
      | none => rw [receive_of_none inbox action]; exact ih
      | some action => rw [receive_of_some inbox action]; exact ih
    | select deciding selected =>
      cases EventLoop.decision_of_select selected <;> exact ih

/-- Taking in a report reads and changes nothing of the inbox. -/
theorem accept_inbox (loop : EventLoop κ) (inbox : List Report) (reading : Duration)
    (report : Report) :
    EventLoop.accept { loop with inbox } reading report =
      { loop.accept reading report with inbox } := by
  rw [EventLoop.accept_eq, EventLoop.accept_eq]
  have same : EventLoop.actionOf? { loop with inbox } report = loop.actionOf? report := rfl
  rw [same]
  cases loop.actionOf? report <;> rfl

/-- A call that takes in reports can go on to take in all there are. -/
theorem receiveAll_reachable {clock : ClockMode} {system : LoopSystem κ}
    (reached : system.Reachable clock) (receiving : system.stage = .receiving) :
    ∃ later : LoopSystem κ, later.Reachable clock ∧ later.stage = .receiving ∧
      later.loop = system.loop.receiveAll system.reading ∧ later.loop.inbox = [] ∧
      later.reading = system.reading ∧ later.answers = system.answers := by
  induction inbox : system.loop.inbox generalizing system with
  | nil =>
    refine ⟨system, reached, receiving, ?_, inbox, rfl, rfl⟩
    unfold EventLoop.receiveAll
    rw [inbox, List.foldl_nil, ← inbox]
  | cons report rest ih =>
    have receives : system.stage.receives = true := by rw [receiving]; rfl
    have received : system.loop.receive system.reading =
        { system.loop.accept system.reading report with inbox := rest } := by
      unfold EventLoop.receive
      rw [inbox]
      exact accept_inbox system.loop rest system.reading report
    have left : (system.loop.receive system.reading).inbox = rest := by rw [received]
    have same : (system.loop.receive system.reading).receiveAll system.reading =
        system.loop.receiveAll system.reading := by
      unfold EventLoop.receiveAll
      rw [left, inbox, List.foldl_cons, accept_inbox, received]
    obtain ⟨later, laterReached, stage, loop, empty, reading, answers⟩ :=
      ih (reached.step (.receive receives inbox)) rfl left
    exact ⟨later, laterReached, stage, loop.trans same, empty, reading, answers⟩

end LoopSystem

end EventScript
