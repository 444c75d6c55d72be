import EventScript.Proofs.EventLoop.System

/-!
# Every operation ends once

A collaborator that holds an operation reports on it once: with the outcome, or by letting go of it.
The invariant `Matched` pairs the pending operations off with the collaborators who hold one and the
reports under way, and accounts for every operation begun as either taken in or pending. So no
report is lost, none comes twice, and none is about an unknown operation.
-/

namespace EventScript

namespace LoopSystem

variable {κ : Type}

/-- The pending operations are those held and those reported, and with those taken in they are the
operations begun. -/
structure Matched (system : LoopSystem κ) : Prop where
  matched : (system.loop.pending.map PendingOperation.id).Perm
    (system.loop.unreported ++ system.loop.inbox.map Report.operation)
  conserved : (system.accepted ++ system.loop.pending).Perm system.begun
  numbered : system.begun.map PendingOperation.id = List.range system.loop.nextOperation
  awaited : system.stage = .waiting none → system.loop.pending ≠ []

/-- The tasks that the end of an operation is to give rise to: a call of the callback with the
result, if there is one, or an error that names the operation and points to where it was begun. -/
def tasksOf (operation : PendingOperation κ) (outcome : OperationOutcome) (due : Duration)
    (seq : Nat) : List (Task κ) :=
  match outcome, operation.callback with
  | .ok result, some callback => [⟨due, seq, .deliver callback result⟩]
  | .ok _, none => []
  | .error problem, _ =>
    [⟨due, seq, .fail
      { kind := .runtime .native
        message := operation.label ++ " failed: " ++ problem
        span := some operation.span }⟩]

/-- No two operations taken in or pending have one number. -/
theorem Matched.distinct {system : LoopSystem κ} (matched : system.Matched) :
    ((system.accepted ++ system.loop.pending).map PendingOperation.id).Nodup := by
  rw [(matched.conserved.map PendingOperation.id).nodup_iff, matched.numbered]
  exact List.nodup_range

/-- No two pending operations have one number. -/
theorem Matched.pending_distinct {system : LoopSystem κ} (matched : system.Matched) :
    (system.loop.pending.map PendingOperation.id).Nodup := by
  have distinct := matched.distinct
  rw [List.map_append] at distinct
  exact (List.nodup_append.mp distinct).2.1

/-- No operation is held twice or both held and reported. -/
theorem Matched.held_distinct {system : LoopSystem κ} (matched : system.Matched) :
    (system.loop.unreported ++ system.loop.inbox.map Report.operation).Nodup :=
  matched.matched.nodup_iff.mp matched.pending_distinct

/-- Every report is about exactly one pending operation. -/
theorem Matched.operation_of_report {system : LoopSystem κ} (matched : system.Matched)
    {report : Report} (member : report ∈ system.loop.inbox) :
    ∃ operation ∈ system.loop.pending, operation.id = report.operation := by
  have reported : report.operation ∈ system.loop.unreported ++
      system.loop.inbox.map Report.operation :=
    List.mem_append_right _ (List.mem_map_of_mem member)
  exact List.mem_map.mp (matched.matched.mem_iff.mpr reported)

/-- Where numbers differ, only one operation has the number of a given one. -/
theorem filter_id_eq {pending : List (PendingOperation κ)} {operation : PendingOperation κ}
    (distinct : (pending.map PendingOperation.id).Nodup) (member : operation ∈ pending) :
    (pending.filter fun other => other.id = operation.id) = [operation] := by
  induction pending with
  | nil => contradiction
  | cons head rest ih =>
    rw [List.map_cons] at distinct
    obtain ⟨fresh, restDistinct⟩ := List.nodup_cons.mp distinct
    rcases List.mem_cons.mp member with rfl | inRest
    · have others : rest.filter (fun other => other.id = operation.id) = [] := by
        rw [List.filter_eq_nil_iff]
        intro other inRest
        have different : other.id ≠ operation.id :=
          fun same => fresh (same ▸ List.mem_map_of_mem inRest)
        simpa using different
      rw [List.filter_cons_of_pos (by simp), others]
    · have different : head.id ≠ operation.id :=
        fun same => fresh (same ▸ List.mem_map_of_mem inRest)
      rw [List.filter_cons_of_neg (by simpa using different)]
      exact ih restDistinct inRest

/-- The operation that the oldest report is about is the only one taken in, and the rest stay. -/
theorem Matched.split {system : LoopSystem κ} (matched : system.Matched) {report : Report}
    {rest : List Report} (inbox : system.loop.inbox = report :: rest) :
    ∃ operation ∈ system.loop.pending, operation.id = report.operation ∧
      (system.loop.pending.filter fun other => other.id = report.operation) = [operation] ∧
      (operation :: system.loop.pending.filter fun other => other.id ≠ report.operation).Perm
        system.loop.pending := by
  have first : report ∈ system.loop.inbox := inbox ▸ List.mem_cons_self
  obtain ⟨operation, member, same⟩ := matched.operation_of_report first
  have single := filter_id_eq matched.pending_distinct member
  rw [same] at single
  have parts := List.filter_append_perm
    (fun other : PendingOperation κ => decide (other.id = report.operation)) system.loop.pending
  rw [single] at parts
  refine ⟨operation, member, same, single, ?_⟩
  simpa using parts

/-- The pairing is kept where nothing is begun, reported or taken in. -/
theorem Matched.of_same {system later : LoopSystem κ} (matched : system.Matched)
    (pending : later.loop.pending = system.loop.pending)
    (unreported : later.loop.unreported = system.loop.unreported)
    (inbox : later.loop.inbox = system.loop.inbox)
    (nextOperation : later.loop.nextOperation = system.loop.nextOperation)
    (begun : later.begun = system.begun) (accepted : later.accepted = system.accepted)
    (awaited : later.stage = .waiting none → system.loop.pending ≠ []) : later.Matched := by
  constructor
  · rw [pending, unreported, inbox]
    exact matched.matched
  · rw [accepted, pending, begun]
    exact matched.conserved
  · rw [begun, nextOperation]
    exact matched.numbered
  · rw [pending]
    exact awaited

/-- The pairing is kept where a report takes the place of the operation held. -/
theorem Matched.of_report {system : LoopSystem κ} (matched : system.Matched) {operation : Nat}
    {outcome : OperationOutcome} {loop : EventLoop κ}
    (reported : system.loop.report? operation outcome = some loop) :
    Matched { system with loop } := by
  obtain ⟨held, rfl⟩ := EventLoop.eq_of_report? reported
  refine ⟨?_, matched.conserved, matched.numbered, matched.awaited⟩
  have moved : (system.loop.unreported ++ system.loop.inbox.map Report.operation).Perm
      (operation :: (system.loop.unreported.erase operation ++
        system.loop.inbox.map Report.operation)) :=
    (List.perm_cons_erase held).append_right _
  show (system.loop.pending.map PendingOperation.id).Perm
    (system.loop.unreported.erase operation ++ (system.loop.inbox ++ [_]).map Report.operation)
  rw [List.map_append, ← List.append_assoc]
  exact matched.matched.trans (moved.trans (List.perm_append_singleton _ _).symm)

/-- The pairing is kept where the oldest report is taken in. -/
theorem Matched.of_receive {system later : LoopSystem κ} (matched : system.Matched)
    {report : Report} {rest : List Report} (inbox : system.loop.inbox = report :: rest)
    (left : later.loop.inbox = rest)
    (unreported : later.loop.unreported = system.loop.unreported)
    (pending : later.loop.pending =
      system.loop.pending.filter fun other => other.id ≠ report.operation)
    (nextOperation : later.loop.nextOperation = system.loop.nextOperation)
    (begun : later.begun = system.begun)
    (accepted : later.accepted = system.accepted ++
      system.loop.pending.filter fun operation => operation.id = report.operation)
    (stage : later.stage = .receiving) : later.Matched := by
  obtain ⟨operation, _, same, single, parts⟩ := matched.split inbox
  constructor
  · have before := (parts.map PendingOperation.id).trans matched.matched
    rw [inbox, List.map_cons, List.map_cons, same] at before
    rw [pending, unreported, left]
    exact (before.trans List.perm_middle).cons_inv
  · rw [accepted, single, pending, begun, List.append_assoc]
    exact (parts.append_left _).trans matched.conserved
  · rw [begun, nextOperation]
    exact matched.numbered
  · intro waiting
    rw [stage] at waiting
    contradiction

/-- Every step keeps the pairing. -/
theorem Matched.step {system later : LoopSystem κ} (matched : system.Matched)
    (step : system.Step later) : later.Matched := by
  cases step with
  | schedule | scheduleFailure | tick =>
    exact matched.of_same rfl rfl rfl rfl rfl rfl matched.awaited
  | ask | exhaust | wake => exact matched.of_same rfl rfl rfl rfl rfl rfl nofun
  | begin running label span callback =>
    refine ⟨?_, ?_, ?_, ?_⟩
    · show ((system.loop.pending ++ [_]).map PendingOperation.id).Perm
        (system.loop.unreported ++ [system.loop.nextOperation] ++ _)
      rw [List.map_append, List.append_assoc]
      apply (matched.matched.append_right _).trans
      rw [List.append_assoc]
      exact (List.perm_append_comm).append_left _
    · show (system.accepted ++ (system.loop.pending ++ [_])).Perm (system.begun ++ [_])
      rw [← List.append_assoc]
      exact matched.conserved.append_right _
    · show (system.begun ++ [_]).map PendingOperation.id =
        List.range (system.loop.nextOperation + 1)
      rw [List.map_append, matched.numbered, List.range_succ]
      rfl
    · intro waiting
      rw [show system.stage = .waiting none from waiting] at running
      contradiction
  | complete operation outcome held =>
    have once := (List.nodup_append.mp matched.held_distinct).1
    rw [EventLoop.complete?_eq_report? once] at held
    exact matched.of_report held
  | abandon operation held => exact matched.of_report held
  | @receive report rest receives inbox =>
    cases action : system.loop.actionOf? report with
    | none =>
      rw [receive_of_none inbox action]
      exact matched.of_receive inbox rfl rfl rfl rfl rfl rfl rfl
    | some action =>
      rw [receive_of_some inbox action]
      exact matched.of_receive inbox rfl rfl rfl rfl rfl rfl rfl
  | select deciding selected =>
    cases EventLoop.decision_of_select selected with
    | idle | due | jump | awaitUntil | sleep =>
      exact matched.of_same rfl rfl rfl rfl rfl rfl nofun
    | await pending => exact matched.of_same rfl rfl rfl rfl rfl rfl fun _ => pending

/-- In every state of every run the pending operations are paired off. -/
theorem Reachable.matched {clock : ClockMode} {system : LoopSystem κ}
    (reached : system.Reachable clock) : system.Matched := by
  induction reached with
  | fresh => exact ⟨List.Perm.refl _, List.Perm.refl _, rfl, nofun⟩
  | step _ step ih => exact ih.step step

/-- The step that takes a report off the inbox is the one that takes it in. -/
theorem Matched.eq_of_taken {system later : LoopSystem κ} (matched : system.Matched)
    (step : system.Step later) {report : Report}
    (inbox : system.loop.inbox = report :: later.loop.inbox) :
    later = { system with
      loop := system.loop.receive system.reading
      stage := .receiving
      queued := system.queued ++
        (system.loop.actionOf? report).toList.map (system.newTask system.now)
      accepted := system.accepted ++
        system.loop.pending.filter fun operation => operation.id = report.operation } := by
  have fewer : system.loop.inbox.length = later.loop.inbox.length + 1 := by
    rw [inbox, List.length_cons]
  cases step with
  | schedule | scheduleFailure | begin | tick | ask | exhaust | wake =>
    exact absurd inbox (List.cons_ne_self _ _).symm
  | complete operation outcome held =>
    have once := (List.nodup_append.mp matched.held_distinct).1
    rw [EventLoop.complete?_eq_report? once] at held
    obtain ⟨_, rfl⟩ := EventLoop.eq_of_report? held
    rw [List.length_append] at fewer
    omega
  | abandon operation held =>
    obtain ⟨_, rfl⟩ := EventLoop.eq_of_report? held
    rw [List.length_append] at fewer
    omega
  | receive receives oldest =>
    rw [oldest] at inbox
    rw [(List.cons.inj inbox).1]
  | select deciding selected =>
    cases EventLoop.decision_of_select selected <;>
      exact absurd inbox (List.cons_ne_self _ _).symm

/-- The action queued for the end of an operation makes the tasks that it is to give rise to. -/
theorem Matched.newTask_actionOf? {system : LoopSystem κ} (matched : system.Matched)
    {operation : PendingOperation κ} (member : operation ∈ system.loop.pending) {report : Report}
    (same : operation.id = report.operation) :
    (system.loop.actionOf? report).toList.map (system.newTask system.now) =
      tasksOf operation report.outcome system.now system.loop.nextSeq := by
  have found : (system.loop.pending.find? fun other => other.id = report.operation) =
      some operation := by
    rw [← List.head?_filter, ← same, filter_id_eq matched.pending_distinct member]
    rfl
  unfold EventLoop.actionOf? EventLoop.consequence tasksOf
  rw [found, Option.bind_some]
  cases report.outcome with
  | error problem => rfl
  | ok result => cases operation.callback <;> rfl

/-- Taking in a report takes in its operation, and queues what this gives rise to. -/
theorem Matched.taken {system later : LoopSystem κ} (matched : system.Matched)
    (step : system.Step later) {report : Report}
    (inbox : system.loop.inbox = report :: later.loop.inbox) :
    ∃ operation ∈ system.loop.pending, operation.id = report.operation ∧
      later.accepted = system.accepted ++ [operation] ∧
      later.queued = system.queued ++
        tasksOf operation report.outcome system.now system.loop.nextSeq ∧
      later.loop.queue.Perm (tasksOf operation report.outcome system.now system.loop.nextSeq ++
        system.loop.queue) := by
  obtain ⟨operation, member, same, single, _⟩ := matched.split inbox
  have tasks := matched.newTask_actionOf? member same
  have eq := matched.eq_of_taken step inbox
  refine ⟨operation, member, same, ?_, ?_, ?_⟩
  · rw [eq, ← single]
  · rw [eq, ← tasks]
  · rw [eq, ← tasks]
    show (system.loop.receive system.reading).queue.Perm _
    cases action : system.loop.actionOf? report with
    | none =>
      rw [receive_of_none inbox action]
      exact List.Perm.refl _
    | some action =>
      rw [receive_of_some inbox action]
      exact EventLoop.insert_perm _ _

/-- A held operation can be reported once, with any outcome, and this makes one report. -/
theorem Matched.complete?_eq {system : LoopSystem κ} (matched : system.Matched) (operation : Nat)
    (outcome : OperationOutcome) :
    system.loop.complete? operation outcome =
      if operation ∈ system.loop.unreported then
        some { system.loop with
          unreported := system.loop.unreported.erase operation
          inbox := system.loop.inbox ++ [⟨operation, outcome⟩] }
      else none := by
  have once := (List.nodup_append.mp matched.held_distinct).1
  rw [EventLoop.complete?_eq_report? once]
  rfl

/-- Over every run the pending operations are, each once, those that a collaborator holds and those
reported and not yet taken in. Whatever is held can be reported with any outcome, which makes one
report; letting go of it afterwards makes no other, and letting go of it at once reports that it was
abandoned. An operation is taken in at most once, and
exactly once by the time a call finds the loop idle. Every report is about a pending operation, and
taking it in queues one call of the callback, or one error, or nothing where there is no callback.
A call waits without a deadline only while an operation is held or a report is under way. -/
theorem operations_end_once {clock : ClockMode} {system : LoopSystem κ}
    (reached : system.Reachable clock) :
    (system.loop.pending.map PendingOperation.id).Perm
        (system.loop.unreported ++ system.loop.inbox.map Report.operation) ∧
      (system.loop.unreported ++ system.loop.inbox.map Report.operation).Nodup ∧
      (∀ operation outcome, system.loop.complete? operation outcome =
        if operation ∈ system.loop.unreported then
          some { system.loop with
            unreported := system.loop.unreported.erase operation
            inbox := system.loop.inbox ++ [⟨operation, outcome⟩] }
        else none) ∧
      (∀ operation, system.loop.abandon? operation =
        system.loop.complete? operation (.error "operation abandoned before completing")) ∧
      (system.accepted.map PendingOperation.id).Nodup ∧
      (system.accepted ++ system.loop.pending).Perm system.begun ∧
      (∀ later, system.Step later → later.answers = system.answers ++ [none] →
        later.accepted.Perm later.begun) ∧
      (∀ report ∈ system.loop.inbox,
        ∃ operation ∈ system.loop.pending, operation.id = report.operation) ∧
      (∀ later report, system.Step later → system.loop.inbox = report :: later.loop.inbox →
        ∃ operation ∈ system.loop.pending, operation.id = report.operation ∧
          later.accepted = system.accepted ++ [operation] ∧
          later.queued = system.queued ++
            tasksOf operation report.outcome system.now system.loop.nextSeq ∧
          later.loop.queue.Perm
            (tasksOf operation report.outcome system.now system.loop.nextSeq ++
              system.loop.queue)) ∧
      (system.stage = .waiting none → system.loop.unreported ≠ [] ∨ system.loop.inbox ≠ []) := by
  have matched := reached.matched
  have abandons : ∀ operation, system.loop.abandon? operation =
      system.loop.complete? operation (.error "operation abandoned before completing") :=
    fun operation => (matched.complete?_eq operation _).symm
  have distinct := matched.distinct
  rw [List.map_append] at distinct
  obtain ⟨once, -, -⟩ := List.nodup_append.mp distinct
  have settled : ∀ later, system.Step later → later.answers = system.answers ++ [none] →
      later.accepted.Perm later.begun := by
    intro later step idle
    have conserved := (matched.step step).conserved
    rw [(settled_of_idle step idle).2, List.append_nil] at conserved
    exact conserved
  have awaited : system.stage = .waiting none →
      system.loop.unreported ≠ [] ∨ system.loop.inbox ≠ [] := by
    intro waiting
    have pending := matched.awaited waiting
    by_cases held : system.loop.unreported = []
    · right
      intro empty
      have nobody := matched.matched
      rw [held, empty] at nobody
      exact pending (List.map_eq_nil_iff.mp nobody.eq_nil)
    · exact .inl held
  exact ⟨matched.matched, matched.held_distinct, matched.complete?_eq, abandons, once,
    matched.conserved, settled, fun report member => matched.operation_of_report member,
    fun later report step inbox => matched.taken step inbox, awaited⟩

/-- Two operations are begun and the second is reported while a call waits: one is held and one
report is under way, and it is about a pending operation. -/
theorem operations_end_once_waiting :
    ∃ system : LoopSystem Unit, system.Reachable .virtual ∧
      system.stage = .waiting none ∧
      system.loop.unreported = [0] ∧
      system.loop.inbox = [⟨1, .ok (.text "done")⟩] ∧
      (system.loop.pending.map PendingOperation.id).Perm
        (system.loop.unreported ++ system.loop.inbox.map Report.operation) ∧
      (system.loop.unreported ≠ [] ∨ system.loop.inbox ≠ []) := by
  have first := (@Reachable.fresh Unit .virtual).step
    (.begin rfl "prompt" default none)
  have second := first.step (.begin rfl "prompt" default (some ()))
  have waiting := ((second.step (.ask rfl)).step (.exhaust rfl rfl)).step (.select rfl rfl)
  have reported := waiting.step (.complete 1 (.ok (.text "done")) rfl)
  obtain ⟨matched, _, _, _, _, _, _, _, _, awaited⟩ := operations_end_once reported
  exact ⟨_, reported, rfl, rfl, rfl, matched, awaited rfl⟩

end LoopSystem

end EventScript
