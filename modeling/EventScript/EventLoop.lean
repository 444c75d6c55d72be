import EventScript.Diagnostic
import EventScript.Duration

/-!
# The event loop

An event loop holds tasks to be run later and operations that are carried out elsewhere. A task is
due at a time; tasks run in the order of their due times, and tasks due at one time in the order
they were queued. An operation is begun with a callback; whoever carries it out reports once how
it ended, the report waits in the inbox, and the loop turns it into a task when it next looks.

The loop is a value and every step a function. Callbacks are of any type `κ`. On the real clock
each step is told the time; on the virtual clock the time jumps to the next task when nothing is
pending. `poll` is what a caller does between tasks: it takes in the reports and says which task
is ready, or what to wait for.
-/

namespace EventScript

/-- How an event loop tells the time. -/
inductive ClockMode where
  /-- Timers wait for the wall clock. -/
  | real
  /-- Timers do not wait: the time jumps to them. -/
  | virtual
deriving DecidableEq, Inhabited

/-- The result of an operation that succeeded. -/
inductive Payload where
  | unit
  | text (text : String)
  /-- An answer to a network request. -/
  | response (status : Nat) (headers : List (String × String)) (body : String)
deriving DecidableEq, Inhabited

/-- What a task does. -/
inductive Action (κ : Type) where
  /-- Calls `callee` with the given arguments. -/
  | call (callee : κ) (arguments : List κ)
  /-- Calls `callback` with the result of an operation. -/
  | deliver (callback : κ) (result : Payload)
  /-- Reports an error. -/
  | fail (diagnostic : Diagnostic)
deriving Inhabited

/-- A queued task. -/
structure Task (κ : Type) where
  due : Duration
  /-- Place in the order of queueing. -/
  seq : Nat
  action : Action κ
deriving Inhabited

/-- Tasks run in the order of their due times, and of queueing among equals. -/
def Task.before {κ : Type} (first second : Task κ) : Prop :=
  first.due < second.due ∨ first.due = second.due ∧ first.seq < second.seq

instance {κ : Type} (first second : Task κ) : Decidable (first.before second) :=
  inferInstanceAs (Decidable (_ ∨ _))

/-- The order of tasks is transitive. -/
theorem Task.before_trans {κ : Type} {first second third : Task κ} (left : first.before second)
    (right : second.before third) : first.before third := by
  unfold Task.before at left right ⊢
  rcases left with earlier | ⟨same, less⟩
  · rcases right with later | ⟨same, _⟩
    · left
      show first.due.nanoseconds < third.due.nanoseconds
      exact Nat.lt_trans earlier later
    · exact .inl (same ▸ earlier)
  · rcases right with later | ⟨same', less'⟩
    · exact .inl (same ▸ later)
    · exact .inr ⟨same.trans same', Nat.lt_trans less less'⟩

/-- A task that does not run before a newer one runs after it. -/
theorem Task.before_of_not_before {κ : Type} {older newer : Task κ} (later : older.seq < newer.seq)
    (kept : ¬older.before newer) : newer.before older := by
  have notEarlier : ¬older.due.nanoseconds < newer.due.nanoseconds := fun h => kept (.inl h)
  by_cases same : older.due = newer.due
  · exact absurd (.inr ⟨same, later⟩) kept
  · have different : older.due.nanoseconds ≠ newer.due.nanoseconds :=
      fun equal => same (congrArg Duration.mk equal)
    left
    show newer.due.nanoseconds < older.due.nanoseconds
    omega

/-- An operation that has been begun and not yet taken in. -/
structure PendingOperation (κ : Type) where
  id : Nat
  /-- The name of the operation in error messages. -/
  label : String
  /-- Where the program began it. -/
  span : Span
  /-- What to call with the result, if anything. -/
  callback : Option κ
deriving Inhabited

/-- How an operation ended: its result, or the text of the failure. -/
abbrev OperationOutcome := Except String Payload

/-- The report that an operation has ended. -/
structure Report where
  operation : Nat
  outcome : OperationOutcome

/-- The state of an event loop with callbacks of type `κ`. -/
structure EventLoop (κ : Type) where
  clock : ClockMode
  /-- Tasks in the order they will run. -/
  queue : List (Task κ) := []
  nextSeq : Nat := 0
  nextOperation : Nat := 0
  pending : List (PendingOperation κ) := []
  /-- Operations whose end has not been reported. -/
  unreported : List Nat := []
  /-- Reports not yet taken in, the oldest first. -/
  inbox : List Report := []
  virtualNow : Duration := .zero

/-- What an event loop is ready for. -/
inductive Poll (κ : Type) where
  /-- A task to run now. -/
  | ready (task : Task κ)
  /-- Nothing is queued or pending. -/
  | idle
  /-- Nothing happens before this time. -/
  | sleep (wake : Duration)
  /-- Nothing happens before a report comes or, if there is a task on the real clock, before its
  time. -/
  | await (deadline : Option Duration)

namespace EventLoop

variable {κ : Type}

/-- The text of the failure of an operation that nobody reports on any more. -/
def abandonment : String := "operation abandoned before completing"

/-- The time, when the wall clock shows `reading`. -/
def now (loop : EventLoop κ) (reading : Duration) : Duration :=
  match loop.clock with
  | .real => reading
  | .virtual => loop.virtualNow

/-- Whether nothing is queued or pending. -/
def isIdle (loop : EventLoop κ) : Bool := loop.queue.isEmpty && loop.pending.isEmpty

/-- Puts a task in its place in the queue. -/
def insert (task : Task κ) : List (Task κ) → List (Task κ)
  | [] => [task]
  | head :: rest => if head.before task then head :: insert task rest else task :: head :: rest

/-- Putting in a task adds it and loses none. -/
theorem insert_perm (task : Task κ) (queue : List (Task κ)) :
    (insert task queue).Perm (task :: queue) := by
  induction queue with
  | nil => exact List.Perm.refl _
  | cons head rest ih =>
    unfold insert
    split
    · exact (ih.cons head).trans (List.Perm.swap task head rest)
    · exact List.Perm.refl _

/-- A queue stays in order when a task newer than all in it is put in. -/
theorem insert_ordered {task : Task κ} {queue : List (Task κ)}
    (ordered : queue.Pairwise Task.before) (newest : ∀ other ∈ queue, other.seq < task.seq) :
    (insert task queue).Pairwise Task.before := by
  induction queue with
  | nil => exact List.pairwise_singleton _ _
  | cons head rest ih =>
    obtain ⟨first, restOrdered⟩ := List.pairwise_cons.mp ordered
    unfold insert
    split
    · rename_i headFirst
      refine List.pairwise_cons.mpr ⟨?_, ih restOrdered fun other member =>
        newest other (List.mem_cons_of_mem _ member)⟩
      intro other member
      rcases List.mem_cons.mp ((insert_perm task rest).mem_iff.mp member) with rfl | inRest
      · exact headFirst
      · exact first other inRest
    · rename_i notFirst
      have taskFirst : task.before head :=
        Task.before_of_not_before (newest head List.mem_cons_self) notFirst
      refine List.pairwise_cons.mpr ⟨?_, ordered⟩
      intro other member
      rcases List.mem_cons.mp member with rfl | inRest
      · exact taskFirst
      · exact Task.before_trans taskFirst (first other inRest)

/-- Queues an action for the given time. -/
def push (loop : EventLoop κ) (due : Duration) (action : Action κ) : EventLoop κ :=
  { loop with
    queue := insert ⟨due, loop.nextSeq, action⟩ loop.queue
    nextSeq := loop.nextSeq + 1 }

/-- Queues a call for when `delay` has passed. -/
def schedule (loop : EventLoop κ) (reading delay : Duration) (callee : κ) (arguments : List κ) :
    EventLoop κ :=
  loop.push (loop.now reading + delay) (.call callee arguments)

/-- Queues an error to be reported as soon as possible. -/
def scheduleFailure (loop : EventLoop κ) (reading : Duration) (diagnostic : Diagnostic) :
    EventLoop κ :=
  loop.push (loop.now reading) (.fail diagnostic)

/-- Begins an operation and gives its number, under which its end is to be reported. -/
def begin (loop : EventLoop κ) (label : String) (span : Span) (callback : Option κ) :
    Nat × EventLoop κ :=
  (loop.nextOperation,
    { loop with
      nextOperation := loop.nextOperation + 1
      pending := loop.pending ++ [⟨loop.nextOperation, label, span, callback⟩]
      unreported := loop.unreported ++ [loop.nextOperation] })

/-- Reports how an operation ended. Only an operation not reported before can be reported. -/
def report? (loop : EventLoop κ) (operation : Nat) (outcome : OperationOutcome) :
    Option (EventLoop κ) :=
  if operation ∈ loop.unreported then
    some { loop with
      unreported := loop.unreported.erase operation
      inbox := loop.inbox ++ [⟨operation, outcome⟩] }
  else none

/-- Reports that nobody carries out an operation any more. -/
def abandon? (loop : EventLoop κ) (operation : Nat) : Option (EventLoop κ) :=
  loop.report? operation (.error abandonment)

/-- The error that a failed operation reports. -/
def failureOf (operation : PendingOperation κ) (problem : String) : Diagnostic :=
  (Diagnostic.ofRuntime .native (operation.label ++ " failed: " ++ problem)).withSpan operation.span

/-- The task that the end of an operation gives rise to, if any: a call of the callback with the
result, or an error. -/
def consequence (operation : PendingOperation κ) (outcome : OperationOutcome) : Option (Action κ) :=
  match outcome with
  | .ok result => operation.callback.map fun callback => .deliver callback result
  | .error problem => some (.fail (failureOf operation problem))

/-- Takes in one report. A report on an operation that is not pending is ignored. -/
def accept (loop : EventLoop κ) (reading : Duration) (report : Report) : EventLoop κ :=
  match loop.pending.find? fun operation => operation.id = report.operation with
  | none => loop
  | some operation =>
    let settled := { loop with
      pending := loop.pending.filter fun other => other.id ≠ report.operation }
    match consequence operation report.outcome with
    | none => settled
    | some action => settled.push (settled.now reading) action

/-- The action that taking in a report queues, if any. -/
def actionOf? (loop : EventLoop κ) (report : Report) : Option (Action κ) :=
  (loop.pending.find? fun operation => operation.id = report.operation).bind fun operation =>
    consequence operation report.outcome

/-- The loop without the operation of the given number. -/
def settle (loop : EventLoop κ) (operation : Nat) : EventLoop κ :=
  { loop with pending := loop.pending.filter fun other => other.id ≠ operation }

/-- Taking in a report settles its operation, and queues its action for the present time. -/
theorem accept_eq (loop : EventLoop κ) (reading : Duration) (report : Report) :
    loop.accept reading report =
      match loop.actionOf? report with
      | none => loop.settle report.operation
      | some action => (loop.settle report.operation).push (loop.now reading) action := by
  unfold accept actionOf?
  cases found : loop.pending.find? fun operation => operation.id = report.operation with
  | none =>
    have absent : loop.pending.filter (fun other => other.id ≠ report.operation) =
      loop.pending := by
      rw [List.filter_eq_self]
      intro other member
      simpa using List.find?_eq_none.mp found other member
    show loop = { loop with pending := loop.pending.filter fun other =>
      other.id ≠ report.operation }
    rw [absent]
  | some operation =>
    simp only [Option.bind_some]
    cases consequence operation report.outcome <;> rfl

/-- Takes in the oldest report of the inbox, if there is one. -/
def receive (loop : EventLoop κ) (reading : Duration) : EventLoop κ :=
  match loop.inbox with
  | [] => loop
  | report :: rest => { loop with inbox := rest }.accept reading report

/-- Takes in all reports of the inbox. -/
def receiveAll (loop : EventLoop κ) (reading : Duration) : EventLoop κ :=
  loop.inbox.foldl (fun loop report => loop.accept reading report) { loop with inbox := [] }

/-- Says what the loop is ready for, when the inbox is empty, and takes a ready task off the
queue. -/
def select (loop : EventLoop κ) (reading : Duration) : Poll κ × EventLoop κ :=
  match loop.queue with
  | [] => (if loop.pending.isEmpty then .idle else .await none, loop)
  | head :: rest =>
    if head.due ≤ loop.now reading then (.ready head, { loop with queue := rest })
    else
      match loop.clock with
      | .virtual =>
        if loop.pending.isEmpty then
          (.ready head, { loop with queue := rest, virtualNow := head.due })
        else (.await none, loop)
      | .real =>
        (if loop.pending.isEmpty then .sleep head.due else .await (some head.due), loop)

/-- Takes in the reports, then says what the loop is ready for. -/
def poll (loop : EventLoop κ) (reading : Duration) : Poll κ × EventLoop κ :=
  (loop.receiveAll reading).select reading

end EventLoop

end EventScript
