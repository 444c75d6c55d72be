import EventScript.Proofs.Mirroring.Heap

/-!
# Computations that do the same

Machines mirror each other (`Machine.Mirrors`) when their heaps do and the code of each stands in a
given scope. Computations mirror each other (`Run.Mirrors`) when they lead from such machines to
such machines and give what is related, or fail in the same way. The rules below are about the steps
that computations are made of.
-/

namespace EventScript

section Loops

variable {κ : Type}

/-- The actions are about related values. -/
inductive Action.Rel (same : κ → κ → Prop) : Action κ → Action κ → Prop where
  | call {callee callee' : κ} {arguments arguments' : List κ} (callees : same callee callee')
      (all : List.Forall₂ same arguments arguments') :
      Rel same (.call callee arguments) (.call callee' arguments')
  | deliver {callback callback' : κ} (callbacks : same callback callback') (result : Payload) :
      Rel same (.deliver callback result) (.deliver callback' result)
  | fail (diagnostic : Diagnostic) : Rel same (.fail diagnostic) (.fail diagnostic)

/-- The tasks have the same place in the queue, and related actions. -/
structure Task.Rel (same : κ → κ → Prop) (task task' : Task κ) : Prop where
  due : task'.due = task.due
  seq : task'.seq = task.seq
  action : task.action.Rel same task'.action

/-- The operations are the same but for related callbacks. -/
structure PendingOperation.Rel (same : κ → κ → Prop) (operation operation' : PendingOperation κ) :
    Prop where
  id : operation'.id = operation.id
  label : operation'.label = operation.label
  span : operation'.span = operation.span
  callback : Option.Rel same operation.callback operation'.callback

/-- The event loops are the same but for related values. -/
structure EventLoop.Rel (same : κ → κ → Prop) (loop loop' : EventLoop κ) : Prop where
  clock : loop'.clock = loop.clock
  queue : List.Forall₂ (Task.Rel same) loop.queue loop'.queue
  nextSeq : loop'.nextSeq = loop.nextSeq
  nextOperation : loop'.nextOperation = loop.nextOperation
  pending : List.Forall₂ (PendingOperation.Rel same) loop.pending loop'.pending
  unreported : loop'.unreported = loop.unreported
  inbox : loop'.inbox = loop.inbox
  virtualNow : loop'.virtualNow = loop.virtualNow

/-- Actions that are related are related in a weaker way. -/
theorem Action.Rel.imp {same other : κ → κ → Prop} {action action' : Action κ}
    (related : action.Rel same action') (implies : ∀ a b, same a b → other a b) :
    action.Rel other action' := by
  cases related with
  | call callees all => exact .call (implies _ _ callees) (all.imp implies)
  | deliver callbacks result => exact .deliver (implies _ _ callbacks) result
  | fail diagnostic => exact .fail diagnostic

/-- Tasks that are related come in the same order. -/
theorem Task.Rel.before_iff {same : κ → κ → Prop} {first first' second second' : Task κ}
    (firsts : first.Rel same first') (seconds : second.Rel same second') :
    first'.before second' ↔ first.before second := by
  unfold Task.before
  rw [firsts.due, firsts.seq, seconds.due, seconds.seq]

namespace EventLoop

variable {same other : κ → κ → Prop} {loop loop' : EventLoop κ}

/-- Event loops that are related are related in a weaker way. -/
theorem Rel.imp (related : loop.Rel same loop') (implies : ∀ a b, same a b → other a b) :
    loop.Rel other loop' :=
  { related with
    queue := related.queue.imp fun _ _ tasks => { tasks with action := tasks.action.imp implies }
    pending := related.pending.imp fun _ _ operations =>
      { operations with callback := operations.callback.imp implies } }

/-- Putting related tasks into related queues leaves related queues. -/
theorem rel_insert {task task' : Task κ} (tasks : task.Rel same task')
    {queue queue' : List (Task κ)}
    (all : List.Forall₂ (Task.Rel same) queue queue') :
    List.Forall₂ (Task.Rel same) (insert task queue) (insert task' queue') := by
  induction all with
  | nil => exact .cons tasks .nil
  | @cons head head' _ _ heads rest ih =>
    unfold EventLoop.insert
    by_cases first : head.before task
    · rw [if_pos first, if_pos ((heads.before_iff tasks).mpr first)]
      exact .cons heads ih
    · rw [if_neg first, if_neg fun first' => first ((heads.before_iff tasks).mp first')]
      exact .cons tasks (.cons heads rest)

/-- Queueing related calls leaves related event loops. -/
theorem Rel.schedule (related : loop.Rel same loop') (reading delay : Duration) {callee callee' : κ}
    (callees : same callee callee') :
    (loop.schedule reading delay callee []).Rel same (loop'.schedule reading delay callee' []) := by
  have now : loop'.now reading = loop.now reading := by
    unfold EventLoop.now
    rw [related.clock, related.virtualNow]
  have tasks : Task.Rel same ⟨loop.now reading + delay, loop.nextSeq, .call callee []⟩
      ⟨loop'.now reading + delay, loop'.nextSeq, .call callee' []⟩ :=
    ⟨by rw [now], related.nextSeq, .call callees .nil⟩
  exact { related with
    queue := rel_insert tasks related.queue
    nextSeq := congrArg Nat.succ related.nextSeq }

/-- Beginning operations with related callbacks leaves related event loops, and gives the same
number. -/
theorem Rel.begin (related : loop.Rel same loop') (label : String) (span : Span)
    {callback callback' : Option κ} (callbacks : Option.Rel same callback callback') :
    (loop'.begin label span callback').1 = (loop.begin label span callback).1 ∧
      (loop.begin label span callback).2.Rel same (loop'.begin label span callback').2 := by
  unfold EventLoop.begin
  rw [related.nextOperation, related.unreported]
  have begun : PendingOperation.Rel same ⟨loop.nextOperation, label, span, callback⟩
      ⟨loop.nextOperation, label, span, callback'⟩ := ⟨rfl, rfl, rfl, callbacks⟩
  have pending := List.rel_append related.pending (.cons begun .nil)
  exact ⟨rfl, { related with nextOperation := rfl, pending := pending, unreported := rfl }⟩

end EventLoop

end Loops

/-- The machines are the same up to the pairing, and their code stands in the two scopes. -/
structure Machine.Mirrors (pairing : Pairing) (scope scope' : Nat) (machine machine' : Machine) :
    Prop where
  heap : machine.heap.Mirrors pairing machine'.heap
  globals : pairing.paired machine.globals machine'.globals
  scope : machine.scope = scope
  scope' : machine'.scope = scope'
  frames : List.Forall₂ (Frame.Mirrors pairing) machine.frames machine'.frames
  events : machine.events.Rel (Value.Mirrors pairing) machine'.events
  launched : machine'.launched = machine.launched
  settings : machine'.settings = machine.settings
  console : machine'.console = machine.console
  sink : machine'.sink = machine.sink
  reported : machine'.reported = machine.reported
  clock : machine'.clock = machine.clock

/-- The outcomes give what is related or fail in the same way, and leave machines that mirror each
other. -/
inductive Outcome.Mirrors {α β : Type} (pairing : Pairing) (scope scope' : Nat)
    (same : α → β → Prop) :
    Outcome α → Outcome β → Prop where
  | done {value : α} {value' : β} {later later' : Machine} (values : same value value')
      (machines : later.Mirrors pairing scope scope' later') :
      Mirrors pairing scope scope' same (.done value later) (.done value' later')
  | failed (diagnostic : Diagnostic) {later later' : Machine}
      (machines : later.Mirrors pairing scope scope' later') :
      Mirrors pairing scope scope' same (.failed diagnostic later) (.failed diagnostic later')
  | exhausted : Mirrors pairing scope scope' same .exhausted .exhausted

/-- Outcomes that mirror each other do so with values related in a weaker way. -/
theorem Outcome.Mirrors.imp {α β : Type} {pairing : Pairing} {scope scope' : Nat}
    {same other : α → β → Prop} {outcome : Outcome α} {outcome' : Outcome β}
    (mirrors : outcome.Mirrors pairing scope scope' same outcome')
    (implies : ∀ a b, same a b → other a b) :
    outcome.Mirrors pairing scope scope' other outcome' := by
  cases mirrors with
  | done values machines => exact .done (implies _ _ values) machines
  | failed diagnostic machines => exact .failed diagnostic machines
  | exhausted => exact .exhausted

/-- What mirrors an outcome with a value is an outcome with a value. -/
theorem Outcome.Mirrors.exists_done {α β : Type} {pairing : Pairing} {scope scope' : Nat}
    {same : α → β → Prop} {value : α} {later : Machine} {outcome' : Outcome β}
    (mirrors : Outcome.Mirrors pairing scope scope' same (.done value later) outcome') :
    ∃ value' later', outcome' = .done value' later' ∧ same value value' ∧
      later.Mirrors pairing scope scope' later' := by
  cases mirrors with
  | done values machines => exact ⟨_, _, rfl, values, machines⟩

/-- On machines that mirror each other the computations have outcomes that do. -/
def Run.Mirrors {α β : Type} (pairing : Pairing) (scope scope' : Nat) (same : α → β → Prop)
    (run : Run α) (run' : Run β) : Prop :=
  ∀ machine machine', machine.Mirrors pairing scope scope' machine' →
    (run machine).Mirrors pairing scope scope' same (run' machine')

/-- Scopes may be added to both machines. -/
theorem Machine.Mirrors.grows {pairing later : Pairing} {scope scope' : Nat}
    {machine machine' : Machine}
    (mirrors : machine.Mirrors pairing scope scope' machine') (grown : pairing.Grows later)
    {heap heap' : Heap} (heaps : heap.Mirrors later heap') :
    Machine.Mirrors later scope scope' { machine with heap } { machine' with heap := heap' } :=
  { mirrors with
    heap := heaps
    globals := grown.paired mirrors.globals
    frames := mirrors.frames.imp fun _ _ frame => frame.grows grown
    events := mirrors.events.imp fun _ _ value => value.grows grown }

namespace Run

variable {α β γ δ : Type} {pairing : Pairing} {scope scope' : Nat}
variable {same : α → β → Prop} {other : γ → δ → Prop}

/-- Giving related values is alike. -/
theorem Mirrors.pure {value : α} {value' : β} (values : same value value') :
    Mirrors pairing scope scope' same (pure value) (pure value') :=
  fun _ _ machines => .done values machines

/-- Failing with the same diagnostic is alike. -/
theorem Mirrors.raise (diagnostic : Diagnostic) :
    Mirrors pairing scope scope' same (raise diagnostic) (raise diagnostic) :=
  fun _ _ machines => .failed diagnostic machines

/-- Failing with the same fault is alike. -/
theorem Mirrors.fault (fault : Fault) :
    Mirrors pairing scope scope' same (Run.fault fault) (Run.fault fault) := .raise _

/-- Failing with the same fault at the same span is alike. -/
theorem Mirrors.faultAt (fault : Fault) (span : Span) :
    Mirrors pairing scope scope' same (Run.faultAt fault span) (Run.faultAt fault span) := .raise _

/-- Computations that follow each other are alike if both parts are. -/
theorem Mirrors.bind {first : Run α} {first' : Run β} {rest : α → Run γ} {rest' : β → Run δ}
    (mirrors : first.Mirrors pairing scope scope' same first')
    (onward : ∀ {value value'}, same value value' →
      (rest value).Mirrors pairing scope scope' other (rest' value')) :
    (first >>= rest).Mirrors pairing scope scope' other (first' >>= rest') := by
  intro machine machine' machines
  have early := mirrors machine machine' machines
  cases ended : first machine <;> cases ended' : first' machine' <;> rw [ended, ended'] at early <;>
    cases early
  case done.done values laters =>
    rw [bind_done ended, bind_done ended']
    exact onward values _ _ laters
  case failed.failed laters =>
    rw [bind_failed ended, bind_failed ended']
    exact .failed _ laters
  case exhausted.exhausted =>
    rw [bind_exhausted ended, bind_exhausted ended']
    exact .exhausted

/-- What follows goes on with what both computations give. -/
theorem Mirrors.bindSame {first first' : Run α} {rest : α → Run γ} {rest' : α → Run δ}
    (mirrors : first.Mirrors pairing scope scope' Eq first')
    (onward : ∀ value, (rest value).Mirrors pairing scope scope' other (rest' value)) :
    (first >>= rest).Mirrors pairing scope scope' other (first' >>= rest') :=
  mirrors.bind fun same => same ▸ onward _

/-- Computations for every element of a list are alike if each of them is. -/
theorem Mirrors.mapM {ι : Type} {run : ι → Run α} {run' : ι → Run β} (items : List ι)
    (mirrors : ∀ item, (run item).Mirrors pairing scope scope' same (run' item)) :
    Mirrors pairing scope scope' (List.Forall₂ same) (items.mapM run) (items.mapM run') := by
  induction items with
  | nil => exact .pure .nil
  | cons first rest ih =>
    rw [List.mapM_cons, List.mapM_cons]
    exact (mirrors first).bind fun values => ih.bind fun all => .pure (.cons values all)

/-- Failures may be rewritten alike. -/
theorem Mirrors.mapFailure {run : Run α} {run' : Run β}
    (mirrors : run.Mirrors pairing scope scope' same run') (change : Diagnostic → Diagnostic) :
    (run.mapFailure change).Mirrors pairing scope scope' same (run'.mapFailure change) := by
  intro machine machine' machines
  have early := mirrors machine machine' machines
  unfold Run.mapFailure
  revert early
  generalize run machine = outcome
  generalize run' machine' = outcome'
  intro early
  cases early with
  | done values laters => exact .done values laters
  | failed diagnostic laters => exact .failed _ laters
  | exhausted => exact .exhausted

/-- Computations that are alike still are when failures are pointed at a span. -/
theorem Mirrors.withSpan {run : Run α} {run' : Run β}
    (mirrors : run.Mirrors pairing scope scope' same run') (span : Span) :
    (run.withSpan span).Mirrors pairing scope scope' same (run'.withSpan span) :=
      mirrors.mapFailure _

/-- Looking at the machine gives machines that mirror each other. -/
theorem Mirrors.machine :
    Mirrors pairing scope scope' (Machine.Mirrors pairing scope scope') machine machine :=
  fun _ _ machines => .done machines machines

/-- Looking at the heap gives heaps that mirror each other. -/
theorem Mirrors.heap : Mirrors pairing scope scope' (Heap.Mirrors pairing) heap heap :=
  fun _ _ machines => .done machines.heap machines

/-- Changing the machine is alike if the changed machines mirror each other. -/
theorem Mirrors.modify {change change' : Machine → Machine}
    (changes : ∀ {machine machine'}, machine.Mirrors pairing scope scope' machine' →
      (change machine).Mirrors pairing scope scope' (change' machine')) :
    Mirrors pairing scope scope' Eq (modify change) (modify change') :=
  fun _ _ machines => .done rfl (changes machines)

/-- Making something on the heap is alike if the new heaps mirror each other. -/
theorem Mirrors.create {new : Heap → α × Heap} {new' : Heap → β × Heap}
    (creates : ∀ {heap heap'}, heap.Mirrors pairing heap' →
      same (new heap).1 (new' heap').1 ∧ (new heap).2.Mirrors pairing (new' heap').2) :
    Mirrors pairing scope scope' same (create new) (create new') := by
  intro machine machine' machines
  obtain ⟨values, heaps⟩ := creates machines.heap
  exact .done values (machines.grows (.refl pairing) heaps)

/-- Changing the heap is alike if the changed heaps mirror each other. -/
theorem Mirrors.modifyHeap {change change' : Heap → Heap}
    (changes : ∀ {heap heap'}, heap.Mirrors pairing heap' →
      (change heap).Mirrors pairing (change' heap')) :
    Mirrors pairing scope scope' Eq (modifyHeap change) (modifyHeap change') :=
  fun _ _ machines => .done rfl (machines.grows (.refl pairing) (changes machines.heap))

end Run

end EventScript
