import EventScript.Proofs.EventLoop.Completion

/-!
# What is handed on

A program only adds to the event loop it runs in (`EventLoop.Grows`): no task is taken off the queue
and no report taken in while it runs. Between tasks nothing gets lost (`EventLoop.HandsOn`): a
queued task stays queued until it is ready, and a pending operation stays pending until a report is
taken in, which queues whatever the end of the operation gives rise to.
-/

namespace EventScript

namespace EventLoop

variable {κ : Type} {before after later loop : EventLoop κ}

/-- Tasks were queued and operations begun, and nothing else has happened. -/
structure Grows (before after : EventLoop κ) : Prop where
  queue : before.queue.Sublist after.queue
  pending : before.pending <+: after.pending
  inbox : after.inbox = before.inbox
  virtualNow : after.virtualNow = before.virtualNow

namespace Grows

/-- A loop that nothing is added to has grown by nothing. -/
theorem refl (loop : EventLoop κ) : loop.Grows loop := ⟨.refl _, List.prefix_rfl, rfl, rfl⟩

/-- Growing twice is growing. -/
theorem trans (first : before.Grows after) (second : after.Grows later) : before.Grows later where
  queue := first.queue.trans second.queue
  pending := first.pending.trans second.pending
  inbox := second.inbox.trans first.inbox
  virtualNow := second.virtualNow.trans first.virtualNow

end Grows

/-- Putting in a task leaves the others in their order. -/
theorem sublist_insert (task : Task κ) (queue : List (Task κ)) :
    queue.Sublist (insert task queue) := by
  induction queue with
  | nil => exact List.nil_sublist _
  | cons head rest ih =>
    unfold insert
    split
    · exact ih.cons_cons head
    · exact List.sublist_cons_self _ _

/-- Queueing a call makes a loop grow. -/
theorem grows_schedule (loop : EventLoop κ) (reading delay : Duration) (callee : κ)
    (arguments : List κ) : loop.Grows (loop.schedule reading delay callee arguments) :=
  ⟨sublist_insert _ _, List.prefix_rfl, rfl, rfl⟩

/-- Beginning an operation makes a loop grow. -/
theorem grows_begin (loop : EventLoop κ) (label : String) (span : Span) (callback : Option κ) :
    loop.Grows (loop.begin label span callback).2 :=
  ⟨.refl _, List.prefix_append _ _, rfl, rfl⟩

/-- Nothing got lost: tasks are still queued, and where operations are no longer pending, the tasks
that their ends give rise to are. -/
structure HandsOn (before after : EventLoop κ) : Prop where
  queue : before.queue ⊆ after.queue
  pending : ∀ operation ∈ before.pending, operation ∈ after.pending ∨
    ∃ outcome, ∀ action, consequence operation outcome = some action →
      ∃ task ∈ after.queue, task.action = action

namespace HandsOn

/-- A loop that nothing happens to hands on what it has. -/
theorem refl (loop : EventLoop κ) : loop.HandsOn loop :=
  ⟨List.Subset.refl _, fun _ member => .inl member⟩

/-- What is handed on twice is handed on. -/
theorem trans (first : before.HandsOn after) (second : after.HandsOn later) :
    before.HandsOn later where
  queue := List.Subset.trans first.queue second.queue
  pending := by
    intro operation member
    rcases first.pending operation member with still | ⟨outcome, gives⟩
    · exact second.pending operation still
    · refine .inr ⟨outcome, fun action gave => ?_⟩
      obtain ⟨task, queued, same⟩ := gives action gave
      exact ⟨task, second.queue queued, same⟩

/-- A loop that only grows hands on all it has. -/
theorem of_grows (grows : before.Grows after) : before.HandsOn after :=
  ⟨grows.queue.subset, fun _ member => .inl (grows.pending.subset member)⟩

/-- Only what is queued and pending matters. -/
theorem of_same (queue : after.queue = before.queue) (pending : after.pending = before.pending) :
    before.HandsOn after :=
  ⟨queue ▸ List.Subset.refl _, fun _ member => .inl (pending ▸ member)⟩

end HandsOn

/-- All that is pending has different numbers. -/
def Distinct (loop : EventLoop κ) : Prop := (loop.pending.map PendingOperation.id).Nodup

/-- Of operations with different numbers, a report finds the one that it is about. -/
theorem Distinct.find? (distinct : loop.Distinct) {operation : PendingOperation κ}
    (member : operation ∈ loop.pending) :
    (loop.pending.find? fun other => other.id = operation.id) = some operation := by
  rw [← List.head?_filter, LoopSystem.filter_id_eq distinct member]
  rfl

/-- Taking in a report ends the operation that it is on, and no other. -/
theorem accept_pending (loop : EventLoop κ) (reading : Duration) (report : Report) :
    (loop.accept reading report).pending =
      loop.pending.filter fun other => other.id ≠ report.operation := by
  rw [accept_eq]
  cases loop.actionOf? report <;> rfl

/-- Taking in a report leaves the operations that go on told apart by number. -/
theorem Distinct.accept (distinct : loop.Distinct) (reading : Duration) (report : Report) :
    (loop.accept reading report).Distinct := by
  unfold Distinct
  rw [accept_pending]
  exact (List.filter_sublist.map _).nodup distinct

/-- Taking in a report hands on what it is about. -/
theorem Distinct.handsOn_accept (distinct : loop.Distinct) (reading : Duration) (report : Report) :
    loop.HandsOn (loop.accept reading report) where
  queue := by
    rw [accept_eq]
    cases loop.actionOf? report with
    | none => exact List.Subset.refl _
    | some action => exact (sublist_insert _ _).subset
  pending := by
    intro operation member
    rw [accept_pending]
    by_cases about : operation.id = report.operation
    · have found := distinct.find? member
      rw [about] at found
      refine .inr ⟨report.outcome, fun action gives => ?_⟩
      have queued : loop.actionOf? report = some action := by
        unfold actionOf?
        rw [found]
        exact gives
      rw [accept_eq, queued]
      exact ⟨_, (insert_perm _ _).mem_iff.mpr List.mem_cons_self, rfl⟩
    · exact .inl (List.mem_filter.mpr ⟨member, decide_eq_true about⟩)

/-- Taking in all reports hands on what they are about. -/
theorem Distinct.handsOn_receiveAll (distinct : loop.Distinct) (reading : Duration) :
    loop.HandsOn (loop.receiveAll reading) := by
  have taken : ∀ (reports : List Report) (loop : EventLoop κ), loop.Distinct →
      loop.HandsOn (reports.foldl (fun loop report => loop.accept reading report) loop) := by
    intro reports
    induction reports with
    | nil => exact fun loop _ => .refl loop
    | cons report rest ih =>
      exact fun loop distinct =>
        (distinct.handsOn_accept reading report).trans (ih _ (distinct.accept reading report))
  have emptied : loop.HandsOn { loop with inbox := [] } := .of_same rfl rfl
  exact emptied.trans (taken loop.inbox { loop with inbox := [] } distinct)

end EventLoop

namespace Poll

variable {κ : Type}

/-- The task that is ready, if there is one. -/
def tasks : Poll κ → List (Task κ)
  | ready task => [task]
  | _ => []

end Poll

/-- Deciding takes the task that is ready off the queue. -/
theorem EventLoop.Decision.queue_eq {κ : Type} {loop after : EventLoop κ} {reading : Duration}
    {poll : Poll κ} (decision : Decision loop reading poll after) :
    loop.queue = poll.tasks ++ after.queue ∧ after.pending = loop.pending := by
  cases decision with
  | due queue | jump queue => exact ⟨queue, rfl⟩
  | idle | await | awaitUntil | sleep => exact ⟨rfl, rfl⟩

/-- A loop that is found idle has nothing queued and nothing pending. -/
theorem EventLoop.Decision.isIdle {κ : Type} {loop after : EventLoop κ} {reading : Duration}
    (decision : Decision loop reading .idle after) : after.isIdle = true := by
  cases decision with
  | idle empty settled => simp [EventLoop.isIdle, empty, settled]

end EventScript
