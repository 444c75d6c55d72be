import EventScript.Proofs.EventLoop.TaskOrder

/-!
# The virtual time

On the virtual clock no time passes while something can happen. A step leaves the time as it is
(`Still`), or it is the jump of a call to its first task when nothing is pending (`Jump`). As a new
task is due now or later and a jump goes to the first task due, no task is ever overdue.
-/

namespace EventScript

namespace LoopSystem

variable {κ : Type}

/-- Nothing in the queue is overdue. -/
def Timely (system : LoopSystem κ) : Prop := ∀ task ∈ system.loop.queue, system.now ≤ task.due

/-- The time stands still, what is queued newly is not overdue, and what is returned was due. -/
structure Still (system later : LoopSystem κ) : Prop where
  now : later.now = system.now
  queue : ∀ task ∈ later.loop.queue, task ∈ system.loop.queue ∨ system.now ≤ task.due
  answers : ∀ task, later.answers = system.answers ++ [some task] →
    task ∈ system.loop.queue ∧ task.due ≤ system.now

/-- A call returns the first task and takes the time forward to it, when nothing is pending. -/
structure Jump (system later : LoopSystem κ) (task : Task κ) : Prop where
  deciding : system.stage = .deciding
  settled : system.loop.pending = []
  queue : system.loop.queue = task :: later.loop.queue
  future : system.now < task.due
  now : later.now = task.due
  answers : later.answers = system.answers ++ [some task]

/-- A step that returns nothing and keeps the queue and the time keeps everything still. -/
theorem Still.of_same {system later : LoopSystem κ} (now : later.now = system.now)
    (queue : later.loop.queue = system.loop.queue) (answers : later.answers = system.answers) :
    system.Still later := by
  constructor
  · exact now
  · intro task member
    rw [queue] at member
    exact .inl member
  · intro task answered
    rw [answers] at answered
    exact absurd (List.self_eq_append_right.mp answered) (List.cons_ne_nil _ _)

/-- Queueing a task that is due now or later leaves the time still. -/
theorem Still.of_push {system later : LoopSystem κ} {due : Duration} {action : Action κ}
    (onward : system.now ≤ due) (now : later.now = system.now)
    (queue : later.loop.queue = EventLoop.insert (system.newTask due action) system.loop.queue)
    (answers : later.answers = system.answers) : system.Still later := by
  constructor
  · exact now
  · intro task member
    rw [queue] at member
    rcases List.mem_cons.mp ((EventLoop.insert_perm _ _).mem_iff.mp member) with rfl | inQueue
    · exact .inr onward
    · exact .inl inQueue
  · intro task answered
    rw [answers] at answered
    exact absurd (List.self_eq_append_right.mp answered) (List.cons_ne_nil _ _)

/-- Every step on the virtual clock leaves the time still or jumps. -/
theorem still_or_jump {system later : LoopSystem κ} (clock : system.loop.clock = .virtual)
    (nowFits : system.now ≤ .longest) (step : system.Step later) :
    system.Still later ∨ ∃ task, system.Jump later task := by
  have onward : system.now ≤ system.now := Duration.le_refl _
  cases step with
  | schedule running delay callee arguments =>
    exact .inl (.of_push (Duration.le_add nowFits delay) rfl rfl rfl)
  | scheduleFailure running diagnostic => exact .inl (.of_push onward rfl rfl rfl)
  | begin | ask | exhaust | wake => exact .inl (.of_same rfl rfl rfl)
  | complete operation outcome held =>
    obtain ⟨_, _, rfl⟩ := EventLoop.eq_of_complete? held
    exact .inl (.of_same rfl rfl rfl)
  | abandon operation held =>
    obtain ⟨_, rfl⟩ := EventLoop.eq_of_report? held
    exact .inl (.of_same rfl rfl rfl)
  | tick reading after readingFits =>
    refine .inl (.of_same ?_ rfl rfl)
    simp only [LoopSystem.now, EventLoop.now, clock]
  | @receive report rest receives inbox =>
    cases action : system.loop.actionOf? report with
    | none =>
      rw [receive_of_none inbox action]
      exact .inl (.of_same rfl rfl rfl)
    | some action =>
      rw [receive_of_some inbox action]
      exact .inl (.of_push onward rfl rfl rfl)
  | select deciding selected =>
    cases EventLoop.decision_of_select selected with
    | idle | await | awaitUntil | sleep =>
      refine .inl ⟨rfl, fun task member => .inl member, ?_⟩
      intro task answered
      exact absurd (List.append_cancel_left answered) (by simp [Poll.answer?])
    | @due head rest queue due =>
      refine .inl ⟨rfl, fun task member => .inl (queue ▸ List.mem_cons_of_mem _ member), ?_⟩
      intro task answered
      obtain ⟨⟩ := List.append_cancel_left answered
      exact ⟨queue ▸ List.mem_cons_self, due⟩
    | @jump head rest queue future clock settled =>
      exact .inr ⟨head, deciding, settled, queue, future, now_of_jump clock _ _ _, rfl⟩

/-- Every step on the virtual clock leaves nothing overdue. -/
theorem Timely.step {system later : LoopSystem κ} (timely : system.Timely)
    (inOrder : system.InOrder) (clock : system.loop.clock = .virtual)
    (step : system.Step later) : later.Timely := by
  intro task member
  rcases still_or_jump clock inOrder.nowFits step with still | ⟨first, jump⟩
  · rw [still.now]
    rcases still.queue task member with queued | onward
    · exact timely task queued
    · exact onward
  · have ordered := (List.pairwise_append.mp inOrder.ordered).2.1
    rw [jump.queue] at ordered
    rw [jump.now]
    rcases (List.pairwise_cons.mp ordered).1 task member with earlier | ⟨same, _⟩
    · exact Duration.le_of_lt earlier
    · exact same ▸ Duration.le_refl _

/-- In every state of every run on the virtual clock nothing is overdue. -/
theorem Reachable.timely {system : LoopSystem κ} (reached : system.Reachable .virtual) :
    system.Timely := by
  induction reached with
  | fresh => exact nofun
  | step reached step ih => exact ih.step reached.inOrder (clock_eq reached) step

/-- Over every run on the virtual clock no task in the queue is overdue. The time never goes back.
It changes only where a call for the next task decides while nothing is pending, and then to the
time of the task it returns. So every task returned is due just then, and none that lies in the
future is returned while an operation is pending. -/
theorem virtual_time_jumps {system : LoopSystem κ} (reached : system.Reachable .virtual) :
    (∀ task ∈ system.loop.queue, system.now ≤ task.due) ∧
      ∀ later, system.Step later →
        system.now ≤ later.now ∧
        (later.now ≠ system.now →
          system.stage = .deciding ∧ system.loop.pending = [] ∧
            ∃ task ∈ system.loop.queue, later.answers = system.answers ++ [some task] ∧
              later.now = task.due) ∧
        ∀ task, later.answers = system.answers ++ [some task] →
          task.due = later.now ∧ (system.now < task.due → system.loop.pending = []) := by
  refine ⟨reached.timely, ?_⟩
  intro later step
  rcases still_or_jump (clock_eq reached) reached.inOrder.nowFits step with still | ⟨first, jump⟩
  · have onward : system.now ≤ later.now := by
      rw [still.now]
      exact Duration.le_refl _
    refine ⟨onward, fun changed => absurd still.now changed, ?_⟩
    intro task answered
    obtain ⟨queued, due⟩ := still.answers task answered
    have same : task.due = system.now := Duration.le_antisymm due (reached.timely task queued)
    refine ⟨same.trans still.now.symm, ?_⟩
    intro future
    rw [same] at future
    exact absurd future (Nat.lt_irrefl _)
  · have onward : system.now ≤ later.now := by
      rw [jump.now]
      exact Duration.le_of_lt jump.future
    have queued : first ∈ system.loop.queue := by
      rw [jump.queue]
      exact List.mem_cons_self
    refine ⟨onward, ?_, ?_⟩
    · intro _
      exact ⟨jump.deciding, jump.settled, first, queued, jump.answers, jump.now⟩
    · intro task answered
      have same : first = task := by
        have both := jump.answers.symm.trans answered
        exact Option.some.inj (List.cons.inj (List.append_cancel_left both)).1
      rw [← same]
      exact ⟨jump.now.symm, fun _ => jump.settled⟩

/-- A timer is queued and an operation begun. The call waits for the report and returns its task
first. Only the next call, with nothing pending, jumps to the timer. -/
theorem virtual_time_jumps_after_report :
    ∃ system later : LoopSystem Unit, system.Reachable .virtual ∧ system.Step later ∧
      system.returned = [⟨.zero, 1, .deliver () .unit⟩] ∧
      later.answers = system.answers ++ [some ⟨⟨5⟩, 0, .call () []⟩] ∧
      later.now ≠ system.now ∧
      system.loop.pending = [] ∧ later.now = ⟨5⟩ := by
  have timer := (@Reachable.fresh Unit .virtual).step (.schedule rfl ⟨5⟩ () [])
  have begun := timer.step (.begin rfl "prompt" default (some ()))
  have waiting := ((begun.step (.ask rfl)).step (.exhaust rfl rfl)).step (.select rfl rfl)
  have received := (waiting.step (.complete 0 (.ok .unit) rfl)).step (.receive rfl rfl)
  have delivered := (received.step (.exhaust rfl rfl)).step (.select rfl rfl)
  have deciding := (delivered.step (.ask rfl)).step (.exhaust rfl rfl)
  obtain ⟨_, onStep⟩ := virtual_time_jumps deciding
  obtain ⟨_, changes, returns⟩ := onStep _ (.select rfl rfl)
  obtain ⟨-, settled, -⟩ := changes nofun
  obtain ⟨due, -⟩ := returns _ rfl
  exact ⟨_, _, deciding, .select rfl rfl, rfl, rfl, nofun, settled, due.symm⟩

end LoopSystem

end EventScript
