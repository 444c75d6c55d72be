import EventScript.Proofs.EventLoop.System

/-!
# The order of tasks

Tasks may be queued at any moment, also by a report that a call for the next task takes in, yet over
a whole run they come out in the order of their due times and, among equals, of queueing. The
invariant `InOrder` looks at the tasks returned and the queue behind them as one list: it is in
order, it holds every task queued once, and the time has passed the due times of its first part. A
new task is due now or later, so it goes behind that part. Sums of times are cut off at the longest
duration, which no reading of a clock exceeds, so this is also true there.
-/

namespace EventScript

namespace LoopSystem

variable {κ : Type}

/-- The tasks returned and the queue behind them are the tasks queued, in order, and those returned
were due. -/
structure InOrder (system : LoopSystem κ) : Prop where
  ordered : (system.returned ++ system.loop.queue).Pairwise Task.before
  past : ∀ task ∈ system.returned, task.due ≤ system.now
  conserved : (system.returned ++ system.loop.queue).Perm system.queued
  numbered : system.queued.map Task.seq = List.range system.loop.nextSeq
  fits : ∀ task ∈ system.loop.queue, task.due ≤ .longest
  nowFits : system.now ≤ .longest

/-- The tasks returned and those queued have different numbers, all given out before. -/
theorem InOrder.seq_lt {system : LoopSystem κ} (inOrder : system.InOrder) {task : Task κ}
    (member : task ∈ system.returned ++ system.loop.queue) : task.seq < system.loop.nextSeq := by
  have queued : task ∈ system.queued := inOrder.conserved.mem_iff.mp member
  have number : task.seq ∈ system.queued.map Task.seq := List.mem_map_of_mem queued
  rw [inOrder.numbered] at number
  exact List.mem_range.mp number

/-- The order is kept where time goes on and nothing is queued or returned. -/
theorem InOrder.of_same {system later : LoopSystem κ} (inOrder : system.InOrder)
    (queue : later.loop.queue = system.loop.queue)
    (nextSeq : later.loop.nextSeq = system.loop.nextSeq)
    (queued : later.queued = system.queued) (returned : later.returned = system.returned)
    (onward : system.now ≤ later.now) (nowFits : later.now ≤ .longest) : later.InOrder := by
  constructor
  · rw [returned, queue]
    exact inOrder.ordered
  · rw [returned]
    exact fun task member => Duration.le_trans (inOrder.past task member) onward
  · rw [returned, queue, queued]
    exact inOrder.conserved
  · rw [queued, nextSeq]
    exact inOrder.numbered
  · rw [queue]
    exact inOrder.fits
  · exact nowFits

/-- The order is kept where a task is queued that is due now or later. -/
theorem InOrder.of_push {system later : LoopSystem κ} (inOrder : system.InOrder) {due : Duration}
    {action : Action κ} (onward : system.now ≤ due) (fits : due ≤ .longest)
    (queue : later.loop.queue = EventLoop.insert (system.newTask due action) system.loop.queue)
    (nextSeq : later.loop.nextSeq = system.loop.nextSeq + 1)
    (queued : later.queued = system.queued ++ [system.newTask due action])
    (answers : later.answers = system.answers) (now : later.now = system.now) : later.InOrder := by
  have returned : later.returned = system.returned := by rw [LoopSystem.returned, answers]; rfl
  obtain ⟨returnedOrdered, queueOrdered, behind⟩ := List.pairwise_append.mp inOrder.ordered
  have insertPerm := EventLoop.insert_perm (system.newTask due action) system.loop.queue
  have newest : ∀ task ∈ system.loop.queue, task.seq < system.loop.nextSeq :=
    fun task member => inOrder.seq_lt (List.mem_append_right _ member)
  constructor
  · rw [returned, queue]
    refine List.pairwise_append.mpr
      ⟨returnedOrdered, EventLoop.insert_ordered queueOrdered newest, ?_⟩
    intro past pastMember task member
    rcases List.mem_cons.mp (insertPerm.mem_iff.mp member) with rfl | inQueue
    · -- What was returned was due by now, and has a smaller number where the new task is due too.
      have order : past.due ≤ due := Duration.le_trans (inOrder.past past pastMember) onward
      by_cases late : due ≤ past.due
      · exact .inr ⟨Duration.le_antisymm order late,
          inOrder.seq_lt (List.mem_append_left _ pastMember)⟩
      · exact .inl (Duration.not_le.mp late)
    · exact behind past pastMember task inQueue
  · rw [returned, now]
    exact inOrder.past
  · rw [returned, queue, queued]
    have moved : (system.returned ++ system.newTask due action :: system.loop.queue).Perm
        (system.returned ++ system.loop.queue ++ [system.newTask due action]) := by
      rw [List.append_assoc]
      exact (List.perm_append_singleton _ _).symm.append_left _
    exact ((insertPerm.append_left _).trans moved).trans (inOrder.conserved.append_right _)
  · rw [queued, nextSeq, List.map_append, inOrder.numbered, List.range_succ]
    rfl
  · rw [queue]
    intro task member
    rcases List.mem_cons.mp (insertPerm.mem_iff.mp member) with rfl | inQueue
    · exact fits
    · exact inOrder.fits task inQueue
  · rw [now]
    exact inOrder.nowFits

/-- The order is kept where the first task is returned once it is due. -/
theorem InOrder.of_pop {system later : LoopSystem κ} (inOrder : system.InOrder) {head : Task κ}
    (queue : system.loop.queue = head :: later.loop.queue)
    (nextSeq : later.loop.nextSeq = system.loop.nextSeq) (queued : later.queued = system.queued)
    (answers : later.answers = system.answers ++ [some head]) {now : Duration}
    (reads : later.now = now) (onward : system.now ≤ now) (due : head.due ≤ now)
    (nowFits : now ≤ .longest) : later.InOrder := by
  subst now
  have returned : later.returned = system.returned ++ [head] := by
    rw [LoopSystem.returned, answers, List.filterMap_append]
    rfl
  have same : later.returned ++ later.loop.queue = system.returned ++ system.loop.queue := by
    rw [returned, queue, List.append_assoc]
    rfl
  constructor
  · rw [same]
    exact inOrder.ordered
  · rw [returned]
    intro task member
    rcases List.mem_append.mp member with before | last
    · exact Duration.le_trans (inOrder.past task before) onward
    · rw [List.mem_singleton.mp last]
      exact due
  · rw [same, queued]
    exact inOrder.conserved
  · rw [queued, nextSeq]
    exact inOrder.numbered
  · intro task member
    exact inOrder.fits task (queue ▸ List.mem_cons_of_mem _ member)
  · exact nowFits

/-- Every step keeps the order. -/
theorem InOrder.step {system later : LoopSystem κ} (inOrder : system.InOrder)
    (step : system.Step later) : later.InOrder := by
  have still : system.now ≤ system.now := Duration.le_refl _
  have nowFits := inOrder.nowFits
  cases step with
  | schedule running delay callee arguments =>
    exact inOrder.of_push (Duration.le_add nowFits delay) (Duration.add_le_longest _ _)
      rfl rfl rfl rfl rfl
  | scheduleFailure running diagnostic =>
    exact inOrder.of_push still nowFits rfl rfl rfl rfl rfl
  | begin | ask | exhaust | wake => exact inOrder.of_same rfl rfl rfl rfl still nowFits
  | complete operation outcome held =>
    obtain ⟨_, _, rfl⟩ := EventLoop.eq_of_complete? held
    exact inOrder.of_same rfl rfl rfl rfl still nowFits
  | abandon operation held =>
    obtain ⟨_, rfl⟩ := EventLoop.eq_of_report? held
    exact inOrder.of_same rfl rfl rfl rfl still nowFits
  | tick reading after readingFits =>
    obtain ⟨onward, fits⟩ := now_of_tick after nowFits readingFits
    exact inOrder.of_same rfl rfl rfl rfl onward fits
  | @receive report rest receives inbox =>
    cases action : system.loop.actionOf? report with
    | none =>
      rw [receive_of_none inbox action]
      exact inOrder.of_same rfl rfl (List.append_nil _) rfl still nowFits
    | some action =>
      rw [receive_of_some inbox action]
      exact inOrder.of_push still nowFits rfl rfl rfl rfl rfl
  | select deciding selected =>
    cases EventLoop.decision_of_select selected with
    | idle | await | awaitUntil | sleep =>
      refine inOrder.of_same rfl rfl rfl ?_ still nowFits
      exact List.filterMap_append.trans (List.append_nil _)
    | due queue due => exact inOrder.of_pop queue rfl rfl rfl rfl still due nowFits
    | @jump head _ queue future clock =>
      have fits : head.due ≤ .longest := inOrder.fits head (queue ▸ List.mem_cons_self)
      exact inOrder.of_pop queue rfl rfl rfl (now_of_jump clock _ _ _) (Duration.le_of_lt future)
        (Duration.le_refl _) fits

/-- In every state of every run the tasks are in order. -/
theorem Reachable.inOrder {clock : ClockMode} {system : LoopSystem κ}
    (reached : system.Reachable clock) : system.InOrder := by
  induction reached with
  | fresh =>
    refine ⟨List.Pairwise.nil, nofun, List.Perm.refl _, rfl, nofun, ?_⟩
    cases clock <;> exact Nat.zero_le _
  | step _ step ih => exact ih.step step

/-- Nothing is left to return where a call finds the loop idle. -/
theorem InOrder.returned_perm_of_idle {system later : LoopSystem κ} (inOrder : system.InOrder)
    (step : system.Step later) (idle : later.answers = system.answers ++ [none]) :
    later.returned.Perm later.queued := by
  have conserved := (inOrder.step step).conserved
  rw [(settled_of_idle step idle).1, List.append_nil] at conserved
  exact conserved

/-- Over every run on either clock, with tasks queued, operations begun and reports coming at any
moment, the tasks returned are in the strict order of their due times and, among equals, of
queueing. Each was queued, none is returned twice, and those not returned are in the queue. When a
call finds the loop idle, every task queued so far has been returned. -/
theorem returned_in_order {clock : ClockMode} {system : LoopSystem κ}
    (reached : system.Reachable clock) :
    (system.returned.Pairwise fun first second =>
        first.due < second.due ∨ first.due = second.due ∧ first.seq < second.seq) ∧
      (system.returned.map Task.seq).Nodup ∧
      system.queued.map Task.seq = List.range system.loop.nextSeq ∧
      (system.returned ++ system.loop.queue).Perm system.queued ∧
      ∀ later, system.Step later → later.answers = system.answers ++ [none] →
        later.returned.Perm later.queued := by
  have inOrder := reached.inOrder
  have numbers : ((system.returned ++ system.loop.queue).map Task.seq).Nodup := by
    rw [(inOrder.conserved.map Task.seq).nodup_iff, inOrder.numbered]
    exact List.nodup_range
  rw [List.map_append] at numbers
  obtain ⟨ordered, -, -⟩ := List.pairwise_append.mp inOrder.ordered
  obtain ⟨distinct, -, -⟩ := List.nodup_append.mp numbers
  refine ⟨ordered, distinct, inOrder.numbered, inOrder.conserved, ?_⟩
  intro later step idle
  exact inOrder.returned_perm_of_idle step idle

/-- Where the time has reached the longest duration, a task queued later is due at the same time
and is returned later. -/
theorem returned_in_order_saturated :
    ∃ system : LoopSystem Unit, system.Reachable .virtual ∧
      system.returned =
        [⟨.longest, 0, .call () []⟩, ⟨.longest, 1, .call () []⟩] ∧
      system.returned.Pairwise fun first second =>
        first.due < second.due ∨ first.due = second.due ∧ first.seq < second.seq := by
  have first := (@Reachable.fresh Unit .virtual).step
    (.schedule rfl .longest () [])
  have jumped := ((first.step (.ask rfl)).step (.exhaust rfl rfl)).step (.select rfl rfl)
  have second := jumped.step (.schedule rfl .longest () [])
  have again := ((second.step (.ask rfl)).step (.exhaust rfl rfl)).step (.select rfl rfl)
  exact ⟨_, again, rfl, (returned_in_order again).1⟩

end LoopSystem

end EventScript
