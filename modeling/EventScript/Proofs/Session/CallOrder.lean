import EventScript.Proofs.Resolution.CallOrder
import EventScript.Proofs.Session.History

/-!
# The order of calls in sessions

What a session runs, in one episode after the other, is in order: each piece of code finds the
scopes of all before it. So no two calls in the history of a session start in the same scope
(`Session.Episode.agree`).
-/

namespace EventScript

variable {machine later : Machine} {bound : Nat}

/-- Making the arguments of a callback leaves the scopes as they are. -/
theorem Payload.arguments_keepsScopes (payload : Payload) (machine : Machine) :
    (payload.arguments machine).Leaves machine.KeepsScopes :=
  (payload.arguments_keeps Value.plain_true (fun _ _ _ => trivial) machine
    (Machine.all_of_forall (fun _ => trivial) machine)).leaves

/-- The scopes that there are do not depend on what is done around evaluation. -/
theorem Machine.lasting_scopeCount (property : Nat → Prop) :
    Machine.Lasting fun machine => property machine.scopeCount where
  same := by
    intro machine holds later heap _
    have count : later.scopeCount = machine.scopeCount := by
      unfold Machine.scopeCount
      rw [heap]
    exact count ▸ holds
  arguments := by
    intro payload machine holds
    have keeps := payload.arguments_keepsScopes machine
    cases made : payload.arguments machine with
    | exhausted => trivial
    | done arguments later | failed diagnostic later =>
      rw [made] at keeps
      show property later.scopeCount
      exact keeps.scopeCount_eq ▸ holds

/-- The call at a turn is made with the scopes that there are. -/
theorem Machine.TurnCalls.scopes_eq {callee : Value} {arguments : List Value} {started : Machine}
    (calls : machine.TurnCalls callee arguments started) :
    started.heap.scopes = machine.heap.scopes := by
  have made : ∀ {action : Action Value} {timed : Machine},
      action.Calls timed callee arguments started → started.heap.scopes = timed.heap.scopes := by
    intro action timed calls
    cases calls with
    | call => rfl
    | @deliver result _ _ _ made =>
      have keeps := result.arguments_keepsScopes timed
      rw [made] at keeps
      exact keeps.heap.scopes
  cases calls with
  | intro read polled calls =>
    exact (made calls).trans (congrArg Heap.scopes (Machine.readTime_same read).1)

/-- Making the arguments of a callback makes no scopes. -/
theorem Machine.TurnCalls.scopeCount_eq {callee : Value} {arguments : List Value}
    {started : Machine}
    (calls : machine.TurnCalls callee arguments started) :
    started.scopeCount = machine.scopeCount := congrArg Store.size calls.scopes_eq

/-- What a turn comes to is in order. -/
theorem Machine.turnTrace_inOrder (bound : Nat) (machine : Machine) :
    InOrder machine.scopeCount (machine.turnTrace bound) := by
  rcases machine.turnTrace_cases bound with nothing | ⟨callee, arguments, started, calls⟩
  · rw [nothing]
    exact .nil
  · rw [calls.trace_eq, ← calls.scopeCount_eq]
    exact (Code.passes bound (.call callee arguments default) started).inOrder

/-- All scopes found in a turn are there after it. -/
theorem Machine.within_of_turn {poll : Poll Value}
    (turned : machine.turn bound = some (poll, later)) :
    machine.scopeCount ≤ later.scopeCount ∧
      ∀ occasion ∈ machine.turnTrace bound, occasion.Within later.scopeCount := by
  have lasting := Machine.lasting_scopeCount fun count =>
    machine.scopeCount ≤ count ∧ ∀ occasion ∈ machine.turnTrace bound, occasion.Within count
  refine lasting.turn ?_ ?_ turned
  · intro reading timed poll events read polled idle
    have same := congrArg (fun heap => heap.scopes.size) (Machine.readTime_same read).1
    refine ⟨Nat.le_of_eq same.symm, ?_⟩
    rw [Machine.turnTrace_of_idle idle]
    exact List.forall_mem_nil _
  · intro callee arguments started calls
    rw [calls.trace_eq, ← calls.scopeCount_eq]
    exact (Code.passes bound (.call callee arguments default) started).leaves

namespace Session

variable {session : Session} {past episode : List Occasion}

/-- What was run is in order, and all scopes found in it are there. -/
theorem Recorded.inOrder (recorded : session.Recorded past) :
    InOrder 0 past ∧ ∀ occasion ∈ past, occasion.Within session.machine.scopeCount := by
  -- An episode begins with the scopes that the past has left, and leaves those it has found.
  have extend : ∀ {before after : Nat} {past next : List Occasion},
      InOrder 0 past ∧ (∀ occasion ∈ past, occasion.Within before) → InOrder before next →
      before ≤ after ∧ (∀ occasion ∈ next, occasion.Within after) →
      InOrder 0 (past ++ next) ∧ ∀ occasion ∈ past ++ next, occasion.Within after := by
    intro before after past next head inOrder tail
    refine ⟨head.1.append head.2 inOrder (Nat.zero_le _), fun occasion member => ?_⟩
    rcases List.mem_append.mp member with early | late
    · exact (head.2 occasion early).mono tail.1
    · exact tail.2 occasion late
  induction recorded with
  | new settings sink console clock host => exact ⟨.nil, List.forall_mem_nil _⟩
  | @body session _ _ program bound _ _ accepted ran ih =>
    have passes := Code.passes bound (.stmts program) session.machine.toTopLevel
    have lasting := Machine.lasting_scopeCount fun count =>
      session.machine.scopeCount ≤ count ∧
        ∀ occasion ∈ (Code.stmts program).trace bound session.machine.toTopLevel,
          occasion.Within count
    have within := lasting.runBody passes.leaves ran
    exact extend ih passes.inOrder within
  | turn _ turned ih =>
    have within := Machine.within_of_turn turned
    exact extend ih (Machine.turnTrace_inOrder _ _) within
  | outside _ happens ih =>
    have same := congrArg (fun heap => heap.scopes.size) happens.heap
    exact ⟨ih.1, fun occasion member => (ih.2 occasion member).mono (Nat.le_of_eq same.symm)⟩
  | finish _ ih | exchange _ _ _ ih => exact ih

/-- What a session may run next is in order. -/
theorem Episode.inOrder (running : session.Episode episode) :
    InOrder session.machine.scopeCount episode := by
  cases running with
  | @body _ program bound accepted =>
    exact (Code.passes bound (.stmts program) session.machine.toTopLevel).inOrder
  | turn bound => exact session.machine.turnTrace_inOrder bound

/-- No two calls start in the same scope, neither in what was run nor in what is run next. -/
theorem Episode.agree (recorded : session.Recorded past) (running : session.Episode episode)
    {one other : Occasion} (first : one ∈ past ++ episode) (second : other ∈ past ++ episode) :
    one.Agrees other := by
  obtain ⟨inOrder, within⟩ := recorded.inOrder
  exact (inOrder.append within running.inOrder (Nat.zero_le _)).agree first second

end Session

end EventScript
