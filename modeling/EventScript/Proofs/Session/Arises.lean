import EventScript.Proofs.Session.Tracked

/-!
# What a session can come to

`Session.Arises` is every state of a session between the uses that are made of it from outside, and
`Session.Unwinds` is the course of its event loop: the tasks that are run one after another, each
with the machine that it is run on and the one that it leaves. Running the event loop unwinds it
(`Session.unwinds_of_drain`), and the event loop can be tracked through all of it
(`Session.Unwinds.tracked`, `Session.Arises.tracked`).
-/

namespace EventScript

/-- A task that is run, with the machine that it is run on and the one that it leaves. -/
structure TaskRun where
  task : Task Value
  started : Machine
  ended : Machine

namespace Session

/-- From the first session on, the event loop runs these tasks one after another, and ends in the
other session. -/
inductive Unwinds : Session → List TaskRun → Session → Prop where
  | idle {session : Session} {asked : Machine} (asks : session.machine.ask = (.idle, asked)) :
      Unwinds session [] { session with machine := asked.toTopLevel }
  | task {session later : Session} {task : Task Value} {started ended : Machine} {bound : Nat}
      {rest : List TaskRun} (asks : session.machine.ask = (.ready task, started))
      (ran : started.runTask bound task = some ended)
      (onward : Unwinds { session with machine := ended } rest later) :
      Unwinds session (⟨task, started, ended⟩ :: rest) later
  /-- The session waits for its next task. -/
  | linger {session between later : Session} {rest : List TaskRun}
      (lingers : session.Lingers between) (onward : Unwinds between rest later) :
      Unwinds session rest later

section Running

variable {session between later : Session} {runs : List TaskRun} {bound : Nat}

/-- However long the session waits first, its event loop goes on afterwards. -/
theorem Unwinds.after (lingers : Relation.ReflTransGen Lingers session between)
    (unwinds : Unwinds between runs later) : Unwinds session runs later := by
  induction lingers using Relation.ReflTransGen.head_induction_on with
  | refl => exact unwinds
  | head lingers _ ih => exact .linger lingers ih

/-- Whatever happens first, the event loop goes on afterwards. -/
theorem Unwinds.undergone (undergoes : session.Undergoes between)
    (unwinds : Unwinds between runs later) : Unwinds session runs later :=
  .after undergoes.lingers unwinds

/-- Running the event loop unwinds it, in every world. -/
theorem unwinds_of_drain (drained : drain bound session = some later) :
    ∃ runs, Unwinds session runs later := by
  induction bound generalizing session with
  | zero => contradiction
  | succ bound ih =>
    rcases drain_cases drained with
      ⟨between, called, rfl⟩ | ⟨task, between, machine, called, ran, onward⟩
    · obtain ⟨before, asked, lingers, replies, rfl⟩ := nextTask_cases called
      cases replies with
      | idle asks => exact ⟨[], .after lingers (.idle asks)⟩
    · obtain ⟨before, asked, lingers, replies, rfl⟩ := nextTask_cases called
      obtain ⟨rest, unwinds⟩ := ih onward
      cases replies with
      | ready asks =>
        have handedOn : Unwinds { before with machine } rest later :=
          .undergone (.undertake _) unwinds
        exact ⟨_, .after lingers (.task asks ran handedOn)⟩

end Running

end Session

namespace Machine.Happens

variable {machine later : Machine}

/-- Whatever happens from outside, time does not go back. -/
theorem onward (happens : machine.Happens later) : machine.Onward later := by
  cases happens with
  | time onward => exact ⟨rfl, onward⟩
  | handOn => exact .of_same rfl rfl
  | report reported =>
    obtain ⟨_, rfl⟩ := EventLoop.eq_of_report? reported
    exact .of_same rfl rfl

variable {stage : Stage} {returned : List (Task Value)}

/-- What happens from outside is that time passes and that collaborators report. -/
theorem tracked (happens : machine.Happens later)
    (holds : machine.shownTime ≤ .longest → machine.Tracked stage returned)
    (fits : later.shownTime ≤ .longest) : later.Tracked stage returned := by
  have onward := happens.onward
  cases happens with
  | time | handOn => exact .of_holds holds rfl onward fits
  | @report operation outcome events reported =>
    have early := Duration.le_trans onward.shownTime_le fits
    obtain ⟨system, reached, loop, reading, stands, returns⟩ := holds early
    have once := (List.nodup_append.mp reached.matched.held_distinct).1
    have completes : system.loop.complete? operation outcome = some events := by
      rw [EventLoop.complete?_eq_report? once, loop]
      exact reported
    have told := reached.step (.complete operation outcome completes)
    rw [← onward.mode] at told
    exact ⟨_, told, rfl, Duration.le_trans reading onward.shownTime_le, stands, returns⟩

end Machine.Happens

namespace Session

section Lingering

variable {session later : Session}

/-- Time does not go back while a session waits. -/
theorem Lingers.onward (lingers : session.Lingers later) :
    session.machine.Onward later.machine := by
  cases lingers with
  | outside happens => exact happens.onward
  | again asks waits => exact Machine.onward_ask asks

/-- While a session waits the event loop stays between tasks. -/
theorem Lingers.tracked {stage : Stage} {returned : List (Task Value)}
    (lingers : session.Lingers later) (between : Machine.BetweenTasks stage)
    (holds : session.machine.shownTime ≤ .longest → session.machine.Tracked stage returned) :
    ∃ stage, Machine.BetweenTasks stage ∧
      (later.machine.shownTime ≤ .longest → later.machine.Tracked stage returned) := by
  cases lingers with
  | outside happens => exact ⟨stage, between, happens.tracked holds⟩
  | @again poll asked asks waits =>
    have asked' := fun fits => Machine.Tracked.ask holds between asks fits
    rw [waits.tasks_eq, List.append_nil, waits.rest_eq] at asked'
    exact ⟨.receiving, .inr rfl, asked'⟩

/-- Whatever happens from outside, the event loop can be tracked further. -/
theorem Undergoes.tracked {stage : Stage} {returned : List (Task Value)}
    (undergoes : session.Undergoes later)
    (holds : session.machine.shownTime ≤ .longest → session.machine.Tracked stage returned) :
    later.machine.shownTime ≤ .longest → later.machine.Tracked stage returned := by
  unfold Undergoes at undergoes
  generalize later.machine = last at undergoes ⊢
  induction undergoes with
  | refl => exact holds
  | tail _ happens ih => exact happens.tracked ih

end Lingering

/-- Time goes on while the event loop runs. -/
theorem Unwinds.onward {session later : Session} {runs : List TaskRun}
    (unwinds : Unwinds session runs later) : session.machine.Onward later.machine := by
  induction unwinds with
  | idle asks => exact (Machine.onward_ask asks).trans (.of_same rfl rfl)
  | @task session later task started ended bound rest asks ran onward ih =>
    have ran := (Machine.enduring_onward started).runTask (.refl started) ran
    exact ((Machine.onward_ask asks).trans ran).trans ih
  | linger lingers onward ih => exact lingers.onward.trans ih

section Tracking

variable {session later : Session} {stage : Stage} {returned : List (Task Value)} {bound : Nat}

/-- A task that is run is one that the event loop returned. -/
theorem tracked_task {task : Task Value} {started ended : Machine}
    (between : Machine.BetweenTasks stage)
    (holds : session.machine.shownTime ≤ .longest → session.machine.Tracked stage returned)
    (asks : session.machine.ask = (.ready task, started))
    (ran : started.runTask bound task = some ended) (fits : ended.shownTime ≤ .longest) :
    ended.Tracked .running (returned ++ [task]) := by
  have asked := fun fits => Machine.Tracked.ask holds between asks fits
  exact (Machine.Tracked.enduring _).runTask asked ran fits

/-- The event loop can be tracked through its course, in which it returns the tasks that are run. -/
theorem Unwinds.tracked {runs : List TaskRun} (unwinds : Unwinds session runs later)
    (between : Machine.BetweenTasks stage)
    (holds : session.machine.shownTime ≤ .longest → session.machine.Tracked stage returned)
    (fits : later.machine.shownTime ≤ .longest) :
    later.machine.Tracked .running (returned ++ runs.map TaskRun.task) := by
  induction unwinds generalizing stage returned with
  | idle asks =>
    have asked := fun fits => Machine.Tracked.ask holds between asks fits
    exact .of_holds asked rfl (.of_same rfl rfl) fits
  | task asks ran onward ih =>
    have last := ih (.inl rfl) (tracked_task between holds asks ran) fits
    rwa [List.append_assoc] at last
  | linger lingers onward ih =>
    obtain ⟨stage, between, holds⟩ := lingers.tracked between holds
    exact ih between holds fits

end Tracking

/-- The states of a session between the uses that are made of it, in every world. -/
inductive Arises : Session → Prop where
  | new (settings : Settings) (sink : Sink) (console : Console) (clock : WallClock) (host : Host) :
      Arises { machine := .new settings sink console clock, host }
  /-- A program is run. -/
  | interpret {session later : Session} {program : Program} {bound : Nat}
      {result : Except Failure Unit} (arises : Arises session)
      (interpreted : session.interpret bound program = some (result, later)) : Arises later
  /-- A value is called. -/
  | call {session later : Session} {callee : Value} {arguments : List Value} {bound : Nat}
      {result : Except Diagnostic Value} (arises : Arises session)
      (called : session.call bound callee arguments = some (result, later)) : Arises later
  /-- The event loop is run. -/
  | drain {session later : Session} {bound : Nat} (arises : Arises session)
      (drained : drain bound session = some later) : Arises later
  /-- Something happens from outside. -/
  | outside {session later : Session} (arises : Arises session)
      (happens : session.machine.Happens later.machine) : Arises later
  /-- Somebody reads what was printed, or provides input. -/
  | exchange {session : Session} (arises : Arises session) (console : Console) (sink : Sink) :
      Arises { session with machine := { session.machine with console, sink } }

/-- Where no work is asked for, none is while the session waits. -/
theorem Lingers.launched {session later : Session} (lingers : session.Lingers later)
    (none : session.machine.launched = []) : later.machine.launched = [] := by
  cases lingers with
  | outside happens =>
    obtain ⟨last, host⟩ := later
    cases happens with
    | time | report => exact none
    | handOn => rfl
  | again asks waits =>
    obtain ⟨events, -, rfl⟩ := Machine.ask_eq asks
    unfold Machine.readTime
    split <;> exact none

/-- All work that is asked for while the event loop runs is handed on. -/
theorem drain_launched {session later : Session} {bound : Nat}
    (none : session.machine.launched = []) (drained : drain bound session = some later) :
    later.machine.launched = [] := by
  induction bound generalizing session with
  | zero => contradiction
  | succ bound ih =>
    rcases drain_cases drained with
      ⟨between, called, rfl⟩ | ⟨task, between, machine, called, ran, onward⟩
    · obtain ⟨before, asked, lingers, replies, rfl⟩ := nextTask_cases called
      have waited : before.machine.launched = [] := by
        clear ih drained called replies
        induction lingers with
        | refl => exact none
        | tail _ lingers ih => exact lingers.launched ih
      cases replies with
      | idle asks =>
        obtain ⟨events, -, rfl⟩ := Machine.ask_eq asks
        show before.machine.readTime.2.launched = []
        unfold Machine.readTime
        split <;> exact waited
    · exact ih rfl onward

/-- A call leaves what the code of the call leaves, with its work handed on. -/
theorem call_leaves {session later : Session} {callee : Value} {arguments : List Value}
    {bound : Nat}
    {result : Except Diagnostic Value} {property : Machine → Prop}
    (called : session.call bound callee arguments = some (result, later))
    (leaves : ((Code.call callee arguments default).run bound session.machine).Leaves property) :
    ∃ machine, property machine ∧ later = ({ session with machine } : Session).undertake := by
  unfold call at called
  change (callValue bound callee arguments default session.machine).Leaves property at leaves
  split at called
  · rename_i value machine done
    rw [done] at leaves
    exact ⟨machine, leaves, (Prod.mk.inj (Option.some.inj called)).2.symm⟩
  · rename_i diagnostic machine failed
    rw [failed] at leaves
    exact ⟨machine, leaves, (Prod.mk.inj (Option.some.inj called)).2.symm⟩
  · contradiction

variable {session : Session}

/-- All work asked for has been handed on between the uses of a session. -/
theorem Arises.launched (arises : session.Arises) : session.machine.launched = [] := by
  induction arises with
  | new => rfl
  | interpret _ interpreted =>
    obtain ⟨machine, -, draining, -⟩ := interpret_eq_some.mp interpreted
    exact drain_launched rfl draining
  | @call _ _ _ _ bound _ _ called =>
    have nothing : Machine.Stable fun _ => True := ⟨fun _ _ => trivial, fun _ _ _ => trivial⟩
    obtain ⟨machine, -, rfl⟩ := call_leaves called (nothing.leaves bound _ trivial)
    rfl
  | drain _ drained ih => exact drain_launched ih drained
  | outside _ happens ih => exact (Lingers.outside happens).launched ih
  | exchange _ console sink ih => exact ih

/-- Between the uses of a session the event loop is between tasks. -/
theorem Arises.tracked (arises : session.Arises) :
    ∃ returned, session.machine.shownTime ≤ .longest →
    session.machine.Tracked .running returned := by
  induction arises with
  | new settings sink console clock host => exact ⟨[], fun _ => .new settings sink console clock⟩
  | @interpret session later program bound result _ interpreted ih =>
    obtain ⟨returned, holds⟩ := ih
    obtain ⟨machine, ran, draining, -⟩ := interpret_eq_some.mp interpreted
    obtain ⟨runs, unwinds⟩ := unwinds_of_drain draining
    have body := (Machine.Tracked.enduring returned).runBody holds ran
    have handed := (Undergoes.undertake { session with machine }).tracked body
    exact ⟨_, unwinds.tracked (.inl rfl) handed⟩
  | @call session later callee arguments bound result _ called ih =>
    obtain ⟨returned, holds⟩ := ih
    obtain ⟨machine, left, rfl⟩ := call_leaves called
      ((Machine.Tracked.enduring returned).leaves bound _ holds)
    exact ⟨returned, (Undergoes.undertake { session with machine }).tracked left⟩
  | drain _ drained ih =>
    obtain ⟨returned, holds⟩ := ih
    obtain ⟨runs, unwinds⟩ := unwinds_of_drain drained
    exact ⟨_, unwinds.tracked (.inl rfl) holds⟩
  | outside _ happens ih =>
    obtain ⟨returned, holds⟩ := ih
    exact ⟨returned, happens.tracked holds⟩
  | exchange _ console sink ih =>
    obtain ⟨returned, holds⟩ := ih
    exact ⟨returned, .of_holds holds rfl (.of_same rfl rfl)⟩

end Session

end EventScript
