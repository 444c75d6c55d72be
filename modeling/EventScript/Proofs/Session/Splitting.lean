import EventScript.Proofs.Resolution.Flow
import EventScript.Proofs.Session.Arises

/-!
# One program or two

A program can be run in parts. Where the first part fails nowhere and leaves nothing queued or
pending, its event loop has nothing to do on the virtual clock (`Session.drain_of_idle`), and the
second part starts on the very machine on which it goes on in the whole (`Machine.bodyEnds_append`).
So running the parts one after the other is running the whole (`Session.interpret_append`).
-/

namespace EventScript

namespace Machine

variable {machine later start : Machine} {program : Program}

/-- What the program cannot change by itself, and that work is asked for only where an operation is
begun. -/
structure Unreached (start machine : Machine) : Prop where
  reported : machine.reported = start.reported
  mode : machine.events.clock = start.events.clock
  launched : machine.events.pending = [] → machine.launched = start.launched

/-- A machine has reached nothing since itself. -/
theorem Unreached.refl (machine : Machine) : machine.Unreached machine := ⟨rfl, rfl, fun _ => rfl⟩

/-- No evaluation changes that. -/
theorem stable_unreached (start : Machine) : Stable start.Unreached where
  moved _ _ holds := { holds with }
  act := by
    intro machine later holds act
    cases act with
    | heap | prompt | takeLine | tick => exact { holds with }
    | print text =>
      unfold print
      split <;> exact { holds with }
    | schedule wait callback =>
      unfold readTime
      split <;> exact { holds with }
    | launch label site callback job =>
      refine { holds with launched := fun none => ?_ }
      exact absurd none (List.append_ne_nil_of_right_ne_nil _ (List.cons_ne_nil _ _))

/-- Code that runs at top level and comes back is at top level. -/
theorem toTopLevel_of_samePlace (same : start.toTopLevel.SamePlace machine) :
    machine.toTopLevel = machine := by
  obtain ⟨heap, global, scope, frames⟩ := machine
  obtain rfl : global = start.globals := same.globals
  obtain rfl : scope = start.globals := same.scope
  obtain rfl : frames = [] := same.frames
  rfl

/-- The statements of an accepted program that report no error go on to what follows, and leave the
machine at top level. -/
theorem BodyEnds.goesOn (ends : BodyEnds program machine later) (clear : program.check = [])
    (faultless : later.reported = machine.reported) :
    (Code.stmts program).Ends machine.toTopLevel (.done .next later) ∧
      machine.toTopLevel.Unreached later ∧ later.toTopLevel = later := by
  obtain ⟨outcome, ⟨ended, bound, ran⟩, settled⟩ := bodyEnds_iff.mp ends
  have unreached := (stable_unreached machine.toTopLevel).leaves bound (.stmts program)
    (.refl _)
  have restores := (Code.stmts program).restores bound machine.toTopLevel
  rw [ran] at unreached restores
  cases outcome with
  | exhausted => exact absurd rfl ended
  | failed diagnostic last =>
    obtain rfl := Option.some.inj settled
    -- A failure would have been reported.
    have reported : last.reported = machine.reported := unreached.reported
    have longer : last.reported ++ [diagnostic] = machine.reported := by
      rw [← last.report_reported diagnostic]
      exact faultless
    rw [reported] at longer
    exact absurd longer (by simp)
  | done flow last =>
    obtain rfl := Option.some.inj settled
    obtain rfl := Program.goesOn clear ran
    rw [toTopLevel_of_samePlace restores]
    exact ⟨.of_run ran ended, unreached, toTopLevel_of_samePlace restores⟩

/-- Where the first part goes on to what follows, the whole ends as the second part does from
there. -/
theorem bodyEnds_append {first second : Program} {middle : Machine}
    (goesOn : (Code.stmts first).Ends machine.toTopLevel (.done .next middle))
    (topLevel : middle.toTopLevel = middle) :
    BodyEnds (first ++ second) machine later ↔ BodyEnds second middle later := by
  rw [bodyEnds_iff, bodyEnds_iff, topLevel]
  exact exists_congr fun outcome => and_congr_left fun _ => Code.ends_append goesOn

/-- On the virtual clock an idle event loop without reports says so, and nothing changes. -/
theorem ask_of_idle (virtual : machine.events.clock = .virtual)
    (idle : machine.events.isIdle = true) (inbox : machine.events.inbox = []) :
    machine.ask = (.idle, machine) := by
  obtain ⟨queue, pending⟩ := Bool.and_eq_true_iff.mp idle
  have read : machine.readTime = (.zero, machine) := by
    unfold readTime
    rw [virtual]
  have received : machine.events.receiveAll .zero = machine.events := by
    unfold EventLoop.receiveAll
    rw [inbox, List.foldl_nil, ← inbox]
  have polled : machine.events.poll .zero = (.idle, machine.events) := by
    unfold EventLoop.poll EventLoop.select
    rw [received, List.isEmpty_iff.mp queue]
    dsimp only
    rw [if_pos pending]
  unfold ask
  simp only [read, polled]

/-- Where no operation is pending, none is under way, and no report is on its way into the event
loop. -/
theorem Tracked.settled {stage : Stage} {returned : List (Task Value)}
    (tracked : machine.Tracked stage returned) (settled : machine.events.pending = []) :
    machine.events.unreported = [] ∧ machine.events.inbox = [] := by
  obtain ⟨system, reached, loop, -⟩ := tracked
  have matched := reached.matched.matched
  rw [loop, settled] at matched
  obtain ⟨held, reported⟩ := List.append_eq_nil_iff.mp matched.nil_eq.symm
  exact ⟨held, List.map_eq_nil_iff.mp reported⟩

end Machine

namespace Session

variable {session : Session}

/-- Where no operation is under way, there is nothing to take in, and no need to look for it. -/
theorem look_collect_of_settled (settled : session.machine.events.unreported = []) :
    session.look.collect = session := by
  have still : session.look = session := by
    unfold look
    dsimp only
    rw [settled]
    rfl
  have none : ∀ delivery, session.machine.hasArrived delivery = false := by
    intro delivery
    unfold Machine.hasArrived
    rw [settled]
    exact Bool.and_false _
  have arrived : session.host.deliveries.filter session.machine.hasArrived = [] :=
    List.filter_eq_nil_iff.mpr fun delivery _ => by simp [none delivery]
  have others :
    session.host.deliveries.filter (fun delivery => !session.machine.hasArrived delivery) =
      session.host.deliveries :=
    List.filter_eq_self.mpr fun delivery _ => by simp [none delivery]
  rw [still]
  unfold collect
  dsimp only
  rw [arrived, others]
  rfl

/-- Where nothing is queued or pending, the event loop ends at once on the virtual clock. -/
theorem drain_of_idle (session : Session) (bound : Nat)
    (virtual : session.machine.events.clock = .virtual)
    (idle : session.machine.events.isIdle = true)
    (unreported : session.machine.events.unreported = [])
    (inbox : session.machine.events.inbox = []) (launched : session.machine.launched = []) :
    drain (bound + 2) session.undertake =
      some { session with machine := session.machine.toTopLevel } := by
  have undertaken : session.undertake = session := by
    obtain ⟨⟨heap, globals, scope, frames, events, launched'⟩, host⟩ := session
    obtain rfl : launched' = [] := launched
    rfl
  have called : session.nextTask (bound + 1) = some (none, session) := by
    rw [nextTask_succ, look_collect_of_settled unreported, Machine.ask_of_idle virtual idle inbox]
  rw [undertaken, drain_succ, called]
  rfl

/-- Running a program is running its body, then the event loop, each within a bound of its own. -/
theorem interprets_iff {program : Program} {result : Except Failure Unit} {later : Session} :
    Interprets program session result later ↔
      ∃ machine, Machine.BodyEnds program session.machine machine ∧
        (∃ bound, drain bound { session with machine }.undertake = some later) ∧
        result = later.machine.conclusion session.machine.reported.length := by
  constructor
  · rintro ⟨bound, interpreted⟩
    obtain ⟨machine, ran, draining, same⟩ := interpret_eq_some.mp interpreted
    exact ⟨machine, ⟨bound, ran⟩, ⟨bound, draining⟩, same⟩
  · rintro ⟨machine, ⟨bound, ran⟩, ⟨bound', draining⟩, same⟩
    have ran' := Machine.runBody_mono (Nat.le_max_left bound bound') ran
    have draining' := drain_mono (Nat.le_max_right bound bound') draining
    exact ⟨_, interpret_eq_some.mpr ⟨machine, ran', draining', same⟩⟩

/-- Let the statements of an accepted program be run without an error in a session on the virtual
clock, and let nothing be queued or pending at their end, so that nothing was before. Then in every
world running this program and after it a second one ends in the very session, and with the very
result, in which running the statements of both as one program ends: with the same output, bindings,
heap, event loop and reported errors. -/
theorem interpret_append {first second : Program} {machine : Machine} {later : Session}
    {result : Except Failure Unit} (arises : session.Arises)
    (virtual : session.machine.events.clock = .virtual) (accepted : first.check = [])
    (ran : Machine.BodyEnds first session.machine machine)
    (faultless : machine.reported = session.machine.reported)
    (left : machine.events.isIdle = true) :
    (∃ middle, Interprets first session (.ok ()) middle ∧ Interprets second middle result later) ↔
      Interprets (first ++ second) session result later := by
  have pending := List.isEmpty_iff.mp (Bool.and_eq_true_iff.mp left).2
  obtain ⟨goesOn, unreached, topLevel⟩ := ran.goesOn accepted faultless
  have mode : machine.events.clock = .virtual := unreached.mode.trans virtual
  -- The event loop can be tracked through the first program, so nothing is left of its operations.
  obtain ⟨unreported, inbox⟩ : machine.events.unreported = [] ∧ machine.events.inbox = [] := by
    obtain ⟨returned, holds⟩ := arises.tracked
    obtain ⟨bound, ran⟩ := ran
    have fits : machine.shownTime ≤ .longest := by
      rw [Machine.shownTime_eq, mode]
      exact Nat.zero_le _
    have tracked := (Machine.Tracked.enduring returned).runBody holds ran fits
    exact tracked.settled pending
  -- So it has nothing to do after the first program.
  have drained : drain 2 { session with machine }.undertake = some { session with machine } := by
    have launched : machine.launched = [] := (unreached.launched pending).trans arises.launched
    have ended := drain_of_idle { session with machine } 0 mode left unreported inbox launched
    rwa [topLevel] at ended
  have concluded : machine.conclusion session.machine.reported.length = .ok () := by
    unfold Machine.conclusion
    rw [faultless, List.drop_length]
  have firstEnds : Interprets first session (.ok ()) { session with machine } :=
    interprets_iff.mpr ⟨machine, ran, ⟨2, drained⟩, concluded.symm⟩
  have whole : Interprets (first ++ second) session result later ↔
      Interprets second { session with machine } result later := by
    rw [interprets_iff, interprets_iff]
    dsimp only
    rw [faultless]
    exact exists_congr fun last => and_congr_left fun _ => Machine.bodyEnds_append goesOn topLevel
  rw [whole]
  constructor
  · rintro ⟨middle, interprets, onward⟩
    obtain ⟨-, rfl⟩ := firstEnds.unique interprets
    exact onward
  · intro onward
    exact ⟨_, firstEnds, onward⟩

/-- A variable that one line declares is there for the next one, as it is within one program. -/
theorem interpret_append_lines :
    ∃ later, later.machine.captured = "nil\n" ∧
      Interprets ([.letDecl default "a" none] ++ [.print default (.variable default "a")])
        (.new { clock := .virtual } (.captured "") {} {} {}) (.ok ()) later := by
  have arises : Arises (.new { clock := .virtual } (.captured "") {} {} {}) := .new ..
  refine ⟨_, ?_, (interpret_append arises rfl rfl ⟨8, rfl⟩ (by rfl) (by rfl)).mp
    ⟨_, ⟨8, rfl⟩, ⟨8, rfl⟩⟩⟩
  decide +kernel

end Session

end EventScript
