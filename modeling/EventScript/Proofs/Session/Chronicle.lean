import EventScript.Proofs.Evaluation.Chronicle
import EventScript.Proofs.Session.Properties

/-!
# Chronicles of sessions

What a chronicle says goes on between the steps of a session if it holds at first and the event loop
keeps it when it takes in reports and gives out tasks (`Session.Chronicle`). So it holds whenever a
session comes to code (`Session.Chronicle.told`), and on every machine that a session comes through
(`Session.Chronicle.passes`).
-/

namespace EventScript.Session

open Run

/-- What is left to show of a chronicle so that it goes on for a whole session. -/
structure Chronicle (holds : List Occasion → Machine → Prop) :
    Prop extends EventScript.Chronicle holds where
  new : ∀ (settings : Settings) (sink : Sink) (console : Console) (clock : WallClock),
    holds [] (.new settings sink console clock)
  poll : ∀ {history : List Occasion} {machine : Machine} {reading : Duration} {poll : Poll Value}
    {events : EventLoop Value},
    holds history machine → machine.events.poll reading = (poll, events) →
    holds history { machine with events }
  report : ∀ {history : List Occasion} {machine : Machine} {operation : Nat}
    {outcome : OperationOutcome}
    {events : EventLoop Value}, holds history machine →
    machine.events.report? operation outcome = some events → holds history { machine with events }

namespace Chronicle

variable {holds : List Occasion → Machine → Prop} {history past episode more : List Occasion}
variable {machine later : Machine} {bound : Nat}

/-- Only the event loop and the heap matter. -/
theorem of_same (chronicle : Chronicle holds) (now : holds history machine)
    (heap : later.heap = machine.heap) (events : later.events = machine.events) :
    holds history later :=
  chronicle.alone now ⟨events, heap ▸ machine.heap.keepsOthers_refl none⟩

/-- What is done around evaluation keeps what is told. -/
theorem lasting (chronicle : Chronicle holds) (history : List Occasion) :
    Machine.Lasting (holds history) where
  same _ now _ := chronicle.of_same now
  arguments payload machine now :=
    (payload.arguments_leavesAlone machine).imp fun _ alone => chronicle.alone now alone

/-- The event loop has been asked what to do next. -/
theorem asked (chronicle : Chronicle holds) {timed : Machine} {reading : Duration}
    {poll : Poll Value}
    {events : EventLoop Value} (now : holds history machine)
    (read : machine.readTime = (reading, timed))
    (polled : timed.events.poll reading = (poll, events)) :
    holds history { timed with events } := by
  obtain ⟨heap, same⟩ := Machine.readTime_same read
  exact chronicle.poll (chronicle.of_same now heap same) polled

/-- The call at a turn is made with all told. -/
theorem turnCalls (chronicle : Chronicle holds) {callee : Value} {arguments : List Value}
    {started : Machine} (now : holds history machine)
    (calls : machine.TurnCalls callee arguments started) : holds history started := by
  cases calls with
  | @intro _ timed _ events _ _ _ read polled calls =>
    have asked := chronicle.asked now read polled
    have topLevel := chronicle.alone asked (Machine.leavesAlone_toTopLevel _)
    generalize Task.action _ = action at calls
    cases calls with
    | call => exact topLevel
    | @deliver result _ _ callback made =>
      have alone := result.arguments_leavesAlone { timed with events }.toTopLevel
      rw [made] at alone
      exact chronicle.alone topLevel alone

/-- A turn goes on with what is told of the call in it. -/
theorem turn (chronicle : Chronicle holds) {poll : Poll Value} (now : holds history machine)
    (turned : machine.turn bound = some (poll, later)) :
    holds (history ++ machine.turnTrace bound) later := by
  refine (chronicle.lasting _).turn ?_ ?_ turned
  · intro reading timed poll events read polled idle
    rw [Machine.turnTrace_of_idle idle, List.append_nil]
    exact chronicle.asked now read polled
  · intro callee arguments started calls
    rw [calls.trace_eq]
    exact (chronicle.tells bound (.call callee arguments default)
      (chronicle.turnCalls now calls)).leaves

variable {admitted : Program → Prop} {session : Session}

/-- What is told between the steps of a session. -/
theorem logged (chronicle : Chronicle holds) (logged : session.Logged admitted past) :
    holds past session.machine := by
  induction logged with
  | new settings sink console clock host => exact chronicle.new settings sink console clock
  | @body session past program bound _ _ _ ran ih =>
    have topLevel := chronicle.alone ih session.machine.leavesAlone_toTopLevel
    have left := (chronicle.tells bound (.stmts program) topLevel).leaves
    exact (chronicle.lasting _).runBody left ran
  | turn _ turned ih => exact chronicle.turn ih turned
  | @outside session later past _ happens ih =>
    obtain ⟨last, host⟩ := later
    cases happens with
    | time | handOn => exact chronicle.of_same ih rfl rfl
    | report reported => exact chronicle.report ih reported
  | finish _ ih | exchange _ _ _ ih => exact chronicle.of_same ih rfl rfl

/-- What is told of code that a session may run next. -/
theorem told (chronicle : Chronicle holds) (logged : session.Logged admitted past)
    (running : session.Stretch admitted episode) :
    Unfolds (fun past occasion => holds past occasion.machine) past episode := by
  have now := chronicle.logged logged
  cases running with
  | @body program bound admits =>
    have topLevel := chronicle.alone now session.machine.leavesAlone_toTopLevel
    exact (chronicle.tells bound (.stmts program) topLevel).unfolds
  | turn bound =>
    rcases session.machine.turnTrace_cases bound with nothing | ⟨callee, arguments, started, calls⟩
    · rw [nothing]
      trivial
    · rw [calls.trace_eq]
      exact (chronicle.tells bound (.call callee arguments default)
        (chronicle.turnCalls now calls)).unfolds

/-- What is told on the machines that a session comes through. -/
theorem passes (chronicle : Chronicle holds) (logged : session.Logged admitted past)
    (running : session.Stretch admitted episode) (passes : session.Passes episode more machine) :
    ∃ told, holds told machine := by
  have now : ∀ {occasion : Occasion}, occasion ∈ episode → ∃ told, holds told occasion.machine := by
    intro occasion member
    obtain ⟨front, back, rfl⟩ := List.append_of_mem member
    exact ⟨past ++ front, (chronicle.told logged running).at⟩
  cases passes with
  | first => exact ⟨past, chronicle.logged logged⟩
  | comes member => exact now member
  | @gives _ code _ _ bound _ member ended | @fails _ code _ _ bound _ member ended =>
    obtain ⟨told, before⟩ := now member
    have left := (chronicle.tells bound code before).leaves
    rw [ended] at left
    exact ⟨_, left⟩

end Chronicle

end EventScript.Session
