import EventScript.Proofs.Evaluation.Disciplined
import EventScript.Proofs.Evaluation.Handling
import EventScript.Proofs.Evaluation.Record
import EventScript.Proofs.Session.Logged

/-!
# Disciplines in sessions

A lawful discipline that allows the programs of a session at top level is kept for the whole
session: every state of it is in order (`Session.Logged.good`), and all code that it comes to from
there stands at a place and finds what it needs (`Session.Stretch.fits`). What the discipline
presumes to occur has to cover what was run before, and what is run next. For a session of accepted
source texts the discipline has to allow every accepted program (`Session.Recorded.good`,
`Session.Episode.fits`).
-/

namespace EventScript

open Run

/-- What is so of all values that a result gives is so of those in hand then. -/
theorem ResultKind.All.hand {property : Value → Prop} {kind : ResultKind} {result : kind.Result}
    (all : kind.All property result) : ∀ value ∈ kind.hand result, property value := by
  cases kind with
  | value => exact List.forall_mem_singleton.mpr all
  | values => exact all
  | flow =>
    cases result with
    | next | broke => exact List.forall_mem_nil _
    | returned given => exact List.forall_mem_singleton.mpr (all given rfl)

namespace Discipline

variable {discipline : Discipline} {bound : Nat} {machine : Machine}

/-- The statements of accepted programs may stand at top level, in whatever scope that is. -/
def Admits (discipline : Discipline) : Prop :=
  ∀ ⦃source : String⦄ ⦃program : Program⦄, Program.accept source = .ok program →
    ∃ place, (∀ heap scope, discipline.around place heap none scope) ∧
      ∀ form ∈ program, discipline.stmt place form

/-- The statements of the program may stand at top level, in whatever scope that is. -/
def Allows (discipline : Discipline) (program : Program) : Prop :=
  ∃ place, (∀ heap scope, discipline.around place heap none scope) ∧
    ∀ form ∈ program, discipline.stmt place form

/-- An outcome in order leaves a machine in order. -/
theorem Keeps.leaves {kind : ResultKind} {outcome : Outcome kind.Result}
    (keeps : discipline.Keeps machine outcome) : outcome.Leaves discipline.Good := by
  cases outcome with
  | done result later => exact keeps.1
  | failed diagnostic later => exact keeps.1
  | exhausted => trivial

/-- The statements of an allowed program may be run at top level. -/
theorem Allows.body {program : Program} (allows : discipline.Allows program)
    (good : discipline.Good machine) :
    discipline.contract.before (.stmts program) machine.toTopLevel := by
  obtain ⟨place, around, stand⟩ := allows
  exact ⟨⟨good.heap, good.events⟩, place, around _ _, stand⟩

/-- The statements of an accepted program may be run at top level. -/
theorem Admits.body {source : String} {program : Program} (admits : discipline.Admits)
    (good : discipline.Good machine) (accepted : Program.accept source = .ok program) :
    discipline.contract.before (.stmts program) machine.toTopLevel :=
  Allows.body (admits accepted) good

namespace Lawful

/-- Code that may be run has only values in hand that are in order. -/
theorem hand (lawful : discipline.Lawful) {kind : ResultKind} {code : Code kind}
    (fits : discipline.Fits machine code) :
    ∀ value ∈ code.hand, discipline.holds machine.heap value := by
  cases code with
  | expr | exprs | stmt | stmts | loop => exact List.forall_mem_nil _
  | call callee arguments span => exact List.forall_mem_cons.mpr fits
  | instantiation cls arguments => exact List.forall_mem_cons.mpr fits
  | activation called arguments =>
    refine List.forall_mem_append.mpr ⟨fun value member => ?_, fits.2⟩
    exact lawful.receiver fits.1 value (Option.mem_toList.mp member)

/-- What occurs meets the contract. -/
theorem validOn (lawful : discipline.Lawful) {record : List Occasion}
    (occurs : ∀ occasion ∈ record, discipline.occurs occasion) :
    discipline.contract.ValidOn record :=
  fun _ code machine member before => lawful.meets code machine (occurs _ member) before

/-- Code that finds what it needs keeps the discipline. -/
theorem keeps (lawful : discipline.Lawful) {kind : ResultKind} {code : Code kind}
    (occurs : ∀ occasion ∈ code.trace bound machine, discipline.occurs occasion)
    (before : discipline.contract.before code machine) :
    discipline.Keeps machine (code.run bound machine) :=
  (lawful.validOn occurs).keeps (List.Subset.refl _) before

/-- Making the arguments of a callback is in order. -/
theorem leads_arguments (lawful : discipline.Lawful) (payload : Payload)
    (good : discipline.Good machine) :
    discipline.Leads
      (fun arguments => ∀ argument ∈ arguments, discipline.holds machine.heap argument)
      machine (payload.arguments machine) :=
  lawful.leads_of_keeps
    (payload.arguments_keeps (lawful.plain _) (lawful.bareClass _) machine good)

/-- Whether a machine is in order does not depend on what is done around evaluation. -/
theorem lasting (lawful : discipline.Lawful) : Machine.Lasting discipline.Good where
  same := by
    intro machine good later heap events
    unfold Good
    rw [heap]
    exact good.of_same heap events
  arguments := by
    intro payload machine good
    have leads := lawful.leads_arguments payload good
    cases made : payload.arguments machine with
    | exhausted => trivial
    | done arguments later =>
      rw [made] at leads
      exact lawful.good_of_all leads.1 leads.2.1.heap
    | failed diagnostic later =>
      rw [made] at leads
      exact lawful.good_of_all leads.1 leads.2.heap

/-- The calls that actions in order make may be run. -/
theorem calls_before (lawful : discipline.Lawful) {action : Action Value} {callee : Value}
    {arguments : List Value} {started : Machine} (good : discipline.Good machine)
    (all : action.All (discipline.holds machine.heap))
    (calls : action.Calls machine callee arguments started) :
    discipline.contract.before (.call callee arguments default) started := by
  cases calls with
  | call => exact ⟨good, all⟩
  | @deliver result _ _ callback made =>
    have leads := lawful.leads_arguments result good
    rw [made] at leads
    obtain ⟨kept, evolves, hold⟩ := leads
    have good := lawful.good_of_all kept evolves.heap
    have callee := lawful.holds_grows all evolves.heap
    refine ⟨good, callee, ?_⟩
    intro argument member
    exact lawful.holds_grows (hold argument member) evolves.heap

/-- The call made at a turn may be run. -/
theorem turn_before (lawful : discipline.Lawful) {callee : Value} {arguments : List Value}
    {started : Machine} (good : discipline.Good machine)
    (calls : machine.TurnCalls callee arguments started) :
    discipline.contract.before (.call callee arguments default) started := by
  cases calls with
  | @intro _ timed _ events _ _ _ read polled calls =>
    obtain ⟨asked, ready⟩ := good.poll read polled
    rw [← (Machine.readTime_same read).1] at asked ready
    have topLevel : discipline.Good { timed with events }.toTopLevel := ⟨asked.heap, asked.events⟩
    exact lawful.calls_before topLevel (ready _ rfl) calls

/-- A machine that has run nothing is in order. -/
theorem good_new (lawful : discipline.Lawful) (settings : Settings) (sink : Sink)
    (console : Console) (clock : WallClock) :
    discipline.Good (.new settings sink console clock) :=
  Machine.all_new (lawful.global _) ..

/-- A body that may be run leaves a machine in order. -/
theorem good_runBody (lawful : discipline.Lawful) {program : Program} {later : Machine}
    (before : discipline.contract.before (.stmts program) machine.toTopLevel)
    (occurs : ∀ occasion ∈ (Code.stmts program).trace bound machine.toTopLevel,
      discipline.occurs occasion)
    (ran : machine.runBody bound program = some later) : discipline.Good later :=
  lawful.lasting.runBody (Keeps.leaves (lawful.keeps occurs before)) ran

/-- A turn of the event loop leaves a machine in order. -/
theorem good_turn (lawful : discipline.Lawful) {poll : Poll Value} {later : Machine}
    (good : discipline.Good machine)
    (occurs : ∀ occasion ∈ machine.turnTrace bound, discipline.occurs occasion)
    (turned : machine.turn bound = some (poll, later)) : discipline.Good later := by
  refine lawful.lasting.turn ?_ ?_ turned
  · intro reading timed poll events read polled _
    obtain ⟨asked, -⟩ := good.poll read polled
    rw [← (Machine.readTime_same read).1] at asked
    exact asked
  · intro callee arguments started calls
    rw [calls.trace_eq] at occurs
    exact Keeps.leaves (lawful.keeps occurs (lawful.turn_before good calls))

/-- What happens from outside leaves a machine in order. -/
theorem good_happens (lawful : discipline.Lawful) {later : Machine} (good : discipline.Good machine)
    (happens : machine.Happens later) : discipline.Good later :=
  lawful.good_of_all (happens.all good) (happens.heap ▸ lawful.grows_refl _)

end Lawful

end Discipline

namespace Session

variable {discipline : Discipline} {session : Session} {past episode : List Occasion}

/-- Every state of a session of allowed programs is in order. -/
theorem Logged.good {admitted : Program → Prop} (lawful : discipline.Lawful)
    (allows : ∀ program, admitted program → discipline.Allows program)
    (logged : session.Logged admitted past)
    (occurs : ∀ occasion ∈ past, discipline.occurs occasion) :
    discipline.Good session.machine := by
  induction logged with
  | new settings sink console clock host => exact lawful.good_new settings sink console clock
  | body _ admits ran ih =>
    have before := ih fun occasion member => occurs occasion (List.mem_append_left _ member)
    have allowed := (allows _ admits).body before
    exact lawful.good_runBody allowed
      (fun occasion member => occurs occasion (List.mem_append_right _ member)) ran
  | turn _ turned ih =>
    have before := ih fun occasion member => occurs occasion (List.mem_append_left _ member)
    exact lawful.good_turn before
      (fun occasion member => occurs occasion (List.mem_append_right _ member)) turned
  | outside _ happens ih => exact lawful.good_happens (ih occurs) happens
  | finish _ ih | exchange _ _ _ ih =>
    exact lawful.lasting.same _ (ih occurs) _ rfl rfl

/-- All code that a session of allowed programs comes to may be run where the machine is. -/
theorem Stretch.fits {admitted : Program → Prop} (lawful : discipline.Lawful)
    (allows : ∀ program, admitted program → discipline.Allows program)
    (good : discipline.Good session.machine) (running : session.Stretch admitted episode)
    (occurs : ∀ occasion ∈ episode, discipline.occurs occasion) :
    ∀ occasion ∈ episode, discipline.contract.before occasion.code occasion.machine := by
  intro occasion member
  cases running with
  | body bound admits =>
    exact (lawful.validOn occurs).visited (List.Subset.refl _) ((allows _ admits).body good)
      (Code.mem_trace.mp member)
  | turn bound =>
    rcases session.machine.turnTrace_cases bound with nothing | ⟨_, _, _, calls⟩
    · rw [nothing] at member
      contradiction
    · rw [calls.trace_eq] at occurs member
      exact (lawful.validOn occurs).visited (List.Subset.refl _) (lawful.turn_before good calls)
        (Code.mem_trace.mp member)

/-- Every state of a session is in order. -/
theorem Recorded.good (lawful : discipline.Lawful) (admits : discipline.Admits)
    (recorded : session.Recorded past) (occurs : ∀ occasion ∈ past, discipline.occurs occasion) :
    discipline.Good session.machine :=
  recorded.logged.good lawful (fun _ ⟨_, accepted⟩ => admits accepted) occurs

/-- All code that a session comes to may be run where the machine is. -/
theorem Episode.fits (lawful : discipline.Lawful) (admits : discipline.Admits)
    (good : discipline.Good session.machine) (runs : session.Episode episode)
    (occurs : ∀ occasion ∈ episode, discipline.occurs occasion) :
    ∀ occasion ∈ episode, discipline.contract.before occasion.code occasion.machine :=
  runs.stretch.fits lawful (fun _ ⟨_, accepted⟩ => admits accepted) good occurs

end Session

end EventScript
