import EventScript.Proofs.Evaluation.ScopeTree
import EventScript.Proofs.Session.CallOrder
import EventScript.Proofs.Session.Intact
import EventScript.Proofs.Session.RunToCompletion

/-!
# The tree of scopes in sessions

Whatever programs a session runs, its machine is planted (`Machine.Planted`): all scopes that it
refers to are there, each is inside an older one, and only the global scope is inside none. So it is
between the steps of a session (`Session.Logged.planted`), wherever the session comes to code
(`Session.Stretch.planted`), and where this code ends.
-/

namespace EventScript

open Run

/-! ## Planted machines -/

/-- All scopes that the machine refers to are there, each inside an older one, with the global scope
as the only one that is inside none. -/
structure Machine.Planted (machine : Machine) : Prop extends machine.Intact where
  roots : machine.heap.Roots machine.globals

namespace Machine

variable {machine later reached : Machine} {bound : Nat}

/-- The global scope stays the global one. -/
theorem enduring_globals (globals : Nat) : Enduring fun machine => machine.globals = globals where
  act same act := (SamePlace.of_act act).globals.trans same
  moved _ _ same := same
  report _ same := by
    unfold Machine.report
    dsimp only
    split <;> exact same

/-- What is done around evaluation adds no scopes. -/
theorem lasting_roots (root : Nat) : Lasting fun machine => machine.heap.Roots root where
  same _ roots _ heap _ := heap ▸ roots
  arguments payload machine roots :=
    (payload.arguments_keepsScopes machine).imp fun _ keeps =>
      roots.sprouts (.of_same keeps.heap.scopes)

/-- The scopes of a machine that is planted are nested. -/
theorem Planted.nested (planted : machine.Planted) : machine.heap.Nested := by
  intro scope parent around
  obtain ⟨content, stored, inside⟩ := Option.bind_eq_some_iff.mp around
  exact planted.older stored inside

/-- Evaluation that leaves an intact machine leaves a planted one. -/
theorem Planted.leaves (planted : machine.Planted) {kind : ResultKind} {code : Code kind}
    (intact : (code.run bound machine).Leaves Machine.Intact) :
    (code.run bound machine).Leaves Machine.Planted := by
  have grown := code.sprouts bound machine
  have globals := (enduring_globals machine.globals).leaves bound code rfl
  cases ended : code.run bound machine with
  | exhausted => trivial
  | failed diagnostic later | done result later =>
    rw [ended] at intact grown globals
    have globals : later.globals = machine.globals := globals
    have roots := planted.roots.sprouts grown
    rw [← globals] at roots
    exact ⟨intact, roots⟩

/-- Evaluation that comes to code on an intact machine comes to it on a planted one. -/
theorem Planted.visited (planted : machine.Planted) {kind kind' : ResultKind} {code : Code kind}
    {code' : Code kind'} (visits : Code.Visits bound code machine code' reached)
    (intact : reached.Intact) : reached.Planted := by
  have globals : reached.globals = machine.globals :=
    (enduring_globals machine.globals).visited rfl visits
  have roots := planted.roots.sprouts visits.sprouts
  rw [← globals] at roots
  exact ⟨intact, roots⟩

/-! ## Steps of a session -/

/-- Reading the time does not change where the code is. -/
theorem readTime_place {reading : Duration} (read : machine.readTime = (reading, later)) :
    machine.SamePlace later := by
  unfold Machine.readTime at read
  split at read
  · obtain ⟨-, rfl⟩ := Prod.mk.inj read
    exact ⟨rfl, rfl, rfl⟩
  · obtain ⟨-, rfl⟩ := Prod.mk.inj read
    exact ⟨rfl, rfl, rfl⟩

/-- The call at a turn is made at top level. -/
theorem TurnCalls.place {callee : Value} {arguments : List Value} {started : Machine}
    (calls : machine.TurnCalls callee arguments started) :
    machine.toTopLevel.SamePlace started := by
  have made : ∀ {action : Action Value} {timed : Machine},
      action.Calls timed callee arguments started → timed.SamePlace started := by
    intro action timed calls
    cases calls with
    | call => exact ⟨rfl, rfl, rfl⟩
    | @deliver result _ _ _ made =>
      have acts := result.arguments_acts (fun _ => True) (fun _ => True) timed
      rw [made] at acts
      exact SamePlace.passage.acts acts ⟨rfl, rfl, rfl⟩
  cases calls with
  | intro read polled calls =>
    have same := (readTime_place read).globals
    have back := made calls
    exact ⟨back.scope.trans same, back.frames, back.globals.trans same⟩

/-- A turn of the event loop leaves the code at top level, if it was there. -/
theorem turn_place {poll : Poll Value} (turned : machine.turn bound = some (poll, later)) :
    later.globals = machine.globals ∧ (machine.AtTopLevel → later.AtTopLevel) := by
  obtain ⟨reading, timed, events, read, polled, ⟨-, rfl⟩ | ⟨task, rfl, ran⟩⟩ := turn_cases turned
  · have same := readTime_place read
    refine ⟨same.globals, ?_⟩
    intro before
    have scope := same.scope.trans (before.scope.trans same.globals.symm)
    have frames := same.frames.trans before.frames
    exact ⟨scope, frames⟩
  · have runs : TaskRun.Runs ⟨task, { timed with events }, later⟩ := ⟨bound, ran⟩
    have before : Machine.globals { timed with events } = machine.globals :=
      (readTime_place read).globals
    have globals := (enduring_globals machine.globals).runTask before ran
    exact ⟨globals, fun _ => runs.undisturbed.topLevel⟩

/-- The only scope of a machine that has run nothing is the global one. -/
theorem roots_new (settings : Settings) (sink : Sink) (console : Console) (clock : WallClock) :
    (Machine.new settings sink console clock).heap.Roots 0 :=
      fun _ inside _ => Nat.lt_one_iff.mp inside

/-- After the body of a program the global scope is still the only root. -/
theorem roots_runBody {program : Program} (roots : machine.heap.Roots machine.globals)
    (ran : machine.runBody bound program = some later) : later.heap.Roots later.globals := by
  rw [(enduring_globals machine.globals).runBody rfl ran]
  have grown := (Code.stmts program).sprouts bound machine.toTopLevel
  exact (lasting_roots machine.globals).runBody (grown.imp fun _ => roots.sprouts) ran

/-- So it is after a turn of the event loop. -/
theorem roots_turn {poll : Poll Value} (roots : machine.heap.Roots machine.globals)
    (turned : machine.turn bound = some (poll, later)) : later.heap.Roots later.globals := by
  rw [(turn_place turned).1]
  refine (lasting_roots machine.globals).turn ?_ ?_ turned
  · intro reading timed poll events read polled idle
    have scopes := congrArg Heap.scopes (readTime_same read).1
    exact roots.sprouts (.of_same scopes)
  · intro callee arguments started calls
    have begun := roots.sprouts (.of_same calls.scopes_eq)
    have grown := (Code.call callee arguments default).sprouts bound started
    exact grown.imp fun _ => begun.sprouts

end Machine

namespace Session

variable {admitted : Program → Prop} {session : Session} {past episode : List Occasion}

/-- Between the steps of a session its machine is planted. -/
theorem Logged.planted (logged : session.Logged admitted past) : session.machine.Planted := by
  refine ⟨logged.intact, ?_⟩
  induction logged with
  | new settings sink console clock host => exact Machine.roots_new settings sink console clock
  | body _ _ ran ih => exact Machine.roots_runBody ih ran
  | turn _ turned ih => exact Machine.roots_turn ih turned
  | exchange _ _ _ ih | finish _ ih => exact ih
  | outside _ happens ih =>
    rw [happens.heap, happens.place.1]
    exact ih

/-- Between the steps of a session no call is open. -/
theorem Logged.atTopLevel (logged : session.Logged admitted past) : session.machine.AtTopLevel := by
  induction logged with
  | new | finish => exact ⟨rfl, rfl⟩
  | body _ _ ran =>
    obtain ⟨ended, -, rfl⟩ := Option.map_eq_some_iff.mp ran
    exact ⟨rfl, rfl⟩
  | turn _ turned ih =>
    have after := (Machine.turn_place turned).2 ih
    exact ⟨after.scope, after.frames⟩
  | exchange _ _ _ ih => exact ⟨ih.scope, ih.frames⟩
  | outside _ happens ih =>
    obtain ⟨globals, scope, frames⟩ := happens.place
    exact ⟨scope.trans (ih.scope.trans globals.symm), frames.trans ih.frames⟩

/-- The code that a session may run next, and the machine that it runs it on. -/
inductive Begins (admitted : Program → Prop) (session : Session) :
    {kind : ResultKind} → Code kind → Machine → Prop where
  | body {program : Program} (admits : admitted program) :
      Begins admitted session (.stmts program) session.machine.toTopLevel
  | turn {callee : Value} {arguments : List Value} {started : Machine}
      (calls : session.machine.TurnCalls callee arguments started) :
      Begins admitted session (.call callee arguments default) started

/-- What a session may run next is what the code comes to that it begins with, if there is any. -/
theorem Stretch.cases (running : session.Stretch admitted episode) :
    episode = [] ∨ ∃ (bound : Nat) (kind : ResultKind) (code : Code kind) (origin : Machine),
      session.Begins admitted code origin ∧ episode = code.trace bound origin := by
  cases running with
  | body bound admits => exact .inr ⟨bound, _, _, _, .body admits, rfl⟩
  | turn bound =>
    rcases session.machine.turnTrace_cases bound with nothing | ⟨callee, arguments, started, calls⟩
    · exact .inl nothing
    · exact .inr ⟨bound, _, _, started, .turn calls, calls.trace_eq⟩

section Begins

variable {kind : ResultKind} {code : Code kind} {origin : Machine}

/-- Code begins on machines that are planted. -/
theorem Begins.planted (begins : session.Begins admitted code origin)
    (planted : session.machine.Planted) : origin.Planted := by
  cases begins with
  | body => exact ⟨planted.toIntact.toTopLevel, planted.roots⟩
  | turn calls =>
    refine ⟨(planted.toIntact.mirrored_turn calls).intact, ?_⟩
    rw [calls.place.globals]
    exact planted.roots.sprouts (.of_same calls.scopes_eq)

/-- Code begins on intact machines. -/
theorem Begins.mirrored (begins : session.Begins admitted code origin)
    (planted : session.machine.Planted) : Occasion.Mirrored ⟨code, origin⟩ := by
  cases begins with
  | body => exact planted.toIntact.mirrored_body _
  | turn calls => exact planted.toIntact.mirrored_turn calls

/-- At first no call is open. -/
theorem Begins.frames (begins : session.Begins admitted code origin) : origin.frames = [] := by
  cases begins with
  | body => rfl
  | turn calls => exact calls.place.frames

end Begins

/-- Wherever a session comes to code its machine is planted, and the code mirrors itself. -/
theorem Stretch.planted {occasion : Occasion} (logged : session.Logged admitted past)
    (running : session.Stretch admitted episode) (member : occasion ∈ episode) :
    occasion.machine.Planted ∧ occasion.Mirrored := by
  rcases running.cases with rfl | ⟨bound, kind, code, origin, begins, rfl⟩
  · contradiction
  · have visits := Code.mem_trace.mp member
    have mirrored := (begins.mirrored logged.planted).visited visits
    exact ⟨(begins.planted logged.planted).visited visits mirrored.intact, mirrored⟩

end Session

end EventScript
