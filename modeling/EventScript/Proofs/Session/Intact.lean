import EventScript.Proofs.Mirroring.Intact
import EventScript.Proofs.Session.Logged

/-!
# Sessions are intact

Whatever programs a session has run, its machine refers only to scopes that are there
(`Session.Logged.intact`), and so does every machine that it runs code on (`Session.Runs.intact`).
-/

namespace EventScript

open Run

namespace Machine

variable {machine later : Machine} {bound : Nat}

/-- The only scope of a machine that has run nothing is the global one. -/
theorem intact_new (settings : Settings) (sink : Sink) (console : Console) (clock : WallClock) :
    (Machine.new settings sink console clock).Intact := by
  have install : ∀ (builtins : List Builtin) (heap : Heap),
      heap.scopes.size = 1 ∧ heap.scopes.All (fun content => content.parent = none) →
      let last := builtins.foldl (fun heap builtin =>
        (heap.newBuiltin builtin none).2.define 0 builtin.name
        (heap.newBuiltin builtin none).1) heap
      last.scopes.size = 1 ∧ last.scopes.All fun content => content.parent = none := by
    intro builtins
    induction builtins with
    | nil => exact fun _ alone => alone
    | cons first rest ih =>
      rintro heap ⟨size, outermost⟩
      exact ih _ ⟨(Store.size_modify ..).trans size, outermost.modify fun _ parent => parent⟩
  obtain ⟨size, outermost⟩ := install Builtin.globals (({} : Heap).newScope none).2
    ⟨rfl, Store.all_empty.alloc rfl⟩
  refine ⟨⟨?values, ?older, ?global⟩, ?scope, nofun⟩
  case values => exact Machine.all_new (fun _ => List.forall_mem_nil _) ..
  case older =>
    intro scope parent content stored around
    rw [outermost scope content stored] at around
    contradiction
  case global => exact Nat.lt_of_lt_of_eq Nat.zero_lt_one size.symm
  case scope => exact Nat.lt_of_lt_of_eq Nat.zero_lt_one size.symm

/-- Whether a machine is intact depends on where its code is, on its heap and on the values in the
event loop. -/
theorem Intact.of_same (intact : machine.Intact) (heap : later.heap = machine.heap)
    (events : later.events.All (Value.Within machine.heap.scopes.size))
    (globals : later.globals = machine.globals) (scope : later.scope = machine.scope)
    (frames : later.frames = machine.frames) : later.Intact where
  values := by
    rw [heap]
    exact ⟨heap ▸ intact.values.heap, events⟩
  older := by
    rw [heap]
    exact intact.older
  global := by
    rw [heap, globals]
    exact intact.global
  scope := by
    rw [heap, scope]
    exact intact.scope
  frames := by
    rw [heap, frames]
    exact intact.frames

/-- Going back to the global scope leaves an intact machine. -/
theorem Intact.toTopLevel (intact : machine.Intact) : machine.toTopLevel.Intact where
  values := ⟨intact.values.heap, intact.values.events⟩
  older := intact.older
  global := intact.global
  scope := intact.global
  frames := List.forall_mem_nil _

/-- Reporting an error leaves an intact machine. -/
theorem Intact.report (intact : machine.Intact) (diagnostic : Diagnostic) :
    (machine.report diagnostic).Intact := by
  unfold Machine.report
  dsimp only
  split <;> exact intact.of_same rfl intact.values.events rfl rfl rfl

/-- Reading the time leaves an intact machine. -/
theorem Intact.readTime {reading : Duration} (intact : machine.Intact)
    (read : machine.readTime = (reading, later)) : later.Intact := by
  unfold Machine.readTime at read
  split at read
  · obtain ⟨-, rfl⟩ := Prod.mk.inj read
    exact intact
  · obtain ⟨-, rfl⟩ := Prod.mk.inj read
    exact intact.of_same rfl intact.values.events rfl rfl rfl

/-- The code of an intact machine may run where it is. -/
theorem Intact.stands (intact : machine.Intact) {kind : ResultKind} (code : Code kind) :
    code.Stands (.itself machine.heap.scopes.size) machine.scope machine.scope :=
  ⟨.paired ⟨rfl, intact.scope⟩, .inr ⟨rfl, intact.scope⟩⟩

/-- The body of a program mirrors itself where it is run. -/
theorem Intact.mirrored_body (intact : machine.Intact) (program : Program) :
    Occasion.Mirrored ⟨.stmts program, machine.toTopLevel⟩ :=
  .intro (.stmts program) (intact.toTopLevel.stands _) intact.toTopLevel.mirrors

/-- The body of a program leaves an intact machine. -/
theorem Intact.runBody {program : Program} (intact : machine.Intact)
    (ran : machine.runBody bound program = some later) : later.Intact := by
  obtain ⟨ended, reporting, rfl⟩ := Option.map_eq_some_iff.mp ran
  have leaves := (intact.mirrored_body program).leaves bound
  have reported : ended.Intact := Run.reporting_leaves (Run.discard_leaves leaves)
    (fun _ diagnostic intact => intact.report diagnostic) reporting
  exact reported.toTopLevel

/-- Asking the event loop what to do next leaves an intact machine. -/
theorem Intact.poll {reading : Duration} {timed : Machine} {events : EventLoop Value}
    {poll : Poll Value}
    (intact : machine.Intact) (read : machine.readTime = (reading, timed))
    (polled : timed.events.poll reading = (poll, events)) :
    Machine.Intact { timed with events } ∧
      ∀ task, poll = .ready task → task.action.All (Value.Within timed.heap.scopes.size) := by
  have ticked := intact.readTime read
  obtain ⟨onward, ready⟩ := ticked.values.events.poll polled
  exact ⟨ticked.of_same rfl onward rfl rfl rfl, ready⟩

/-- An action on related values does the same. -/
theorem runAction_parallels {pairing : Pairing} {scope scope' : Nat} {action action' : Action Value}
    (actions : action.Rel (Value.Mirrors pairing) action') (meets : pairing.Meets scope scope') :
    (runAction bound action).Parallels pairing scope scope' (fun _ => Eq)
      (runAction bound action') := by
  have called : ∀ {callee callee' : Value} {arguments arguments' : List Value},
      callee.Mirrors pairing callee' → List.Forall₂ (Value.Mirrors pairing) arguments arguments' →
      (do let _ ← callValue bound callee arguments default : Run Unit).Parallels pairing
      scope scope'
        (fun _ => Eq) (do let _ ← callValue bound callee' arguments' default) := fun callees all =>
    (Code.run_parallels bound (.call callees all default) ⟨meets, .inl trivial⟩).bind
      fun _ _ _ _ machines => ⟨_, .refl _, .done rfl machines⟩
  cases actions with
  | call callees all => exact called callees all
  | deliver callbacks result =>
    refine result.arguments_mirrors.parallels.bind fun _ ⟨now, all⟩ => ?_
    subst now
    exact called callbacks all
  | fail diagnostic => exact fun _ _ machines => ⟨_, .refl _, .failed _ machines⟩

/-- A task leaves an intact machine. -/
theorem Intact.runTask {task : Task Value} (intact : machine.Intact)
    (inside : task.action.All (Value.Within machine.heap.scopes.size))
    (ran : machine.runTask bound task = some later) : later.Intact := by
  have started := intact.toTopLevel
  have meets := (started.stands (.stmts [])).meets
  have parallels := @runAction_parallels bound _ _ _ _ _ inside.mirrors meets
  have leaves := parallels.leaves_intact meets started.mirrors
  exact Run.reporting_leaves leaves (fun _ diagnostic intact => intact.report diagnostic) ran

/-- The call that an action makes mirrors itself where it is made. -/
theorem Intact.mirrored_call {action : Action Value} {callee : Value} {arguments : List Value}
    {started : Machine} (intact : machine.Intact)
    (inside : action.All (Value.Within machine.heap.scopes.size))
    (calls : action.Calls machine callee arguments started) :
    Occasion.Mirrored ⟨.call callee arguments default, started⟩ := by
  have meets := (intact.stands (.stmts [])).meets
  cases calls with
  | call =>
    have all := List.forall₂_same.mpr fun argument member => (inside.2 argument member).mirrors
    exact .intro (.call inside.1.mirrors all default) ⟨meets, .inl trivial⟩ intact.mirrors
  | @deliver result _ _ callback made =>
    have outcomes := result.arguments_mirrors _ _ intact.mirrors
    rw [made] at outcomes
    obtain ⟨_, _, _, all, begun⟩ := outcomes.exists_done
    exact .intro (.call (Value.Within.mirrors inside) all default) ⟨meets, .inl trivial⟩ begun

/-- The call at a turn mirrors itself where it is made. -/
theorem Intact.mirrored_turn {callee : Value} {arguments : List Value} {started : Machine}
    (intact : machine.Intact) (calls : machine.TurnCalls callee arguments started) :
    Occasion.Mirrored ⟨.call callee arguments default, started⟩ := by
  cases calls with
  | intro read polled calls =>
    obtain ⟨asked, ready⟩ := intact.poll read polled
    exact asked.toTopLevel.mirrored_call (ready _ rfl) calls

/-- What happens from outside leaves an intact machine. -/
theorem Intact.happens (intact : machine.Intact) (happens : machine.Happens later) :
    later.Intact := by
  have events := happens.events intact.values.events
  cases happens with
  | time | report | handOn => exact intact.of_same rfl events rfl rfl rfl

/-- A turn of the event loop leaves an intact machine. -/
theorem Intact.turn {poll : Poll Value} (intact : machine.Intact)
    (turned : machine.turn bound = some (poll, later)) : later.Intact := by
  obtain ⟨reading, timed, events, read, polled, idle | ran⟩ := Machine.turn_cases turned
  · obtain ⟨-, rfl⟩ := idle
    exact (intact.poll read polled).1
  · obtain ⟨task, ready, ran⟩ := ran
    obtain ⟨asked, inside⟩ := intact.poll read polled
    exact asked.runTask (inside task ready) ran

end Machine

namespace Session

variable {session : Session}

/-- Every state of a session is intact, whatever programs it runs. -/
theorem Logged.intact {admitted : Program → Prop} {past : List Occasion}
    (logged : session.Logged admitted past) : session.machine.Intact := by
  induction logged with
  | new settings sink console clock host => exact Machine.intact_new settings sink console clock
  | body _ _ ran ih => exact ih.runBody ran
  | turn _ turned ih => exact ih.turn turned
  | outside _ happens ih => exact ih.happens happens
  | exchange _ _ _ ih => exact ih.of_same rfl ih.values.events rfl rfl rfl
  | finish _ ih => exact ih.toTopLevel

/-- A session of accepted source texts runs code on intact machines only. -/
theorem Runs.intact (reached : session.Reachable) {kind : ResultKind} {code : Code kind}
    {machine : Machine} (runs : session.Runs code machine) : machine.Intact := by
  obtain ⟨past, recorded⟩ := reached.recorded
  have intact := recorded.logged.intact
  cases runs with
  | body accepted visits =>
    have mirrored := (intact.mirrored_body _).visited visits
    exact mirrored.intact
  | task read polled calls visits =>
    have mirrored := (intact.mirrored_turn (.intro read polled calls)).visited visits
    exact mirrored.intact

end Session

end EventScript
