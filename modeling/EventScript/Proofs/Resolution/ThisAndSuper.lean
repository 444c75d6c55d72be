import EventScript.Proofs.Resolution.Soundness
import EventScript.Proofs.Session.Disciplined

/-!
# This and super in sessions

Every state of a session is sound (`Session.Reachable.sound`), as neither the body of an accepted
source text nor a task changes that, whoever called whom and whenever. So all code that a session
comes to finds around it what it was accepted for, and every `this` and `super` has a meaning
(`Session.this_and_super_resolve`).
-/

namespace EventScript

/-- An accepted source text has only accepted statements. -/
theorem Program.accepted_of_accept {source : String} {program : Program}
    (accepted : Program.accept source = .ok program) : ∀ stmt ∈ program, stmt.Accepted .none :=
  Program.accepted_of_check (Program.accept_iff.mp accepted).2

/-- At top level there is no class, and accepted programs need none. -/
theorem receiverDiscipline_admits : receiverDiscipline.Admits := by
  intro source program accepted
  refine ⟨.none, ?_, Program.accepted_of_accept accepted⟩
  intro heap scope
  exact { this := fun inside => absurd rfl inside, super := nofun, home := nofun }

namespace Session

variable {session : Session} {machine : Machine}

/-- Every state of a session is sound. -/
theorem Reachable.sound (reached : session.Reachable) : session.machine.Sound := by
  obtain ⟨past, recorded⟩ := reached.recorded
  exact recorded.good receiverDiscipline_lawful receiverDiscipline_admits fun _ _ => trivial

/-- All expressions in an episode find around them what they were accepted for. -/
theorem Episode.accepts {form : Expr} {episode : List Occasion} (reached : session.Reachable)
    (running : session.Episode episode) (member : ⟨.expr form, machine⟩ ∈ episode) :
    machine.Sound ∧ ∃ cls, machine.Grants cls ∧ form.Accepted cls :=
  running.fits receiverDiscipline_lawful receiverDiscipline_admits reached.sound
    (fun _ _ => trivial) _ member

/-- All expressions that a session comes to find around them what they were accepted for. -/
theorem Runs.fits {form : Expr} (reached : session.Reachable)
    (runs : session.Runs (.expr form) machine) :
    machine.Sound ∧ ∃ cls, machine.Grants cls ∧ form.Accepted cls := by
  obtain ⟨episode, running, member⟩ := runs.episode
  exact running.accepts reached member

/-- Wherever a session comes to `this`, it has a value, and wherever it comes to `super`, there is a
superclass and an object: the only thing that may be missing is the method. -/
theorem this_and_super_resolve (session : Session) (reached : session.Reachable)
    (machine : Machine) :
    (∀ span, session.Runs (.expr (.this span)) machine →
      ∃ value, machine.heap.lookup? machine.scope "this" = some value ∧
        ∀ bound, EventScript.evaluate (bound + 1) (.this span) machine = .done value machine) ∧
    (∀ span name, session.Runs (.expr (.super span name)) machine →
      ∃ parent receiver, machine.home.bind Class.superclass? = some parent ∧
        machine.heap.lookup? machine.scope "this" = some receiver ∧
        ∀ bound, EventScript.evaluate (bound + 1) (.super span name) machine =
          match parent.findMethod? name with
          | none => .failed ((Fault.undefinedProperty name).diagnosticAt span) machine
          | some method =>
            .done (machine.heap.newMethod receiver method).1
              { machine with heap := (machine.heap.newMethod receiver method).2 }) := by
  constructor
  · intro span runs
    obtain ⟨-, cls, grants, accepted⟩ := runs.fits reached
    obtain ⟨value, this⟩ := (grants.this accepted.this).lookup?
    refine ⟨value, this, fun bound => ?_⟩
    show Run.readVariable span "this" machine = .done value machine
    unfold Run.readVariable
    rw [this]
  · intro span name runs
    obtain ⟨-, cls, grants, accepted⟩ := runs.fits reached
    have inside := accepted.super
    subst inside
    obtain ⟨parent, superclass, -⟩ := Machine.Grants.superclass grants
    obtain ⟨receiver, this⟩ := (grants.this nofun).lookup?
    have evaluates := Run.superMethod_eq superclass this span name
    exact ⟨parent, receiver, superclass, this, fun _ => evaluates⟩

/-- An initializer that calls the inherited one comes to both. -/
theorem this_and_super_resolve_initializer :
    ∃ session : Session, session.Reachable ∧
      (∃ span machine value, session.Runs (.expr (.this span)) machine ∧
        ∀ bound, EventScript.evaluate (bound + 1) (.this span) machine = .done value machine) ∧
      ∃ span name machine parent, session.Runs (.expr (.super span name)) machine ∧
        machine.home.bind Class.superclass? = some parent := by
  have reached : Reachable (.new {} (.captured "") {} {} {}) := .new ..
  have resolve := this_and_super_resolve _ reached
  refine ⟨_, reached, ?_, ?_⟩
  · obtain ⟨form, machine, isThis, runs⟩ := Runs.of_trace (.new {} (.captured "") {} {} {}) 16
      "class A{init(){}}class B<A{init(){super.init();this;}}B();" (· matches .this _)
      (by decide +kernel)
    split at isThis
    · rename_i span
      obtain ⟨value, -, evaluates⟩ := (resolve machine).1 span runs
      exact ⟨span, machine, value, runs, evaluates⟩
    · contradiction
  · obtain ⟨form, machine, isSuper, runs⟩ := Runs.of_trace (.new {} (.captured "") {} {} {}) 16
      "class A{init(){}}class B<A{init(){super.init();this;}}B();" (· matches .super ..)
      (by decide +kernel)
    split at isSuper
    · rename_i span name
      obtain ⟨parent, -, superclass, -⟩ := (resolve machine).2 span name runs
      exact ⟨span, name, machine, parent, runs, superclass⟩
    · contradiction

end Session

end EventScript
