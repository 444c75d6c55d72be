import EventScript.Proofs.Resolution.ThisAndSuper
import EventScript.Proofs.Session.CallOrder

/-!
# Where super starts to look

The code in the text of a method belongs to one call of the method: the one whose body started in
the nearest scope around it that binds `this`. That is so for functions nested in the method too,
wherever they are kept and whenever they are called. `super` looks for a method in the superclass of
the class of that call, which is the one that a class declaration made, and binds it to the object
of that call (`Session.super_is_static`).
-/

namespace EventScript

open Run

/-- Accepted programs stand outside of all methods. -/
theorem originDiscipline_admits (record : List Occasion) : (originDiscipline record).Admits :=
  fun _ _ accepted => ⟨none, nofun, fun form member =>
    { spares := Program.spares_this accepted form member
      outside := fun _ => Program.accepted_of_accept accepted form member
      inside := nofun }⟩

/-- In all that was run, the call is the one that the code of the machine belongs to: its body
started in the nearest scope around the code that binds `this`. -/
structure MethodCall.IsAround (record : List Occasion) (machine : Machine) (call : MethodCall) :
    Prop where
  started : ∃ occasion ∈ record, occasion.Starts call
  nearest : machine.heap.binder? machine.scope "this" = some call.scope

namespace Session

variable {session : Session} {past episode : List Occasion} {machine : Machine}

/-- Wherever a session comes to `super`, a call surrounds the code, whose method's text it is in. -/
theorem Episode.surrounded {span : Span} {name : String} (recorded : session.Recorded past)
    (running : session.Episode episode) (member : ⟨.expr (.super span name), machine⟩ ∈ episode) :
    ∃ call : MethodCall,
      call.Surrounds (past ++ episode) machine.heap machine.home machine.scope ∧
        call.method.decl.EnclosesExpr (.super span name) := by
  have lawful := originDiscipline_lawful (past ++ episode)
  have admits := originDiscipline_admits (past ++ episode)
  have good := recorded.good lawful admits fun _ early => List.mem_append_left _ early
  obtain ⟨-, place, surrounds, lies⟩ :=
    running.fits lawful admits good (fun _ late => List.mem_append_right _ late) _ member
  cases place with
  | none =>
    -- What lies outside of all methods is accepted without a class, and so without `super`.
    exact absurd (lies.outside rfl).super nofun
  | some call => exact ⟨call, surrounds call rfl, lies.inside call rfl⟩

/-- The code of a machine belongs to one call only. -/
theorem Episode.around_unique {call other : MethodCall} (recorded : session.Recorded past)
    (running : session.Episode episode) (one : call.IsAround (past ++ episode) machine)
    (also : other.IsAround (past ++ episode) machine) : other = call := by
  obtain ⟨early, inEarly, starts⟩ := one.started
  obtain ⟨late, inLate, starts'⟩ := also.started
  have same : other.scope = call.scope := Option.some.inj (also.nearest.symm.trans one.nearest)
  exact running.agree recorded inLate inEarly other call starts' starts same

/-- Wherever a session comes to `super`, the class of the method around has a superclass. -/
theorem Episode.superclass {span : Span} {name : String} {call : MethodCall}
    (reached : session.Reachable) (running : session.Episode episode)
    (member : ⟨.expr (.super span name), machine⟩ ∈ episode)
    (home : machine.home = some call.method.owner) :
    ∃ parent, call.method.owner.superclass? = some parent := by
  obtain ⟨-, cls, grants, accepted⟩ := running.accepts reached member
  obtain rfl := accepted.super
  obtain ⟨parent, superclass, -⟩ := Machine.Grants.superclass grants
  rw [home] at superclass
  exact ⟨parent, superclass⟩

/-- Wherever a session comes to `super`, the code belongs to just one call of a method, in whose
text it is. A class declaration that declares the method made its class, and the object of the call
is an instance of that class. The method that `super` gives is the nearest one that the superclass
of that class has, bound to that object. -/
theorem super_is_static (session : Session) (past episode : List Occasion)
    (recorded : session.Recorded past) (running : session.Episode episode) (machine : Machine)
    (span : Span) (name : String) (member : ⟨.expr (.super span name), machine⟩ ∈ episode) :
    ∃ call : MethodCall, call.IsAround (past ++ episode) machine ∧
      (∀ other : MethodCall, other.IsAround (past ++ episode) machine → other = call) ∧
      call.method.decl.EnclosesExpr (.super span name) ∧
      (∃ occasion ∈ past ++ episode, ∃ decls,
        occasion.Makes decls call.method.owner ∧ call.method.decl ∈ decls) ∧
      machine.heap.IsInstance call.receiver call.method.owner ∧
      ∃ parent, call.method.owner.superclass? = some parent ∧
        (∀ found, parent.Nearest name found → ∀ bound,
          EventScript.evaluate (bound + 1) (.super span name) machine =
            .done (machine.heap.newMethod call.receiver found).1
              { machine with heap := (machine.heap.newMethod call.receiver found).2 }) ∧
        ((∀ found, ¬parent.Nearest name found) → ∀ bound,
          EventScript.evaluate (bound + 1) (.super span name) machine =
            .failed ((Fault.undefinedProperty name).diagnosticAt span) machine) := by
  obtain ⟨call, surrounds, encloses⟩ := running.surrounded recorded member
  obtain ⟨parent, superclass⟩ := running.superclass recorded.reachable member surrounds.home
  have around : call.IsAround (past ++ episode) machine :=
    ⟨surrounds.started, surrounds.finds.binder?⟩
  have inherits : machine.home.bind Class.superclass? = some parent := by
    rw [surrounds.home]
    exact superclass
  have evaluates := superMethod_eq inherits surrounds.finds.lookup? span name
  have unique : ∀ other : MethodCall, other.IsAround (past ++ episode) machine → other = call :=
    fun other => running.around_unique recorded around
  have declared := surrounds.bound.rooted.declared
  have receives := surrounds.bound.receives
  refine ⟨call, around, unique, encloses, declared, receives, parent, superclass, ?_, ?_⟩
  · intro found nearest _
    rw [Class.findMethod?_iff.mpr nearest] at evaluates
    exact evaluates
  · intro absent _
    cases found : parent.findMethod? name with
    | none =>
      rw [found] at evaluates
      exact evaluates
    | some method => exact absurd (Class.findMethod?_iff.mp found) (absent method)

/-- A function that a method has returned, called on an object whose class has a method of its own,
comes to `super` and belongs to the call that made it. -/
theorem super_is_static_returned :
    ∃ session past episode machine span name, Session.Recorded session past ∧
      session.Episode episode ∧ ⟨.expr (.super span name), machine⟩ ∈ episode ∧
      ∃ call : MethodCall, call.IsAround (past ++ episode) machine ∧
        call.method.decl.EnclosesExpr (.super span name) := by
  have recorded : Recorded (.new {} (.captured "") {} {} {}) [] := .new ..
  obtain ⟨episode, form, machine, running, isSuper, member⟩ :=
    Episode.of_trace (.new {} (.captured "") {} {} {}) 24
      "class A{m(){}}class B<A{t(){fun f(){super.m();}return f;}}class C<B{m(){}}C().t()();"
      (· matches .super ..) (by decide +kernel)
  split at isSuper
  · rename_i span name
    obtain ⟨call, around, -, encloses, -⟩ :=
      super_is_static _ _ _ recorded running machine span name member
    exact ⟨_, [], episode, machine, span, name, recorded, running, member, call, around, encloses⟩
  · contradiction

end Session

end EventScript
