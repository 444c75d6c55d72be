import EventScript.Proofs.Evaluation.Disciplined
import EventScript.Proofs.Resolution.Receiver

/-!
# Soundness of the check of this and super

Evaluation keeps what accepted code finds around it (`receiverDiscipline_lawful`): functions and
methods find what their bodies were accepted for, from where they are made to where they are called.
-/

namespace EventScript

open Run

variable {machine : Machine} {cls : ClassContext} {heap : Heap}

/-- The superclass of a sound class is sound. -/
theorem Class.Sound.superclass {owner parent : Class} (sound : owner.Sound)
    (superclass : owner.superclass? = some parent) : parent.Sound := by
  have inherited : ClassBody.SoundAll owner.ancestors := sound.2
  unfold Class.superclass? at superclass
  split at superclass
  · contradiction
  · rename_i ancestors
    obtain rfl := Option.some.inj superclass
    rw [ancestors] at inherited
    exact inherited

/-- Where code for a subclass runs, the running method's class has a superclass, which is sound. -/
theorem Machine.Grants.superclass (grants : machine.Grants .subclass) :
    ∃ parent, machine.home.bind Class.superclass? = some parent ∧ parent.Sound := by
  obtain ⟨owner, home, inherits⟩ := grants.super rfl
  obtain ⟨parent, ancestors, lineage⟩ := List.exists_cons_of_ne_nil inherits
  have superclass : owner.superclass? = some { parent with ancestors } := by
    rw [Class.superclass?, lineage]
  refine ⟨_, ?_, (grants.home owner home).superclass superclass⟩
  rw [home]
  exact superclass

/-- A method that is found in the superclass is sound. -/
theorem Machine.Grants.super {parent : Class} {receiver : Value} {name : String} {method : Method}
    (grants : machine.Grants cls) (sound : machine.Sound)
    (superclass : machine.home.bind Class.superclass? = some parent)
    (this : machine.heap.lookup? machine.scope "this" = some receiver)
    (found : parent.findMethod? name = some method) (identity : Nat) :
    (Value.method identity receiver method).Sound machine.heap := by
  obtain ⟨owner, home, inherits⟩ := Option.bind_eq_some_iff.mp superclass
  have parentSound := (grants.home owner home).superclass inherits
  obtain ⟨ownerSound, accepted⟩ := Class.sound_of_findIn parentSound found
  exact .method identity (sound.heap.lookup? this) ownerSound accepted

/-- A class is sound where its declaration is accepted and its superclass is sound. -/
theorem Class.sound_of_makes {span : Span} {name : String} {superclass : Option SuperclassName}
    {methods : List FunctionDecl} {parent : Option Class} {later : Machine} {made : Value}
    (accepted : (Stmt.classDecl span name superclass methods).Accepted cls)
    (resolved : resolveSuperclass superclass machine = .done parent machine)
    (inherited : ∀ ancestor ∈ parent, (Value.classObject ancestor).Sound heap)
    (makes : makeClass name parent methods machine = .done made later) : made.Sound heap := by
  obtain ⟨rfl, -⟩ := Outcome.done.inj makes
  have acceptedMethods := accepted.methods
  rw [← (resolveSuperclass_done resolved).2] at acceptedMethods
  have context : ∀ method ∈ methods,
      method.Accepted (.within (parent.elim [] Class.lineage)) := by
    cases parent <;> exact acceptedMethods
  have ancestors : ClassBody.SoundAll (parent.elim [] Class.lineage) := by
    cases parent with
    | none => trivial
    | some ancestor => exact (inherited ancestor rfl).cls
  refine .classObject ⟨OrderedMap.all_ofList ?_, ancestors⟩
  intro entry member
  obtain ⟨method, declared, rfl⟩ := List.mem_map.mp member
  exact context method declared

/-- Calling a sound function finds around it what its body was accepted for. -/
theorem Activation.Grants.ofClosure {heap : Heap} {closure : Closure}
    (accepted : closure.decl.Accepted cls)
    (grants : EventScript.Grants heap cls closure.home closure.scope) :
    (Activation.ofClosure closure).Grants heap cls :=
  { accepted
    receiver := nofun
    this := fun inside => .inr (grants.this inside)
    super := grants.super
    home := grants.home }

/-- Calling a sound method binds the object and runs it for its class. -/
theorem Activation.Grants.ofMethod {heap : Heap} {receiver : Value} {method : Method}
    (receives : receiver.Sound heap) (owner : method.owner.Sound)
    (accepted : method.decl.Accepted (.within method.owner.ancestors)) :
    (Activation.ofMethod receiver method).Grants heap (.within method.owner.ancestors) where
  accepted := accepted
  receiver := fun _ member => Option.some.inj member ▸ receives
  this := fun _ => .inl rfl
  super := by
    intro inside
    refine ⟨method.owner, rfl, ?_⟩
    intro none
    rw [none] at inside
    contradiction
  home := fun _ member => Option.some.inj member ▸ owner

/-- The body of a function finds around it what it was accepted for. -/
theorem Activation.Grants.body {called : Activation} (grants : called.Grants heap cls)
    (arguments : List Value) :
    EventScript.Grants (called.start arguments heap).2 cls called.home
      (called.start arguments heap).1 where
  this := fun inside => called.sees_this arguments heap (grants.this inside)
  super := grants.super
  home := grants.home

/-- Evaluation keeps values sound, and comes only to code that finds around it what it needs. -/
theorem receiverDiscipline_lawful : receiverDiscipline.Lawful where
  grows_trans := Heap.Grows.trans
  grows_of_keeps := Heap.KeepsScopes.grows
  grows_define := fun heap scope value _ => heap.grows_define scope _ value
  grows_newScope := Heap.grows_newScope
  grows_start := Activation.grows_start
  holds_grows := Value.Sound.grows
  around_grows := Grants.grows
  calls_grows := fun grants grows => grants.imp fun _ grants => grants.grows grows
  plain := fun _ _ plain => .data plain
  global := fun _ _ => .builtin ..
  builtin := fun _ _ _ => .builtin ..
  bareClass := fun _ _ _ _ => .classObject ⟨OrderedMap.all_empty, trivial⟩
  expr_part := fun accepted member => Expr.Accepted.part accepted member
  expr_assigned := fun _ _ => trivial
  stmt_expr := fun accepted member => Stmt.Accepted.expr accepted member
  stmt_part := fun accepted member => Stmt.Accepted.part accepted member
  stmt_declared := fun _ _ => trivial
  method := fun _ sound found =>
    have ⟨owner, accepted⟩ := Class.sound_of_findIn sound.cls found
    .method _ (.data rfl) owner accepted
  super := fun identity sound grants _ superclass this found =>
    Machine.Grants.super grants sound superclass this found identity
  closure := fun identity grants accepted =>
    .function identity _ (Stmt.Accepted.function accepted) grants
  made := fun accepted _ resolved inherited makes =>
    Class.sound_of_makes accepted resolved inherited makes
  block := fun grants => { grants with this := fun inside => (grants.this inside).newScope }
  calls_function := by
    intro heap identity closure sound
    cases sound with
    | data plain => contradiction
    | function _ cls accepted grants => exact ⟨cls, .ofClosure accepted grants⟩
  calls_method := by
    intro heap identity receiver method sound
    cases sound with
    | data plain => contradiction
    | method _ receives owner accepted => exact ⟨_, .ofMethod receives owner accepted⟩
  calls_initializer := fun sound found =>
    have ⟨owner, accepted⟩ := Class.sound_of_findIn sound.cls found
    ⟨_, .ofMethod (.data rfl) owner accepted⟩
  receiver := fun ⟨_, grants⟩ => grants.receiver
  body := fun ⟨cls, grants⟩ _ _ => ⟨cls, grants.body _, grants.accepted.body⟩

end EventScript
