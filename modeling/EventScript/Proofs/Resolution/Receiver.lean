import EventScript.Proofs.Evaluation.Discipline
import EventScript.Proofs.Resolution.Accepted

/-!
# What accepted code finds around it

Whether `this` and `super` have a meaning is checked before a program runs, by the classes around
them in the text. While it runs they go by the scope and the open call. The two agree: code accepted
in a class runs where `this` is seen, and in a class with a superclass the open call belongs to such
a class (`Grants`). This is an invariant of evaluation because every function value carries the
scope and the class that its body was accepted for (`Value.Sound`), wherever it is stored and
whenever it is called. `receiverDiscipline` says so for all kinds of code.
-/

namespace EventScript

/-- The context of the methods of a class with those ancestors. -/
def ClassContext.within : List ClassBody → ClassContext
  | [] => .baseClass
  | _ :: _ => .subclass

/-- Every method of the classes is accepted in the context of its class. -/
def ClassBody.SoundAll : List ClassBody → Prop
  | [] => True
  | body :: ancestors =>
    body.methods.All (fun decl => decl.Accepted (.within ancestors)) ∧ SoundAll ancestors

/-- Every method of the class and of its ancestors is accepted in the context of its class. -/
def Class.Sound (cls : Class) : Prop := ClassBody.SoundAll cls.lineage

/-- A method found is accepted in the context of its class, which is sound. -/
theorem Class.sound_of_findIn {name : String} {lineage : List ClassBody} {method : Method}
    (sound : ClassBody.SoundAll lineage) (found : Class.findIn name lineage = some method) :
    method.owner.Sound ∧ method.decl.Accepted (.within method.owner.ancestors) := by
  induction lineage with
  | nil => contradiction
  | cons body ancestors ih =>
    unfold Class.findIn at found
    split at found
    · rename_i decl declared
      obtain rfl := Option.some.inj found
      exact ⟨sound, sound.1.find? declared⟩
    · exact ih sound.2 found

/-- What code accepted in a class context finds around it: it sees `this` if there is a class, and
is run for a class with a superclass if the context says so. -/
structure Grants (heap : Heap) (cls : ClassContext) (home : Option Class) (scope : Nat) : Prop where
  this : cls ≠ .none → heap.Sees "this" scope
  super : cls = .subclass → ∃ owner, home = some owner ∧ owner.ancestors ≠ []
  home : ∀ owner ∈ home, owner.Sound

/-- What code finds around it stays there. -/
theorem Grants.grows {before after : Heap} {cls : ClassContext} {home : Option Class} {scope : Nat}
    (grants : Grants before cls home scope) (grows : before.Grows after) :
    Grants after cls home scope :=
  { grants with this := fun inside => (grants.this inside).grows grows }

/-- Functions find around them what their bodies were accepted for, and methods belong to sound
classes. -/
inductive Value.Sound (heap : Heap) : Value → Prop where
  | data {value : Value} (plain : value.isPlain = true) : Sound heap value
  | function {closure : Closure} (identity : Nat) (cls : ClassContext)
      (accepted : closure.decl.Accepted cls) (grants : Grants heap cls closure.home closure.scope) :
      Sound heap (.function identity closure)
  | method {receiver : Value} {method : Method} (identity : Nat) (receives : Sound heap receiver)
      (owner : method.owner.Sound)
      (accepted : method.decl.Accepted (.within method.owner.ancestors)) :
      Sound heap (.method identity receiver method)
  | classObject {cls : Class} (sound : cls.Sound) : Sound heap (.classObject cls)
  | builtin (identity : Nat) (builtin : Builtin) (receiver : Option Value) :
      Sound heap (.builtin identity builtin receiver)

/-- Sound values stay sound. -/
theorem Value.Sound.grows {before after : Heap} {value : Value} (sound : value.Sound before)
    (grows : before.Grows after) : value.Sound after := by
  induction sound with
  | data plain => exact .data plain
  | function identity cls accepted grants =>
    exact .function identity cls accepted (grants.grows grows)
  | method identity _ owner accepted ih => exact .method identity ih owner accepted
  | classObject sound => exact .classObject sound
  | builtin identity builtin receiver => exact .builtin identity builtin receiver

/-- A class value is sound if the class is. -/
theorem Value.Sound.cls {heap : Heap} {cls : Class} (sound : (Value.classObject cls).Sound heap) :
    cls.Sound := by
  cases sound with
  | data plain => contradiction
  | classObject sound => exact sound

/-- All values that the machine holds are sound. -/
def Machine.Sound (machine : Machine) : Prop := machine.All (Value.Sound machine.heap)

/-- What code accepted in a class context finds around it, where the machine is. -/
def Machine.Grants (machine : Machine) (cls : ClassContext) : Prop :=
  EventScript.Grants machine.heap cls machine.home machine.scope

/-- An activation finds around the function what its body was accepted for, but for a method the
object is still to be bound. -/
structure Activation.Grants (heap : Heap) (cls : ClassContext) (activation : Activation) :
    Prop where
  accepted : activation.decl.Accepted cls
  receiver : ∀ value ∈ activation.receiver, value.Sound heap
  this : cls ≠ .none → activation.receiver.isSome = true ∨ heap.Sees "this" activation.scope
  super : cls = .subclass → ∃ owner, activation.home = some owner ∧ owner.ancestors ≠ []
  home : ∀ owner ∈ activation.home, owner.Sound

/-- What an activation finds around the function stays there. -/
theorem Activation.Grants.grows {before after : Heap} {cls : ClassContext} {activation : Activation}
    (grants : activation.Grants before cls) (grows : before.Grows after) :
    activation.Grants after cls :=
  { grants with
    receiver := fun value member => (grants.receiver value member).grows grows
    this := fun inside => (grants.this inside).imp_right fun sees => sees.grows grows }

/-- All values are sound, and code runs only where it finds around it what it was accepted for. -/
def receiverDiscipline : Discipline where
  Place := ClassContext
  holds := Value.Sound
  grows := Heap.Grows
  expr cls form := form.Accepted cls
  stmt cls form := form.Accepted cls
  around cls heap home scope := Grants heap cls home scope
  calls heap called := ∃ cls, called.Grants heap cls
  names _ := True
  occurs _ := True

end EventScript
