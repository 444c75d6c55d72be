import EventScript.Proofs.Resolution.Origin
import EventScript.Proofs.Session.Disciplined

/-!
# What all classes have in common

Only class declarations make classes, and evaluation hands them around as they are. So a property
that the classes made by declarations have when their superclasses have it, that ancestors have as
well, and that a class without methods has (`Class.Passed`), is one of all classes that any program
gets hold of, whether or not the program keeps the static rules (`classDiscipline_lawful`).
-/

namespace EventScript

open Run

/-- What is to be shown of a property so that all classes have it. The class declarations that make
them are among what occurs. -/
structure Class.Passed (good : Class → Prop) (occurs : Occasion → Prop) : Prop where
  bare : ∀ (identity : Nat) (name : String) (scope : Nat),
    good { identity, name, methods := {}, scope }
  inherits : ∀ {cls ancestor : Class}, good cls → cls.Inherits ancestor → good ancestor
  made : ∀ {occasion : Occasion} {decls : List FunctionDecl} {cls : Class}, occurs occasion →
    occasion.Makes decls cls → (∀ parent, cls.superclass? = some parent → good parent) → good cls

/-- All classes that the value may be called for have the property. -/
inductive Value.OfClasses (good : Class → Prop) : Value → Prop where
  | data {value : Value} (plain : value.isPlain = true) : OfClasses good value
  | function {closure : Closure} (identity : Nat) (home : ∀ owner ∈ closure.home, good owner) :
      OfClasses good (.function identity closure)
  | method {receiver : Value} {method : Method} (identity : Nat)
      (receives : OfClasses good receiver)
      (owner : good method.owner) : OfClasses good (.method identity receiver method)
  | classObject {cls : Class} (has : good cls) : OfClasses good (.classObject cls)
  | builtin (identity : Nat) (builtin : Builtin) (receiver : Option Value) :
      OfClasses good (.builtin identity builtin receiver)

variable {good : Class → Prop} {occurs : Occasion → Prop}

/-- A class value is of good classes if its class is good. -/
theorem Value.OfClasses.cls {cls : Class} (has : (Value.classObject cls).OfClasses good) :
    good cls := by
  cases has with
  | data plain => contradiction
  | classObject has => exact has

/-- A value of good classes is of classes that are good in a weaker sense. -/
theorem Value.OfClasses.mono {other : Class → Prop} {value : Value} (has : value.OfClasses good)
    (implies : ∀ cls, good cls → other cls) : value.OfClasses other := by
  induction has with
  | data plain => exact .data plain
  | function identity home =>
    exact .function identity fun owner member => implies _ (home owner member)
  | method identity _ owner ih => exact .method identity ih (implies _ owner)
  | classObject has => exact .classObject (implies _ has)
  | builtin identity builtin receiver => exact .builtin identity builtin receiver

/-- The activation is for a class with the property, or for none. -/
structure Activation.OfClasses (good : Class → Prop) (called : Activation) : Prop where
  receiver : ∀ value ∈ called.receiver, value.OfClasses good
  home : ∀ owner ∈ called.home, good owner

/-- Calling a method of a good class on a value of good classes involves good classes only. -/
theorem Activation.OfClasses.ofMethod {receiver : Value} {method : Method}
    (receives : receiver.OfClasses good) (owner : good method.owner) :
    (Activation.ofMethod receiver method).OfClasses good where
  receiver _ member := Option.some.inj member ▸ receives
  home _ member := Option.some.inj member ▸ owner

/-- The class of a method that is found is the class itself or an ancestor. -/
theorem Class.Passed.owner {cls : Class} {name : String} {method : Method}
    (passed : Class.Passed good occurs) (has : good cls)
    (found : cls.findMethod? name = some method) :
    good method.owner :=
  passed.inherits has (Class.nearest_of_findMethod? found).inherits

/-- All classes around have the property. -/
def classDiscipline (good : Class → Prop) (occurs : Occasion → Prop) : Discipline where
  Place := Unit
  holds _ value := value.OfClasses good
  grows _ _ := True
  expr _ _ := True
  stmt _ _ := True
  around _ _ home _ := ∀ owner ∈ home, good owner
  calls _ called := called.OfClasses good
  names _ := True
  occurs := occurs

/-- Evaluation makes no other classes. -/
theorem classDiscipline_lawful (passed : Class.Passed good occurs) :
    (classDiscipline good occurs).Lawful where
  grows_trans _ _ := trivial
  grows_of_keeps _ := trivial
  grows_define _ _ _ _ := trivial
  grows_newScope _ _ := trivial
  grows_start _ _ _ := trivial
  holds_grows has _ := has
  around_grows has _ := has
  calls_grows has _ := has
  plain _ _ plain := .data plain
  global _ _ := .builtin ..
  builtin _ _ _ := .builtin ..
  bareClass _ identity name scope := .classObject (passed.bare identity name scope)
  expr_part _ _ := trivial
  expr_assigned _ _ := trivial
  stmt_expr _ _ := trivial
  stmt_part _ _ := trivial
  stmt_declared _ _ := trivial
  method _ has found := .method _ (.data rfl) (passed.owner (Value.OfClasses.cls has) found)
  super identity good around _ superclass this found := by
    obtain ⟨owner, home, inherits⟩ := Option.bind_eq_some_iff.mp superclass
    have parent := passed.inherits (around owner home) (.onward inherits (.same _))
    exact .method identity (good.heap.lookup? this) (passed.owner parent found)
  closure identity around _ := .function identity around
  made := by
    intro machine later _ span name superclass methods parent value _ ran resolved inherited makes
    obtain ⟨rfl, -⟩ := Outcome.done.inj makes
    refine .classObject (passed.made ran (.intro resolved makes) fun ancestor above => ?_)
    cases parent with
    | none => contradiction
    | some parent =>
      obtain rfl := Option.some.inj above
      exact Value.OfClasses.cls (inherited parent rfl)
  block around := around
  calls_function has := by
    cases has with
    | data plain => contradiction
    | function _ home => exact ⟨nofun, home⟩
  calls_method has := by
    cases has with
    | data plain => contradiction
    | method _ receives owner => exact .ofMethod receives owner
  calls_initializer has found :=
    .ofMethod (.data rfl) (passed.owner (Value.OfClasses.cls has) found)
  receiver has := has.receiver
  body has _ _ := ⟨(), has.home, fun _ _ => trivial⟩

/-- Programs bring no classes along. -/
theorem classDiscipline_allows (program : Program) : (classDiscipline good occurs).Allows program :=
  ⟨(), fun _ _ => nofun, fun _ _ => trivial⟩

end EventScript
