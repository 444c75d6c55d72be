import EventScript.Builtin
import EventScript.OrderedMap
import EventScript.Syntax

/-!
# Values

What variables hold. Scalars carry their content; strings, lists, maps and instances are
references to contents that may change; functions, methods, classes and built-in functions never
change and carry an identity number that tells them apart. A class knows its ancestors, so looking
up a method is a search in a finite list (`Class.findMethod?`).
-/

namespace EventScript

/-- One class declaration that was executed, by itself. -/
structure ClassBody where
  /-- Tells the class apart from all others, also those of the same declaration. -/
  identity : Nat
  name : String
  methods : OrderedMap String FunctionDecl
  /-- The scope in which the class was declared, around all its methods. -/
  scope : Nat

instance : Inhabited ClassBody := ⟨⟨0, "", {}, 0⟩⟩

/-- A class with its ancestors, the nearest first. -/
structure Class extends ClassBody where
  ancestors : List ClassBody := []

instance : Inhabited Class := ⟨{ (default : ClassBody) with ancestors := [] }⟩

/-- A method with the class whose declaration holds it. -/
structure Method where
  owner : Class
  decl : FunctionDecl

namespace Class

/-- The class that this one inherits from. -/
def superclass? (cls : Class) : Option Class :=
  match cls.ancestors with
  | [] => none
  | parent :: rest => some { parent with ancestors := rest }

/-- The class and its ancestors. -/
def lineage (cls : Class) : List ClassBody := cls.toClassBody :: cls.ancestors

/-- The method of the first class in a list that declares one of that name. -/
def findIn (name : String) : List ClassBody → Option Method
  | [] => none
  | body :: rest =>
    match body.methods.find? name with
    | some decl => some ⟨{ body with ancestors := rest }, decl⟩
    | none => findIn name rest

/-- The method that the class itself declares or else inherits from the nearest ancestor. -/
def findMethod? (cls : Class) (name : String) : Option Method := findIn name cls.lineage

/-- How many arguments the class takes when called: those of its initializer, if it has one. -/
def arity (cls : Class) : Nat :=
  match cls.findMethod? FunctionDecl.initializerName with
  | some method => method.decl.parameters.length
  | none => 0

/-- A method is declared by the class or inherited from its superclass. -/
theorem findMethod?_eq (cls : Class) (name : String) :
    cls.findMethod? name =
      match cls.methods.find? name with
      | some decl => some ⟨cls, decl⟩
      | none => cls.superclass?.bind fun parent => parent.findMethod? name := by
  obtain ⟨body, ancestors⟩ := cls
  unfold findMethod? lineage findIn superclass?
  cases body.methods.find? name with
  | some decl => rfl
  | none => cases ancestors <;> rfl

end Class

/-- A declaration closed over the scope in which it was executed. -/
structure Closure where
  decl : FunctionDecl
  scope : Nat
  /-- The class whose method was running, for `super` in the body. A reference that does not keep
  the class alive would do: `scope` leads to the object that the method ran on, the object keeps
  its class, and each class keeps the one it inherits from. -/
  home : Option Class

/-- Values. -/
inductive Value where
  | nil
  | bool (value : Bool)
  | number (value : Float)
  | string (ref : Nat)
  | list (ref : Nat)
  | map (ref : Nat)
  | object (ref : Nat)
  | function (identity : Nat) (closure : Closure)
  /-- A method together with the object it was looked up on. -/
  | method (identity : Nat) (receiver : Value) (method : Method)
  | classObject (cls : Class)
  /-- A built-in function, with the object whose method it is. -/
  | builtin (identity : Nat) (builtin : Builtin) (receiver : Option Value)

instance : Inhabited Value := ⟨.nil⟩

namespace Value

/-- Whether the value is `nil`. -/
def isNil : Value → Bool
  | nil => true
  | _ => false

/-- Whether the value counts as true: all but `nil` and `false` do. -/
def isTruthy : Value → Bool
  | nil => false
  | bool value => value
  | _ => true

/-- Whether the value can be called. -/
def isCallable : Value → Bool
  | function .. | method .. | .classObject _ | builtin .. => true
  | _ => false

/-- The number that the value is. -/
def number? : Value → Option Float
  | number value => some value
  | _ => none

/-- The name of the type of the value. -/
def typeName : Value → String
  | nil => "nil"
  | bool _ => "boolean"
  | number _ => "number"
  | string _ => "string"
  | list _ => "list"
  | map _ => "map"
  | function .. => "function"
  | method .. => "function"
  | .classObject _ => "class"
  | .object _ => "instance"
  | builtin .. => "native function"

end Value

end EventScript
