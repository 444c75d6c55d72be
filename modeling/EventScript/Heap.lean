import EventScript.Number.Exact
import EventScript.Store
import EventScript.Value

/-!
# The heap

Everything that can change while a program runs: the contents of strings, lists, maps and
instances, and the scopes with their variables. Values refer to it by number. The heap also
decides what needs the contents: when two values are equal (`Heap.equal`) and under which key a
value is filed in a map (`Heap.keyOf`).

A variable is looked up along the chain of enclosing scopes. `Heap.binder?` finds the nearest
scope that binds the name; reading and assigning both go by it.
-/

namespace EventScript

/-- The sorts of value that are told apart by identity. -/
inductive IdentityKind where
  | list | map | object | immutable
deriving DecidableEq, Inhabited

/-- What tells a value apart from all others that are not the very same. -/
structure Identity where
  kind : IdentityKind
  number : Nat
deriving DecidableEq, Inhabited

/-- What values are filed under in maps: the content of scalars and strings, the identity of others.
All NaNs share a key, and so do the two zeros. -/
inductive MapKey where
  | nil
  | bool (value : Bool)
  | number (bits : UInt64)
  | string (content : String)
  | identity (identity : Identity)
deriving DecidableEq, Inhabited

/-- The content of a map: under each key the value that was given as key, and the value set for
it. -/
abbrev MapContent := OrderedMap MapKey (Value × Value)

/-- The content of an instance. -/
structure Instance where
  cls : Class
  fields : OrderedMap String Value := {}

instance : Inhabited Instance := ⟨⟨default, {}⟩⟩

/-- The variables of one scope, and the scope around it. -/
structure Scope where
  parent : Option Nat := none
  bindings : OrderedMap String Value := {}

instance : Inhabited Scope := ⟨{}⟩

/-- The contents of all objects and scopes. -/
structure Heap where
  strings : Store String := {}
  lists : Store (Array Value) := {}
  maps : Store MapContent := {}
  instances : Store Instance := {}
  scopes : Store Scope := {}
  /-- The identity number for the next function, method, class or built-in function. -/
  nextIdentity : Nat := 0

instance : Inhabited Heap := ⟨{}⟩

/-- The bits of a number, with one pattern for NaN and one for zero. -/
def keyBits (x : Float) : UInt64 :=
  if x.isNaN then 0x7FF8000000000000 else if x == 0 then 0 else x.toBits

/-- The identity of a value that is told apart by identity. -/
def Value.identity? : Value → Option Identity
  | .list ref => some ⟨.list, ref⟩
  | .map ref => some ⟨.map, ref⟩
  | .object ref => some ⟨.object, ref⟩
  | .function identity _ => some ⟨.immutable, identity⟩
  | .method identity _ _ => some ⟨.immutable, identity⟩
  | .classObject cls => some ⟨.immutable, cls.identity⟩
  | .builtin identity _ _ => some ⟨.immutable, identity⟩
  | _ => none

namespace Heap

/-- The content of a string. -/
def text (heap : Heap) (ref : Nat) : String := (heap.strings.get? ref).getD ""

/-- The elements of a list. -/
def items (heap : Heap) (ref : Nat) : Array Value := (heap.lists.get? ref).getD #[]

/-- The last element of a list, if it has any. -/
def lastItem? (heap : Heap) (ref : Nat) : Option Value := (heap.items ref).back?

/-- The content of a map. -/
def content (heap : Heap) (ref : Nat) : MapContent := (heap.maps.get? ref).getD {}

/-- The content of an instance. -/
def object (heap : Heap) (ref : Nat) : Instance := (heap.instances.get? ref).getD default

/-- A new string. -/
def newString (heap : Heap) (content : String) : Value × Heap :=
  let (ref, strings) := heap.strings.alloc content
  (.string ref, { heap with strings })

/-- A new list. -/
def newList (heap : Heap) (items : Array Value) : Value × Heap :=
  let (ref, lists) := heap.lists.alloc items
  (.list ref, { heap with lists })

/-- A new map. -/
def newMap (heap : Heap) (content : MapContent) : Value × Heap :=
  let (ref, maps) := heap.maps.alloc content
  (.map ref, { heap with maps })

/-- A new instance, without fields. -/
def newInstance (heap : Heap) (cls : Class) : Value × Heap :=
  let (ref, instances) := heap.instances.alloc { cls }
  (.object ref, { heap with instances })

/-- A new scope inside `parent`. -/
def newScope (heap : Heap) (parent : Option Nat) : Nat × Heap :=
  let (ref, scopes) := heap.scopes.alloc { parent }
  (ref, { heap with scopes })

/-- A number that tells a new immutable value apart. -/
def newIdentity (heap : Heap) : Nat × Heap :=
  (heap.nextIdentity, { heap with nextIdentity := heap.nextIdentity + 1 })

/-- A new function value. -/
def newFunction (heap : Heap) (closure : Closure) : Value × Heap :=
  let (identity, heap) := heap.newIdentity
  (.function identity closure, heap)

/-- A new method value. -/
def newMethod (heap : Heap) (receiver : Value) (method : Method) : Value × Heap :=
  let (identity, heap) := heap.newIdentity
  (.method identity receiver method, heap)

/-- A new value for a built-in function. -/
def newBuiltin (heap : Heap) (builtin : Builtin) (receiver : Option Value) : Value × Heap :=
  let (identity, heap) := heap.newIdentity
  (.builtin identity builtin receiver, heap)

/-- Replaces the content of a string. -/
def setText (heap : Heap) (ref : Nat) (content : String) : Heap :=
  { heap with strings := heap.strings.set ref content }

/-- Changes the elements of a list. -/
def modifyItems (heap : Heap) (ref : Nat) (change : Array Value → Array Value) : Heap :=
  { heap with lists := heap.lists.modify ref change }

/-- Changes the content of a map. -/
def modifyContent (heap : Heap) (ref : Nat) (change : MapContent → MapContent) : Heap :=
  { heap with maps := heap.maps.modify ref change }

/-- Stores a field of an instance. -/
def setField (heap : Heap) (ref : Nat) (name : String) (value : Value) : Heap :=
  { heap with
    instances := heap.instances.modify ref fun object =>
      { object with fields := object.fields.insert name value } }

/-- Whether two values are equal: scalars and strings by content, others only with themselves. -/
def equal (heap : Heap) (left right : Value) : Bool :=
  match left, right with
  | .nil, .nil => true
  | .bool a, .bool b => a == b
  | .number a, .number b => a == b
  | .string a, .string b => heap.text a == heap.text b
  | _, _ =>
    match left.identity?, right.identity? with
    | some a, some b => a == b
    | _, _ => false

/-- The key under which a value is filed in a map. -/
def keyOf (heap : Heap) (value : Value) : MapKey :=
  match value with
  | .nil => .nil
  | .bool b => .bool b
  | .number x => .number (keyBits x)
  | .string ref => .string (heap.text ref)
  | other => .identity (other.identity?.getD default)

/-- A map with the given keys and values set one after the other. -/
def contentOf (heap : Heap) (pairs : List (Value × Value)) : MapContent :=
  OrderedMap.ofList (pairs.map fun pair => (heap.keyOf pair.1, pair))

/-! ## Scopes -/

/-- Whether a scope itself binds the name. -/
def binds (heap : Heap) (scope : Nat) (name : String) : Bool :=
  match heap.scopes.get? scope with
  | some scope => scope.bindings.contains name
  | none => false

/-- The scope around a scope. -/
def parent? (heap : Heap) (scope : Nat) : Option Nat :=
  (heap.scopes.get? scope).bind Scope.parent

/-- The nearest scope that binds the name, at most `bound` scopes outward. -/
def binderWithin? (heap : Heap) (name : String) : Nat → Nat → Option Nat
  | 0, _ => none
  | bound + 1, scope =>
    match heap.scopes.get? scope with
    | none => none
    | some content =>
      if content.bindings.contains name then some scope
      else match content.parent with
        | none => none
        | some parent => binderWithin? heap name bound parent

/-- The nearest scope, from `scope` outward, that binds the name. Scopes are created after the
scopes around them, so there are at most `scope` others on the way. -/
def binder? (heap : Heap) (scope : Nat) (name : String) : Option Nat :=
  heap.binderWithin? name (scope + 1) scope

/-- The value of a variable as seen from a scope. -/
def lookup? (heap : Heap) (scope : Nat) (name : String) : Option Value :=
  match heap.binder? scope name with
  | none => none
  | some binder => (heap.scopes.get? binder).bind fun content => content.bindings.find? name

/-- Binds a name in a scope, in place of a binding it has there. -/
def define (heap : Heap) (scope : Nat) (name : String) (value : Value) : Heap :=
  { heap with
    scopes := heap.scopes.modify scope fun content =>
      { content with bindings := content.bindings.insert name value } }

/-- Rebinds a variable as seen from a scope, if it is bound at all. -/
def assign? (heap : Heap) (scope : Nat) (name : String) (value : Value) : Option Heap :=
  (heap.binder? scope name).map fun binder => heap.define binder name value

end Heap

end EventScript
