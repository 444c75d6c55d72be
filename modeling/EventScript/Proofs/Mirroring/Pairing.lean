import Mathlib.Data.List.Forall2
import EventScript.Builtin.Call

/-!
# Values that stand for each other

Scopes are known by numbers that no program sees, so two runs may do the same on heaps that number
their scopes differently, and on which some scopes are there for nothing. A `Pairing` says which
scopes of two heaps stand for each other and which are blank. Values mirror each other
(`Value.Mirrors`) when they are the same up to paired scopes. What a program can tell of a value
without the heap is the same for values that mirror each other, and values go on mirroring each
other when the pairing grows.
-/

namespace Option.Rel

variable {α β γ δ : Type} {same : α → β → Prop} {other : γ → δ → Prop}
variable {first : Option α} {second : Option β}

/-- There is something on both sides or on none. -/
theorem cases (related : Option.Rel same first second) :
    first = Option.none ∧ second = Option.none ∨
      ∃ a b, first = Option.some a ∧ second = Option.some b ∧ same a b := by
  cases related with
  | none => exact .inl ⟨rfl, rfl⟩
  | some related => exact .inr ⟨_, _, rfl, rfl, related⟩

/-- What is related to something is something. -/
theorem exists_of_some {a : α} (related : Option.Rel same (Option.some a) second) :
    ∃ b, second = Option.some b ∧ same a b := by
  cases related with
  | some related => exact ⟨_, rfl, related⟩

/-- What is related to itself is related to itself as an option. -/
theorem of_forall {same : α → α → Prop} {option : Option α} (holds : ∀ a ∈ option, same a a) :
    Option.Rel same option option := by
  cases option with
  | none => exact .none
  | some a => exact .some (holds a rfl)

/-- Options that are related are related in a weaker way. -/
theorem imp {other : α → β → Prop} (related : Option.Rel same first second)
    (implies : ∀ a b, same a b → other a b) : Option.Rel other first second := by
  cases related with
  | none => exact .none
  | some related => exact .some (implies _ _ related)

/-- There is something on the second side if there is on the first. -/
theorem isSome_eq (related : Option.Rel same first second) : second.isSome = first.isSome := by
  cases related <;> rfl

/-- Related options with related defaults give what is related. -/
theorem getD (related : Option.Rel same first second) {a : α} {b : β} (defaults : same a b) :
    same (first.getD a) (second.getD b) := by
  cases related with
  | none => exact defaults
  | some related => exact related

/-- Related options that are changed alike stay related. -/
theorem map (related : Option.Rel same first second) {change : α → γ} {change' : β → δ}
    (changes : ∀ a b, same a b → other (change a) (change' b)) :
    Option.Rel other (first.map change) (second.map change') := by
  cases related with
  | none => exact .none
  | some related => exact .some (changes _ _ related)

end Option.Rel

/-- What holds of all that is related to something holds of all members of a related list. -/
theorem List.Forall₂.forall_left {α β : Type} {same : α → β → Prop} {good : α → Prop}
    {items : List α}
    {items' : List β} (all : List.Forall₂ same items items') (implies : ∀ a b, same a b → good a) :
    ∀ a ∈ items, good a :=
  ((List.forall₂_and_left _ _).mp (all.imp fun a b related => ⟨implies a b related, related⟩)).1

namespace EventScript

/-- Which scopes of two heaps stand for each other. Blank scopes stand for none, and never bind a
name. -/
structure Pairing where
  paired : Nat → Nat → Prop
  /-- A blank scope of the first heap, and the scope around it. -/
  blank : Nat → Nat → Prop
  /-- A blank scope of the second heap, and the scope around it. -/
  blank' : Nat → Nat → Prop

namespace Pairing

/-- All that is paired or blank stays so. -/
structure Grows (before after : Pairing) : Prop where
  paired : ∀ {scope scope' : Nat}, before.paired scope scope' → after.paired scope scope'
  blank : ∀ {scope around : Nat}, before.blank scope around → after.blank scope around
  blank' : ∀ {scope around : Nat}, before.blank' scope around → after.blank' scope around

/-- A pairing that nothing is added to has grown by nothing. -/
theorem Grows.refl (pairing : Pairing) : pairing.Grows pairing := ⟨id, id, id⟩

/-- A pairing that grows twice has grown. -/
theorem Grows.trans {first second third : Pairing} (left : first.Grows second)
    (right : second.Grows third) : first.Grows third where
  paired paired := right.paired (left.paired paired)
  blank blank := right.blank (left.blank blank)
  blank' blank := right.blank' (left.blank' blank)

/-- Going outward through blank scopes one comes to paired ones. -/
inductive Meets (pairing : Pairing) : Nat → Nat → Prop where
  | paired {scope scope' : Nat} (paired : pairing.paired scope scope') : Meets pairing scope scope'
  | left {scope around scope' : Nat} (blank : pairing.blank scope around)
      (meets : Meets pairing around scope') : Meets pairing scope scope'
  | right {scope scope' around : Nat} (blank : pairing.blank' scope' around)
      (meets : Meets pairing scope around) : Meets pairing scope scope'

/-- Scopes go on meeting when the pairing grows. -/
theorem Meets.grows {pairing later : Pairing} {scope scope' : Nat}
    (meets : pairing.Meets scope scope')
    (grows : pairing.Grows later) : later.Meets scope scope' := by
  induction meets with
  | paired paired => exact .paired (grows.paired paired)
  | left blank _ ih => exact .left (grows.blank blank) ih
  | right blank _ ih => exact .right (grows.blank' blank) ih

end Pairing

/-- The classes are one but for the scope in which it was declared. -/
structure ClassBody.Mirrors (pairing : Pairing) (body body' : ClassBody) : Prop where
  identity : body'.identity = body.identity
  name : body'.name = body.name
  methods : body'.methods = body.methods
  scope : pairing.paired body.scope body'.scope

/-- The classes and their ancestors mirror each other. -/
structure Class.Mirrors (pairing : Pairing) (cls cls' : Class) : Prop where
  body : cls.toClassBody.Mirrors pairing cls'.toClassBody
  ancestors : List.Forall₂ (ClassBody.Mirrors pairing) cls.ancestors cls'.ancestors

/-- The closures are of one declaration, over paired scopes. -/
structure Closure.Mirrors (pairing : Pairing) (closure closure' : Closure) : Prop where
  decl : closure'.decl = closure.decl
  scope : pairing.paired closure.scope closure'.scope
  home : Option.Rel (Class.Mirrors pairing) closure.home closure'.home

/-- The methods are of one declaration, in classes that mirror each other. -/
structure Method.Mirrors (pairing : Pairing) (method method' : Method) : Prop where
  owner : method.owner.Mirrors pairing method'.owner
  decl : method'.decl = method.decl

/-- The values are the same up to paired scopes. -/
inductive Value.Mirrors (pairing : Pairing) : Value → Value → Prop where
  | nil : Mirrors pairing .nil .nil
  | bool (value : Bool) : Mirrors pairing (.bool value) (.bool value)
  | number (value : Float) : Mirrors pairing (.number value) (.number value)
  | string (ref : Nat) : Mirrors pairing (.string ref) (.string ref)
  | list (ref : Nat) : Mirrors pairing (.list ref) (.list ref)
  | map (ref : Nat) : Mirrors pairing (.map ref) (.map ref)
  | object (ref : Nat) : Mirrors pairing (.object ref) (.object ref)
  | function (identity : Nat) {closure closure' : Closure}
      (closures : closure.Mirrors pairing closure') :
      Mirrors pairing (.function identity closure) (.function identity closure')
  | method (identity : Nat) {receiver receiver' : Value} {method method' : Method}
      (receivers : Mirrors pairing receiver receiver') (methods : method.Mirrors pairing method') :
      Mirrors pairing (.method identity receiver method) (.method identity receiver' method')
  | classObject {cls cls' : Class} (classes : cls.Mirrors pairing cls') :
      Mirrors pairing (.classObject cls) (.classObject cls')
  | builtin (identity : Nat) (called : Builtin) :
      Mirrors pairing (.builtin identity called none) (.builtin identity called none)
  | builtinMethod (identity : Nat) (called : Builtin) {receiver receiver' : Value}
      (receivers : Mirrors pairing receiver receiver') :
      Mirrors pairing (.builtin identity called (some receiver))
        (.builtin identity called (some receiver'))

/-- The open calls are of methods of classes that mirror each other. -/
def Frame.Mirrors (pairing : Pairing) (frame frame' : Frame) : Prop :=
  Option.Rel (Class.Mirrors pairing) frame.home frame'.home

section Grows

variable {pairing later : Pairing} (grown : pairing.Grows later)
include grown

/-- Bodies of classes go on mirroring each other when the pairing grows. -/
theorem ClassBody.Mirrors.grows {body body' : ClassBody} (mirrors : body.Mirrors pairing body') :
    body.Mirrors later body' := { mirrors with scope := grown.paired mirrors.scope }

/-- Classes go on mirroring each other when the pairing grows. -/
theorem Class.Mirrors.grows {cls cls' : Class} (mirrors : cls.Mirrors pairing cls') :
    cls.Mirrors later cls' :=
  ⟨mirrors.body.grows grown, mirrors.ancestors.imp fun _ _ body => body.grows grown⟩

/-- Closures go on mirroring each other when the pairing grows. -/
theorem Closure.Mirrors.grows {closure closure' : Closure}
    (mirrors : closure.Mirrors pairing closure') :
    closure.Mirrors later closure' :=
  ⟨mirrors.decl, grown.paired mirrors.scope, mirrors.home.imp fun _ _ cls => cls.grows grown⟩

/-- Methods go on mirroring each other when the pairing grows. -/
theorem Method.Mirrors.grows {method method' : Method} (mirrors : method.Mirrors pairing method') :
    method.Mirrors later method' := ⟨mirrors.owner.grows grown, mirrors.decl⟩

/-- Values go on mirroring each other when the pairing grows. -/
theorem Value.Mirrors.grows {value value' : Value} (mirrors : value.Mirrors pairing value') :
    value.Mirrors later value' := by
  induction mirrors with
  | nil => exact .nil
  | bool value => exact .bool value
  | number value => exact .number value
  | string ref => exact .string ref
  | list ref => exact .list ref
  | map ref => exact .map ref
  | object ref => exact .object ref
  | function identity closures => exact .function identity (closures.grows grown)
  | method identity _ methods ih => exact .method identity ih (methods.grows grown)
  | classObject classes => exact .classObject (classes.grows grown)
  | builtin identity called => exact .builtin identity called
  | builtinMethod identity called _ ih => exact .builtinMethod identity called ih

/-- Open calls go on mirroring each other when the pairing grows. -/
theorem Frame.Mirrors.grows {frame frame' : Frame} (mirrors : frame.Mirrors pairing frame') :
    frame.Mirrors later frame' := Option.Rel.imp mirrors fun _ _ cls => cls.grows grown

end Grows

namespace Class

variable {pairing : Pairing} {cls cls' : Class}

/-- The ancestors of classes that mirror each other do so one by one. -/
theorem Mirrors.lineage (mirrors : cls.Mirrors pairing cls') :
    List.Forall₂ (ClassBody.Mirrors pairing) cls.lineage cls'.lineage :=
  .cons mirrors.body mirrors.ancestors

/-- The superclasses of classes that mirror each other do so too. -/
theorem Mirrors.superclass? (mirrors : cls.Mirrors pairing cls') :
    Option.Rel (Class.Mirrors pairing) cls.superclass? cls'.superclass? := by
  obtain ⟨_, ancestors⟩ := cls
  obtain ⟨_, ancestors'⟩ := cls'
  cases mirrors.ancestors with
  | nil => exact .none
  | cons parent rest => exact .some ⟨parent, rest⟩

/-- The search for a method finds the same declaration in classes that mirror each other. -/
theorem Mirrors.findMethod? (mirrors : cls.Mirrors pairing cls') (name : String) :
    Option.Rel (Method.Mirrors pairing) (cls.findMethod? name) (cls'.findMethod? name) := by
  have search : ∀ {bodies bodies' : List ClassBody},
      List.Forall₂ (ClassBody.Mirrors pairing) bodies bodies' →
      Option.Rel (Method.Mirrors pairing) (findIn name bodies) (findIn name bodies') := by
    intro bodies bodies' all
    induction all with
    | nil => exact .none
    | cons body rest ih =>
      unfold findIn
      rw [body.methods]
      split
      · exact .some ⟨⟨body, rest⟩, rfl⟩
      · exact ih
  exact search mirrors.lineage

/-- Classes that mirror each other take as many arguments. -/
theorem Mirrors.arity (mirrors : cls.Mirrors pairing cls') : cls'.arity = cls.arity := by
  unfold Class.arity
  rcases (mirrors.findMethod? FunctionDecl.initializerName).cases with
    ⟨first, second⟩ | ⟨method, method', first, second, methods⟩
  · rw [first, second]
  · rw [first, second]
    exact congrArg (fun decl => decl.parameters.length) methods.decl

end Class

namespace Value.Mirrors

variable {pairing : Pairing} {value value' : Value} (mirrors : value.Mirrors pairing value')
include mirrors

/-- Both values are `nil` or neither is. -/
theorem isNil : value'.isNil = value.isNil := by cases mirrors <;> rfl

/-- Both values count as true or neither does. -/
theorem isTruthy : value'.isTruthy = value.isTruthy := by cases mirrors <;> rfl

/-- Both values can be called or neither can. -/
theorem isCallable : value'.isCallable = value.isCallable := by cases mirrors <;> rfl

/-- Both values are the same number or neither is one. -/
theorem number? : value'.number? = value.number? := by cases mirrors <;> rfl

/-- Both values are of the same type. -/
theorem typeName : value'.typeName = value.typeName := by cases mirrors <;> rfl

/-- Both values have the same built-in methods. -/
theorem builtinMethod? (name : String) :
    value'.builtinMethod? name = value.builtinMethod? name := by
  cases mirrors <;> rfl

/-- Both values are told apart by the same identity, if by any. -/
theorem identity? : value'.identity? = value.identity? := by
  cases mirrors with
  | classObject classes =>
    exact congrArg (fun number => some (Identity.mk .immutable number)) classes.body.identity
  | _ => rfl

end Value.Mirrors

end EventScript
