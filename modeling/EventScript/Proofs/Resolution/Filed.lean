import EventScript.Proofs.Resolution.Classes

/-!
# Methods under their own names

A class files its methods under the names they are declared with, so what is found under a name in
the class or in an ancestor has that name (`Class.Filed.findMethod?`). All classes have this in
common (`Class.filed_passed`), so it holds of those that a program gets hold of, whether or not it
keeps the static rules (`Machine.Filed.run`).
-/

namespace EventScript

open Run

/-- The entry found under a key is one of the map. -/
theorem OrderedMap.mem_of_find? {κ α : Type} [DecidableEq κ] {map : OrderedMap κ α} {key : κ}
    {value : α} (found : map.find? key = some value) : (key, value) ∈ map.entries := by
  have search : ∀ entries : List (κ × α), findIn key entries = some value →
      (key, value) ∈ entries := by
    intro entries
    induction entries with
    | nil => exact nofun
    | cons entry rest ih =>
      intro found
      unfold findIn at found
      split at found
      · rename_i here
        obtain rfl := Option.some.inj found
        exact here ▸ List.mem_cons_self
      · exact List.mem_cons_of_mem _ (ih found)
  exact search map.entries found

namespace Class

/-- Methods are filed under their own names, in the class and in its ancestors. -/
def Filed (cls : Class) : Prop :=
  ∀ body ∈ cls.lineage, ∀ entry ∈ body.methods.entries, entry.2.name = entry.1

variable {cls parent : Class} {name : String} {method : Method}

/-- The method found under a name has that name, and its class files methods so too. -/
theorem Filed.findMethod? (filed : cls.Filed) (found : cls.findMethod? name = some method) :
    method.owner.Filed ∧ method.decl.name = name := by
  have search : ∀ lineage : List ClassBody,
      (∀ body ∈ lineage, ∀ entry ∈ body.methods.entries, entry.2.name = entry.1) →
      findIn name lineage = some method → method.owner.Filed ∧ method.decl.name = name := by
    intro lineage
    induction lineage with
    | nil => exact fun _ none => nomatch none
    | cons body ancestors ih =>
      intro filed found
      unfold findIn at found
      split at found
      · rename_i decl declared
        obtain rfl := Option.some.inj found
        have inBody := filed body List.mem_cons_self
        exact ⟨filed, inBody _ (OrderedMap.mem_of_find? declared)⟩
      · exact ih (fun other member => filed other (List.mem_cons_of_mem _ member)) found
  exact search cls.lineage filed found

/-- The superclass files methods so too. -/
theorem Filed.superclass (filed : cls.Filed) (superclass : cls.superclass? = some parent) :
    parent.Filed := by
  intro body member
  rw [← ancestors_of_superclass? superclass] at member
  exact filed body (List.mem_cons_of_mem _ member)

/-- All classes file their methods under their own names. -/
theorem filed_passed (occurs : Occasion → Prop) : Class.Passed Class.Filed occurs where
  bare _ _ _ := List.forall_mem_singleton.mpr (List.forall_mem_nil _)
  inherits filed inherits := by
    induction inherits with
    | same => exact filed
    | onward superclass _ ih => exact ih (filed.superclass superclass)
  made := by
    intro occasion decls cls _ makes inherited
    cases makes with
    | @intro _ _ _ _ _ _ superclass _ _ made =>
      obtain rfl := Value.classObject.inj (Outcome.done.inj made).1
      refine List.forall_mem_cons.mpr ⟨OrderedMap.forall_ofList ?_, ?_⟩
      · intro entry member
        obtain ⟨decl, -, rfl⟩ := List.mem_map.mp member
        rfl
      · cases superclass with
        | none => exact List.forall_mem_nil _
        | some ancestor => exact inherited ancestor rfl

end Class

/-- All classes that the value may be called for file methods under their own names. -/
inductive Value.Filed : Value → Prop where
  | data {value : Value} (plain : value.isPlain = true) : Filed value
  | function {closure : Closure} (identity : Nat) (home : ∀ owner ∈ closure.home, owner.Filed) :
      Filed (.function identity closure)
  | method {receiver : Value} {method : Method} (identity : Nat) (receives : Filed receiver)
      (owner : method.owner.Filed) : Filed (.method identity receiver method)
  | classObject {cls : Class} (filed : cls.Filed) : Filed (.classObject cls)
  | builtin (identity : Nat) (builtin : Builtin) (receiver : Option Value) :
      Filed (.builtin identity builtin receiver)

/-- A class value files methods under their own names if its class does. -/
theorem Value.Filed.cls {cls : Class} (filed : (Value.classObject cls).Filed) : cls.Filed := by
  cases filed with
  | data plain => contradiction
  | classObject filed => exact filed

/-- Only the classes of the value matter. -/
theorem Value.filed_iff {value : Value} : value.Filed ↔ value.OfClasses Class.Filed := by
  constructor
  · intro filed
    induction filed with
    | data plain => exact .data plain
    | function identity home => exact .function identity home
    | method identity _ owner ih => exact .method identity ih owner
    | classObject filed => exact .classObject filed
    | builtin identity builtin receiver => exact .builtin identity builtin receiver
  · intro has
    induction has with
    | data plain => exact .data plain
    | function identity home => exact .function identity home
    | method identity _ owner ih => exact .method identity ih owner
    | classObject has => exact .classObject has
    | builtin identity builtin receiver => exact .builtin identity builtin receiver

/-- The activation is for a class that files methods under their own names, or for none. -/
structure Activation.Filed (called : Activation) : Prop where
  receiver : ∀ value ∈ called.receiver, value.Filed
  home : ∀ owner ∈ called.home, owner.Filed

/-- All classes around file methods under their own names. -/
def filedDiscipline : Discipline where
  Place := Unit
  holds _ value := value.Filed
  grows _ _ := True
  expr _ _ := True
  stmt _ _ := True
  around _ _ home _ := ∀ owner ∈ home, owner.Filed
  calls _ called := called.Filed
  names _ := True
  occurs _ := True

/-- Nothing else is in order than what all classes have in common. -/
theorem filedDiscipline_eq : filedDiscipline = classDiscipline Class.Filed fun _ => True := by
  have values : Value.Filed = Value.OfClasses Class.Filed :=
    funext fun _ => propext Value.filed_iff
  have calls : Activation.Filed = Activation.OfClasses Class.Filed := by
    funext called
    refine propext ⟨fun filed => ⟨?_, filed.home⟩, fun has => ⟨?_, has.home⟩⟩
    · exact fun value member => Value.filed_iff.mp (filed.receiver value member)
    · exact fun value member => Value.filed_iff.mpr (has.receiver value member)
  unfold filedDiscipline classDiscipline
  rw [values, calls]

/-- Evaluation makes no other classes. -/
theorem filedDiscipline_lawful : filedDiscipline.Lawful :=
  filedDiscipline_eq ▸ classDiscipline_lawful (Class.filed_passed _)

/-- All classes that the code on the machine can get hold of file methods under their own names. -/
structure Machine.Filed (machine : Machine) : Prop where
  all : machine.All Value.Filed
  home : ∀ owner ∈ machine.home, owner.Filed

namespace Machine.Filed

variable {machine later : Machine}

/-- A machine that has run nothing has no classes yet. -/
theorem new (settings : Settings) (sink : Sink) (console : Console) (clock : WallClock) :
    (Machine.new settings sink console clock).Filed where
  all := filedDiscipline_lawful.good_new settings sink console clock
  home := nofun

/-- The class of an instance does so. What is no instance is of no class with methods. -/
theorem object (filed : machine.Filed) (ref : Nat) : (machine.heap.object ref).cls.Filed := by
  unfold Heap.object
  cases stored : machine.heap.instances.get? ref with
  | none => exact List.forall_mem_singleton.mpr (List.forall_mem_nil _)
  | some object => exact (filed.all.heap.instances ref object stored).1.cls

/-- An expression that gives a value changes nothing about this. -/
theorem run {bound : Nat} {form : Expr} {value : Value} (filed : machine.Filed)
    (ran : (Code.expr form).run bound machine = .done value later) : later.Filed ∧ value.Filed := by
  have before : filedDiscipline.contract.before (.expr form) machine :=
    ⟨filed.all, (), filed.home, trivial⟩
  have keeps : filedDiscipline.Keeps machine ((Code.expr form).run bound machine) :=
    filedDiscipline_lawful.keeps (fun _ _ => trivial) before
  rw [ran] at keeps
  obtain ⟨good, evolves, isFiled⟩ := keeps
  refine ⟨⟨good, ?_⟩, isFiled⟩
  unfold Machine.home
  rw [evolves.frames]
  exact filed.home

end Machine.Filed

/-- Programs bring no classes along. -/
theorem filedDiscipline_admits : filedDiscipline.Admits :=
  fun _ _ _ => ⟨(), fun _ _ => nofun, fun _ _ => trivial⟩

/-- All expressions that a session comes to find only such classes. -/
theorem Session.Runs.filed {session : Session} {form : Expr} {machine : Machine}
    (reached : session.Reachable) (runs : session.Runs (.expr form) machine) : machine.Filed := by
  obtain ⟨past, recorded⟩ := reached.recorded
  obtain ⟨episode, running, member⟩ := runs.episode
  have good := recorded.good filedDiscipline_lawful filedDiscipline_admits fun _ _ => trivial
  obtain ⟨all, _, home, -⟩ := running.fits filedDiscipline_lawful filedDiscipline_admits good
    (fun _ _ => trivial) _ member
  exact ⟨all, home⟩

end EventScript
