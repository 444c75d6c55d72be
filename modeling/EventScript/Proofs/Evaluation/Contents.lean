import EventScript.Machine
import EventScript.Proofs.EventLoop.System

/-!
# What a machine holds

A program gets hold of a value only through the heap or the event loop. `Machine.All` says that all
values there have some property, and each operation on them keeps it where the values put in have
it. `Heap.Grows` is what time does to a heap: objects stay what they are, and scopes keep the scope
around them and the names they bind. `Machine.KeepsScopes` is what most steps do: all scopes are as
they were, and the code goes on where it was.
-/

namespace EventScript

namespace OrderedMap

variable {κ α : Type}

/-- All values of the map have a property. -/
def All (property : α → Prop) (map : OrderedMap κ α) : Prop :=
  ∀ entry ∈ map.entries, property entry.2

variable {property : α → Prop} {map : OrderedMap κ α}

/-- The empty map has no values. -/
theorem all_empty : All property ({} : OrderedMap κ α) := nofun

/-- Where the property implies another, all values have the other one too. -/
theorem All.mono {other : α → Prop} (all : map.All property)
    (implies : ∀ value, property value → other value) : map.All other :=
  fun entry member => implies _ (all entry member)

variable [DecidableEq κ]

/-- What is found under a key is a value of the map. -/
theorem All.find? (all : map.All property) {key : κ} {value : α}
    (found : map.find? key = some value) : property value := by
  have search : ∀ entries : List (κ × α), (∀ entry ∈ entries, property entry.2) →
      findIn key entries = some value → property value := by
    intro entries
    induction entries with
    | nil => exact fun _ none => nomatch none
    | cons entry rest ih =>
      intro good found
      unfold findIn at found
      split at found
      · obtain rfl := Option.some.inj found
        exact good _ List.mem_cons_self
      · obtain ⟨-, goodRest⟩ := List.forall_mem_cons.mp good
        exact ih goodRest found
  exact search map.entries all found

/-- An entry put in is the only one that is new. -/
theorem forall_insert {holds : κ × α → Prop} (all : ∀ entry ∈ map.entries, holds entry) {key : κ}
    {value : α} (good : holds (key, value)) :
    ∀ entry ∈ (map.insert key value).entries, holds entry := by
  have put : ∀ entries : List (κ × α), (∀ entry ∈ entries, holds entry) →
      ∀ entry ∈ insertIn key value entries, holds entry := by
    intro entries
    induction entries with
    | nil => exact fun _ entry member => List.mem_singleton.mp member ▸ good
    | cons first rest ih =>
      intro all entry member
      obtain ⟨allFirst, allRest⟩ := List.forall_mem_cons.mp all
      unfold insertIn at member
      split at member
      · rename_i here
        rcases List.mem_cons.mp member with rfl | inRest
        · exact here ▸ good
        · exact allRest entry inRest
      · rcases List.mem_cons.mp member with rfl | inRest
        · exact allFirst
        · exact ih allRest entry inRest
  exact put map.entries all

/-- A map made of entries has no others. -/
theorem forall_ofList {holds : κ × α → Prop} {entries : List (κ × α)}
    (good : ∀ entry ∈ entries, holds entry) : ∀ entry ∈ (ofList entries).entries, holds entry := by
  have fold : ∀ (rest : List (κ × α)) (map : OrderedMap κ α), (∀ entry ∈ map.entries, holds entry) →
      (∀ entry ∈ rest, holds entry) → ∀ entry ∈
        (rest.foldl (fun map entry => map.insert entry.1 entry.2) map).entries, holds entry := by
    intro rest
    induction rest with
    | nil => exact fun _ all _ => all
    | cons first rest ih =>
      intro map all good
      obtain ⟨goodFirst, goodRest⟩ := List.forall_mem_cons.mp good
      exact ih _ (forall_insert all goodFirst) goodRest
  exact fold entries {} (List.forall_mem_nil _) good

/-- A value put in has to have the property. -/
theorem All.insert (all : map.All property) {key : κ} {value : α} (good : property value) :
    (map.insert key value).All property := forall_insert all good

/-- A map made of entries has the property if their values have it. -/
theorem all_ofList {entries : List (κ × α)} (good : ∀ entry ∈ entries, property entry.2) :
    (ofList entries).All property := forall_ofList good

/-- A map contains a key put in, and all it contained. -/
theorem contains_insert (map : OrderedMap κ α) (key : κ) (value : α) {other : κ}
    (present : other = key ∨ map.contains other = true) :
    (map.insert key value).contains other = true := by
  unfold contains
  rw [find?_insert]
  split
  · rfl
  · rename_i different
    rcases present with same | present
    · exact absurd same.symm different
    · exact present

end OrderedMap

namespace Store

variable {α : Type} {property : α → Prop} {store : Store α}

/-- All contents of the store have a property. -/
def All (property : α → Prop) (store : Store α) : Prop :=
  ∀ index content, store.get? index = some content → property content

/-- The empty store has no contents. -/
theorem all_empty : All property ({} : Store α) := nofun

/-- A content added has to have the property. -/
theorem All.alloc (all : store.All property) {content : α} (good : property content) :
    (store.alloc content).2.All property := by
  intro index found present
  rw [get?_alloc] at present
  split at present
  · exact Option.some.inj present ▸ good
  · exact all index found present

/-- A change has to keep the property. -/
theorem All.modify (all : store.All property) {index : Nat} {change : α → α}
    (keeps : ∀ content, property content → property (change content)) :
    (store.modify index change).All property := by
  intro other found present
  rw [get?_modify] at present
  split at present
  · obtain ⟨old, stored, rfl⟩ := Option.map_eq_some_iff.mp present
    exact keeps old (all other old stored)
  · exact all other found present

/-- Where the property implies another, all contents have the other one too. -/
theorem All.mono {other : α → Prop} (all : store.All property)
    (implies : ∀ content, property content → other content) : store.All other :=
  fun index content present => implies content (all index content present)

/-- Every object of the first store is in the second, and its content there keeps something. -/
def Extends (keeps : α → α → Prop) (before after : Store α) : Prop :=
  ∀ index content, before.get? index = some content →
    ∃ later, after.get? index = some later ∧ keeps content later

variable {keeps : α → α → Prop}

/-- A store that nothing happens to extends itself. -/
theorem extends_refl (reflexive : ∀ content, keeps content content) : store.Extends keeps store :=
  fun _ content present => ⟨content, present, reflexive content⟩

/-- A store that is extended twice is extended. -/
theorem Extends.trans {first second third : Store α} (left : first.Extends keeps second)
    (right : second.Extends keeps third)
    (transitive : ∀ first second third, keeps first second → keeps second third →
      keeps first third) : first.Extends keeps third := by
  intro index content present
  obtain ⟨middle, presentMiddle, keepsMiddle⟩ := left index content present
  obtain ⟨later, presentLater, keepsLater⟩ := right index middle presentMiddle
  exact ⟨later, presentLater, transitive _ _ _ keepsMiddle keepsLater⟩

/-- No object is taken away. -/
theorem Extends.size_le {before after : Store α} (kept : before.Extends keeps after) :
    before.size ≤ after.size := by
  cases count : before.size with
  | zero => exact Nat.zero_le _
  | succ last =>
    have inside : last < before.cells.size := by
      show last < before.size
      omega
    obtain ⟨content, stored, -⟩ := kept last _ (Array.getElem?_eq_getElem inside)
    exact (Array.getElem?_eq_some_iff.mp stored).1

/-- An allocation leaves the other contents as they are. -/
theorem extends_alloc (reflexive : ∀ content, keeps content content) (content : α) :
    store.Extends keeps (store.alloc content).2 := by
  intro index old present
  have inside : index ≠ store.size := by
    rintro rfl
    have outside : store.cells[store.cells.size]? = none := Array.getElem?_size
    rw [get?, size, outside] at present
    contradiction
  refine ⟨old, ?_, reflexive old⟩
  rw [get?_alloc, if_neg inside]
  exact present

/-- A change has to keep what is to be kept. -/
theorem extends_modify (reflexive : ∀ content, keeps content content) (changed : Nat)
    {change : α → α} (change_keeps : ∀ content, keeps content (change content)) :
    store.Extends keeps (store.modify changed change) := by
  intro index old present
  rw [get?_modify, present]
  split
  · exact ⟨change old, rfl, change_keeps old⟩
  · exact ⟨old, rfl, reflexive old⟩

end Store

/-- All values that the heap holds have a property. For an instance its class counts as one. -/
structure Heap.All (property : Value → Prop) (heap : Heap) : Prop where
  lists : heap.lists.All fun items => ∀ item ∈ items, property item
  maps : heap.maps.All fun content => content.All fun pair => property pair.1 ∧ property pair.2
  instances : heap.instances.All fun object =>
    property (.classObject object.cls) ∧ object.fields.All property
  scopes : heap.scopes.All fun scope => scope.bindings.All property

/-- All values that an action is about have a property. -/
def Action.All {κ : Type} (property : κ → Prop) : Action κ → Prop
  | .call callee arguments => property callee ∧ ∀ argument ∈ arguments, property argument
  | .deliver callback _ => property callback
  | .fail _ => True

/-- All callbacks and arguments that the event loop holds have a property. -/
structure EventLoop.All {κ : Type} (property : κ → Prop) (loop : EventLoop κ) : Prop where
  queue : ∀ task ∈ loop.queue, task.action.All property
  pending : ∀ operation ∈ loop.pending, ∀ callback ∈ operation.callback, property callback

/-- All queued actions and all pending operations have properties. -/
structure EventLoop.Holds {κ : Type} (queued : Action κ → Prop) (begun : PendingOperation κ → Prop)
    (loop : EventLoop κ) : Prop where
  queue : ∀ task ∈ loop.queue, queued task.action
  pending : ∀ operation ∈ loop.pending, begun operation

/-- All values that the machine holds have a property. -/
structure Machine.All (property : Value → Prop) (machine : Machine) : Prop where
  heap : machine.heap.All property
  events : machine.events.All property

namespace Heap

variable {property : Value → Prop} {heap : Heap}

/-- What all values on a heap have, they have in a weaker form. -/
theorem All.mono {other : Value → Prop} (all : heap.All property)
    (implies : ∀ value, property value → other value) : heap.All other where
  lists := all.lists.mono fun _ good item member => implies item (good item member)
  maps := all.maps.mono fun _ good => good.mono fun _ pair =>
    ⟨implies _ pair.1, implies _ pair.2⟩
  instances := all.instances.mono fun _ good => ⟨implies _ good.1, good.2.mono implies⟩
  scopes := all.scopes.mono fun _ good => good.mono implies

/-- Changing the text of a string brings no values onto the heap. -/
theorem All.setText (all : heap.All property) (ref : Nat) (content : String) :
    (heap.setText ref content).All property := { all with }

/-- A new string brings no values onto the heap. -/
theorem All.newString (all : heap.All property) (content : String) :
    (heap.newString content).2.All property := { all with }

/-- A new identity brings no values onto the heap. -/
theorem All.newIdentity (all : heap.All property) : heap.newIdentity.2.All property := { all with }

/-- A new list brings its items onto the heap. -/
theorem All.newList (all : heap.All property) {items : Array Value}
    (good : ∀ item ∈ items, property item) : (heap.newList items).2.All property :=
  { all with lists := all.lists.alloc good }

/-- A new map brings its keys and values onto the heap. -/
theorem All.newMap (all : heap.All property) {content : MapContent}
    (good : content.All fun pair => property pair.1 ∧ property pair.2) :
    (heap.newMap content).2.All property :=
  { all with maps := all.maps.alloc good }

/-- A new instance brings its class and its fields onto the heap. -/
theorem All.allocInstance (all : heap.All property) (object : Instance)
    (cls : property (.classObject object.cls)) (fields : object.fields.All property) :
    All property { heap with instances := (heap.instances.alloc object).2 } :=
  { all with instances := all.instances.alloc ⟨cls, fields⟩ }

/-- A new scope brings no values onto the heap. -/
theorem All.newScope (all : heap.All property) (parent : Option Nat) :
    (heap.newScope parent).2.All property :=
  { all with scopes := all.scopes.alloc OrderedMap.all_empty }

/-- Changing the items of a list is fine if the new items are. -/
theorem All.modifyItems (all : heap.All property) (ref : Nat) {change : Array Value → Array Value}
    (keeps : ∀ items, (∀ item ∈ items, property item) → ∀ item ∈ change items, property item) :
    (heap.modifyItems ref change).All property :=
  { all with lists := all.lists.modify keeps }

/-- Setting a key of a map brings the key and the value onto the heap. -/
theorem All.insertContent (all : heap.All property) (ref : Nat) (key : MapKey)
    {pair : Value × Value}
    (good : property pair.1 ∧ property pair.2) :
    (heap.modifyContent ref fun content => content.insert key pair).All property :=
  { all with maps := all.maps.modify fun _ entries => entries.insert good }

/-- Setting a field brings the value onto the heap. -/
theorem All.setField (all : heap.All property) (ref : Nat) (name : String) {value : Value}
    (good : property value) : (heap.setField ref name value).All property :=
  { all with instances := all.instances.modify fun _ object => ⟨object.1, object.2.insert good⟩ }

/-- Binding a name brings the value onto the heap. -/
theorem All.define (all : heap.All property) (scope : Nat) (name : String) {value : Value}
    (good : property value) : (heap.define scope name value).All property :=
  { all with scopes := all.scopes.modify fun _ bindings => bindings.insert good }

/-- What a list holds has the property. -/
theorem All.items (all : heap.All property) (ref : Nat) :
    ∀ item ∈ heap.items ref, property item := by
  unfold Heap.items
  cases present : heap.lists.get? ref with
  | none => exact fun _ member => absurd member (Array.not_mem_empty _)
  | some items => exact all.lists ref items present

/-- What a map holds has the property. -/
theorem All.content (all : heap.All property) (ref : Nat) :
    (heap.content ref).All fun pair => property pair.1 ∧ property pair.2 := by
  unfold Heap.content
  cases present : heap.maps.get? ref with
  | none => exact OrderedMap.all_empty
  | some content => exact all.maps ref content present

/-- What a variable holds is bound in a scope. -/
theorem lookup?_all (scopes : heap.scopes.All fun scope => scope.bindings.All property)
    {scope : Nat}
    {name : String} {value : Value} (found : heap.lookup? scope name = some value) :
    property value := by
  unfold Heap.lookup? at found
  split at found
  · contradiction
  · obtain ⟨content, stored, bound⟩ := Option.bind_eq_some_iff.mp found
    exact (scopes _ content stored).find? bound

/-- What a variable holds has the property. -/
theorem All.lookup? (all : heap.All property) {scope : Nat} {name : String} {value : Value}
    (found : heap.lookup? scope name = some value) : property value := lookup?_all all.scopes found

end Heap

/-- A scope keeps the scope around it and the names it binds. -/
def Scope.Keeps (before after : Scope) : Prop :=
  after.parent = before.parent ∧
    ∀ name, before.bindings.contains name = true → after.bindings.contains name = true

/-- A scope that nothing happens to keeps its names. -/
theorem Scope.keeps_refl (scope : Scope) : scope.Keeps scope := ⟨rfl, fun _ bound => bound⟩

/-- Names that are kept twice are kept. -/
theorem Scope.Keeps.trans {first second third : Scope} (left : first.Keeps second)
    (right : second.Keeps third) : first.Keeps third :=
  ⟨right.1.trans left.1, fun name bound => right.2 name (left.2 name bound)⟩

/-- An instance keeps its class. -/
def Instance.Keeps (before after : Instance) : Prop := after.cls = before.cls

/-- An instance that nothing happens to keeps its class. -/
theorem Instance.keeps_refl (object : Instance) : object.Keeps object := rfl

/-- Objects and scopes stay what they are. -/
structure Heap.Grows (before after : Heap) : Prop where
  scopes : before.scopes.Extends Scope.Keeps after.scopes
  instances : before.instances.Extends Instance.Keeps after.instances

namespace Heap

variable {heap : Heap}

/-- A heap that nothing happens to has grown by nothing. -/
theorem grows_refl (heap : Heap) : heap.Grows heap where
  scopes := Store.extends_refl Scope.keeps_refl
  instances := Store.extends_refl Instance.keeps_refl

/-- A heap that grows twice has grown. -/
theorem Grows.trans {first second third : Heap} (left : first.Grows second)
    (right : second.Grows third) : first.Grows third where
  scopes := left.scopes.trans right.scopes fun _ _ _ first second => first.trans second
  instances := left.instances.trans right.instances fun _ _ _ first second => second.trans first

/-- A new scope makes a heap grow. -/
theorem grows_newScope (heap : Heap) (parent : Option Nat) :
    heap.Grows (heap.newScope parent).2 where
  scopes := Store.extends_alloc Scope.keeps_refl _
  instances := Store.extends_refl Instance.keeps_refl

/-- Binding a name makes a heap grow. -/
theorem grows_define (heap : Heap) (scope : Nat) (name : String) (value : Value) :
    heap.Grows (heap.define scope name value) where
  scopes := Store.extends_modify Scope.keeps_refl scope fun content =>
    ⟨rfl, fun _ bound => content.bindings.contains_insert name value (.inr bound)⟩
  instances := Store.extends_refl Instance.keeps_refl

end Heap

/-- The scopes are as they were, and objects stay what they are. -/
structure Heap.KeepsScopes (before after : Heap) : Prop where
  scopes : after.scopes = before.scopes
  instances : before.instances.Extends Instance.Keeps after.instances

namespace Heap

variable {heap after : Heap}

/-- Only scopes and instances matter. -/
theorem KeepsScopes.of_same (scopes : after.scopes = heap.scopes)
    (instances : after.instances = heap.instances) : heap.KeepsScopes after where
  scopes := scopes
  instances := by
    rw [instances]
    exact Store.extends_refl Instance.keeps_refl

/-- A heap that nothing happens to keeps its scopes. -/
theorem keepsScopes_refl (heap : Heap) : heap.KeepsScopes heap := .of_same rfl rfl

/-- Scopes that are kept twice are kept. -/
theorem KeepsScopes.trans {later : Heap} (left : heap.KeepsScopes after)
    (right : after.KeepsScopes later) : heap.KeepsScopes later where
  scopes := right.scopes.trans left.scopes
  instances := left.instances.trans right.instances fun _ _ _ first second => second.trans first

/-- A new instance leaves all scopes. -/
theorem keepsScopes_allocInstance (heap : Heap) (object : Instance) :
    heap.KeepsScopes { heap with instances := (heap.instances.alloc object).2 } where
  scopes := rfl
  instances := Store.extends_alloc Instance.keeps_refl object

/-- Setting a field leaves all scopes. -/
theorem keepsScopes_setField (heap : Heap) (ref : Nat) (name : String) (value : Value) :
    heap.KeepsScopes (heap.setField ref name value) where
  scopes := rfl
  instances := Store.extends_modify Instance.keeps_refl ref fun object => object.keeps_refl

/-- A heap may grow without a change of its scopes. -/
theorem KeepsScopes.grows (keeps : heap.KeepsScopes after) : heap.Grows after where
  scopes := by
    rw [keeps.scopes]
    exact Store.extends_refl Scope.keeps_refl
  instances := keeps.instances

end Heap

/-- The class whose method is running. -/
def Machine.home (machine : Machine) : Option Class := machine.frames.head?.bind Frame.home

/-- The scopes are as they were, and the code goes on where it was. -/
structure Machine.KeepsScopes (before after : Machine) : Prop where
  heap : before.heap.KeepsScopes after.heap
  scope : after.scope = before.scope
  frames : after.frames = before.frames

namespace Machine

/-- A machine that nothing happens to keeps its scopes. -/
theorem keepsScopes_refl (machine : Machine) : machine.KeepsScopes machine :=
  ⟨machine.heap.keepsScopes_refl, rfl, rfl⟩

/-- Scopes that a machine keeps twice are kept. -/
theorem KeepsScopes.trans {first second third : Machine} (left : first.KeepsScopes second)
    (right : second.KeepsScopes third) : first.KeepsScopes third :=
  ⟨left.heap.trans right.heap, right.scope.trans left.scope, right.frames.trans left.frames⟩

/-- A property that all values have is one of all that the machine holds. -/
theorem all_of_forall {property : Value → Prop} (always : ∀ value, property value)
    (machine : Machine) : machine.All property := by
  refine ⟨⟨?lists, ?maps, ?instances, ?scopes⟩, ?queue, ?pending⟩
  case lists => exact fun _ _ _ _ _ => always _
  case maps => exact fun _ _ _ _ _ => ⟨always _, always _⟩
  case instances => exact fun _ _ _ => ⟨always _, fun _ _ => always _⟩
  case scopes => exact fun _ _ _ _ _ => always _
  case queue =>
    intro task _
    cases task.action with
    | call => exact ⟨always _, fun _ _ => always _⟩
    | deliver => exact always _
    | fail => trivial
  case pending => exact fun _ _ _ _ => always _

/-- What all values on a machine have, they have in a weaker form. -/
theorem All.mono {property other : Value → Prop} {machine : Machine} (all : machine.All property)
    (implies : ∀ value, property value → other value) : machine.All other := by
  refine ⟨all.heap.mono implies, ?_, ?_⟩
  · intro task member
    have good := all.events.queue task member
    cases action : task.action with
    | call callee arguments =>
      rw [action] at good
      exact ⟨implies _ good.1, fun argument member => implies _ (good.2 argument member)⟩
    | deliver callback result =>
      rw [action] at good
      exact implies _ good
    | fail diagnostic => trivial
  · exact fun operation member callback callsBack =>
      implies _ (all.events.pending operation member callback callsBack)

end Machine

namespace EventLoop

variable {κ : Type} {loop later : EventLoop κ} {operation : Nat} {outcome : OperationOutcome}
variable {answer : Poll κ} {reading : Duration}

section Holds

variable {queued : Action κ → Prop} {begun : PendingOperation κ → Prop}

/-- Queueing an action is fine if the action is. -/
theorem Holds.push (holds : loop.Holds queued begun) (due : Duration) {action : Action κ}
    (good : queued action) : (loop.push due action).Holds queued begun := by
  refine { holds with queue := ?_ }
  intro task member
  rcases List.mem_cons.mp ((insert_perm _ _).mem_iff.mp member) with rfl | inQueue
  · exact good
  · exact holds.queue task inQueue

/-- Beginning an operation is fine if the operation is. -/
theorem Holds.begin (holds : loop.Holds queued begun) (label : String) (span : Span)
    (callback : Option κ) (good : begun ⟨loop.nextOperation, label, span, callback⟩) :
    (loop.begin label span callback).2.Holds queued begun := by
  refine { holds with pending := ?_ }
  intro operation member
  rcases List.mem_append.mp member with old | new
  · exact holds.pending operation old
  · rw [List.mem_singleton.mp new]
    exact good

/-- A report changes nothing that is queued or under way. -/
theorem Holds.report? (holds : loop.Holds queued begun)
    (reported : loop.report? operation outcome = some later) : later.Holds queued begun := by
  unfold EventLoop.report? at reported
  split at reported
  · obtain rfl := Option.some.inj reported
    exact { holds with }
  · contradiction

/-- An operation that ends is no longer under way, and nothing else changes. -/
theorem Holds.settle (holds : loop.Holds queued begun) (operation : Nat) :
    (loop.settle operation).Holds queued begun :=
  { holds with
    pending := fun other member => holds.pending other (List.mem_filter.mp member).1 }

/-- The properties fit together: what the end of an operation gives rise to may be queued. -/
def Continues (queued : Action κ → Prop) (begun : PendingOperation κ → Prop) : Prop :=
  ∀ ⦃operation : PendingOperation κ⦄ ⦃outcome : OperationOutcome⦄ ⦃action : Action κ⦄,
    begun operation → consequence operation outcome = some action → queued action

/-- Taking in a report queues at most what the end of the operation gives rise to. -/
theorem Holds.accept (holds : loop.Holds queued begun) (continues : Continues queued begun)
    (reading : Duration) (report : Report) : (loop.accept reading report).Holds queued begun := by
  rw [accept_eq]
  cases given : loop.actionOf? report with
  | none => exact holds.settle _
  | some action =>
    obtain ⟨operation, found, consequence⟩ := Option.bind_eq_some_iff.mp given
    have good := holds.pending operation (List.mem_of_find?_eq_some found)
    exact (holds.settle _).push _ (continues good consequence)

/-- Taking in all reports queues at most what the ends of operations give rise to. -/
theorem Holds.receiveAll (holds : loop.Holds queued begun) (continues : Continues queued begun)
    (reading : Duration) : (loop.receiveAll reading).Holds queued begun := by
  have fold : ∀ (inbox : List Report) (loop : EventLoop κ), loop.Holds queued begun →
      (inbox.foldl (fun loop report => loop.accept reading report) loop).Holds queued begun := by
    intro inbox
    induction inbox with
    | nil => exact fun _ holds => holds
    | cons report rest ih => exact fun _ holds => ih _ (holds.accept continues reading report)
  exact fold loop.inbox _ { holds with }

/-- A task that is ready was in the queue, and nothing else is put there. -/
theorem Holds.select (holds : loop.Holds queued begun)
    (selected : loop.select reading = (answer, later)) :
    later.Holds queued begun ∧ ∀ task, answer = .ready task → queued task.action := by
  have first : ∀ head rest, loop.queue = head :: rest →
      (∀ task ∈ rest, queued task.action) ∧ queued head.action := by
    intro head rest queue
    have holds := holds.queue
    rw [queue] at holds
    exact ⟨fun task member => holds task (List.mem_cons_of_mem _ member),
      holds head List.mem_cons_self⟩
  cases decision_of_select selected with
  | idle | await | awaitUntil | sleep => exact ⟨holds, nofun⟩
  | due queue | jump queue =>
    obtain ⟨behind, head⟩ := first _ _ queue
    exact ⟨{ holds with queue := behind }, fun task given => Poll.ready.inj given ▸ head⟩

/-- Asking what to do next changes nothing about what is queued, and a task that is ready was
queued. -/
theorem Holds.poll (holds : loop.Holds queued begun) (continues : Continues queued begun)
    (polled : loop.poll reading = (answer, later)) :
    later.Holds queued begun ∧ ∀ task, answer = .ready task → queued task.action :=
  (holds.receiveAll continues reading).select polled

end Holds

section All

variable {property : κ → Prop}

/-- What the event loop holds is about values. -/
theorem all_iff : loop.All property ↔
    loop.Holds (Action.All property) fun operation => ∀ value ∈ operation.callback,
      property value :=
  ⟨fun all => ⟨all.queue, all.pending⟩, fun holds => ⟨holds.queue, holds.pending⟩⟩

/-- What the end of an operation gives rise to is about its callback. -/
theorem continues_all : Continues (Action.All property) fun operation =>
    ∀ value ∈ operation.callback, property value := by
  intro operation outcome action good consequence
  unfold EventLoop.consequence at consequence
  split at consequence
  · obtain ⟨callback, callsBack, rfl⟩ := Option.map_eq_some_iff.mp consequence
    exact good callback callsBack
  · obtain rfl := Option.some.inj consequence
    trivial

/-- Queueing a call brings its callee into the event loop. -/
theorem All.schedule (all : loop.All property) (reading delay : Duration) {callee : κ}
    (good : property callee) : (loop.schedule reading delay callee []).All property :=
  all_iff.mpr ((all_iff.mp all).push _ ⟨good, List.forall_mem_nil _⟩)

/-- Beginning an operation brings its callback into the event loop. -/
theorem All.begin (all : loop.All property) (label : String) (span : Span) {callback : Option κ}
    (good : ∀ value ∈ callback, property value) :
    (loop.begin label span callback).2.All property :=
  all_iff.mpr ((all_iff.mp all).begin label span callback good)

/-- A report brings no values into the event loop. -/
theorem All.report? (all : loop.All property)
    (reported : loop.report? operation outcome = some later) : later.All property :=
  all_iff.mpr ((all_iff.mp all).report? reported)

/-- Asking what to do next brings no values into the event loop, and a task that is ready holds none
but good ones. -/
theorem All.poll (all : loop.All property) (polled : loop.poll reading = (answer, later)) :
    later.All property ∧ ∀ task, answer = .ready task → task.action.All property := by
  obtain ⟨holds, ready⟩ := (all_iff.mp all).poll continues_all polled
  exact ⟨all_iff.mpr holds, ready⟩

end All

end EventLoop

end EventScript
