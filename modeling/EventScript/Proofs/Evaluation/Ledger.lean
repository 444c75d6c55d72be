import EventScript.Proofs.Evaluation.Keeping

/-!
# The ledger of strings and identities

A map copies the strings that it is given as keys. What it finds under a key is right only as long
as no program gets hold of the copies, since a string changes for all that refer to it. A `Ledger`
is kept beside the machine to show that none does: it says which strings are kept as keys, which
value bears which identity number, and how many other objects there are. It vouches for the values
that a program may have in its hands (`Ledger.Vouches`), which refer to nothing that is not there,
and describes a heap that holds no others outside the keys of its maps (`Ledger.Describes`). A step
of the evaluator that changes no map leaves a machine that a later ledger describes, and gives
values that the later ledger vouches for (`Ledger.Follows`).
-/

namespace EventScript

/-- The object whose method the value is. -/
def Value.receiver? : Value → Option Value
  | .method _ receiver _ => some receiver
  | .builtin _ _ receiver => receiver
  | _ => none

/-- How many lists, maps and instances there are. -/
structure Stock where
  lists : Nat
  maps : Nat
  objects : Nat

namespace Stock

/-- The list, the map or the instance that the value refers to is there, if it refers to one. -/
def Has (stock : Stock) : Value → Prop
  | .list ref => ref < stock.lists
  | .map ref => ref < stock.maps
  | .object ref => ref < stock.objects
  | _ => True

/-- Nothing is taken out of stock. -/
structure Grows (stock later : Stock) : Prop where
  lists : stock.lists ≤ later.lists
  maps : stock.maps ≤ later.maps
  objects : stock.objects ≤ later.objects

variable {stock later : Stock}

/-- A stock that nothing happens to has grown by nothing. -/
theorem grows_refl (stock : Stock) : stock.Grows stock :=
  ⟨Nat.le_refl _, Nat.le_refl _, Nat.le_refl _⟩

/-- A stock that grows twice has grown. -/
theorem Grows.trans {last : Stock} (left : stock.Grows later) (right : later.Grows last) :
    stock.Grows last where
  lists := Nat.le_trans left.lists right.lists
  maps := Nat.le_trans left.maps right.maps
  objects := Nat.le_trans left.objects right.objects

/-- What is in stock stays there. -/
theorem Has.grows {value : Value} (has : stock.Has value) (grows : stock.Grows later) :
    later.Has value := by
  cases value with
  | list => exact Nat.lt_of_lt_of_le has grows.lists
  | map => exact Nat.lt_of_lt_of_le has grows.maps
  | object => exact Nat.lt_of_lt_of_le has grows.objects
  | _ => trivial

end Stock

/-- The lists, maps and instances of the heap. -/
def Heap.stock (heap : Heap) : Stock where
  lists := heap.lists.size
  maps := heap.maps.size
  objects := heap.instances.size

/-- What is known about the objects and the identity numbers that were given out. -/
structure Ledger where
  strings : Nat
  /-- The strings that are keys of maps. -/
  kept : Nat → Prop
  stock : Stock
  identities : Nat
  /-- The value that bears an identity number. -/
  bearer : Nat → Value

namespace Ledger

/-- A program may have the value in its hands: it and the objects whose method it is are there and
are no strings kept as keys, and they bear the identity numbers that they have. -/
inductive Vouches (ledger : Ledger) : Value → Prop where
  | intro {value : Value}
      (string : ∀ ref, value = .string ref → ref < ledger.strings ∧ ¬ledger.kept ref)
      (stocked : ledger.stock.Has value)
      (identity : ∀ number, value.identity? = some ⟨.immutable, number⟩ →
        number < ledger.identities ∧ ledger.bearer number = value)
      (receiver : ∀ inner ∈ value.receiver?, Vouches ledger inner) : Vouches ledger value

/-- Objects and numbers were given out, and nothing else has changed. -/
structure Extends (ledger later : Ledger) : Prop where
  strings : ledger.strings ≤ later.strings
  kept : ∀ ref < ledger.strings, later.kept ref ↔ ledger.kept ref
  stock : ledger.stock.Grows later.stock
  identities : ledger.identities ≤ later.identities
  bearer : ∀ number < ledger.identities, later.bearer number = ledger.bearer number

/-- One more string. -/
def addString (ledger : Ledger) (kept : Prop) : Ledger :=
  { ledger with
    strings := ledger.strings + 1
    kept := fun ref => if ref = ledger.strings then kept else ledger.kept ref }

/-- Other lists, maps and instances. -/
def restock (ledger : Ledger) (stock : Stock) : Ledger := { ledger with stock }

/-- One more identity number, for the value. -/
def addIdentity (ledger : Ledger) (value : Value) : Ledger :=
  { ledger with
    identities := ledger.identities + 1
    bearer := fun number => if number = ledger.identities then value else ledger.bearer number }

/-- The entry of a map stands under the key of its key value, which is no string that a program
has. -/
structure Files (ledger : Ledger) (heap : Heap) (entry : MapKey × Value × Value) : Prop where
  key : entry.1 = heap.keyOf entry.2.1
  kept : ∀ ref, entry.2.1 = .string ref → ref < ledger.strings ∧ ledger.kept ref
  value : ledger.Vouches entry.2.2

end Ledger

/-- The heap with all but its maps. -/
def Heap.withoutMaps (heap : Heap) : Heap := { heap with maps := {} }

namespace Ledger

/-- The heap has the objects and identity numbers that were given out. Its maps keep their keys to
themselves, and all else that it holds is vouched for. -/
structure Describes (ledger : Ledger) (heap : Heap) : Prop where
  strings : heap.strings.size = ledger.strings
  stock : heap.stock = ledger.stock
  identities : heap.nextIdentity = ledger.identities
  maps : heap.maps.All fun content => ∀ entry ∈ content.entries, ledger.Files heap entry
  others : heap.withoutMaps.All ledger.Vouches

/-- All that the machine holds is as the ledger says. -/
structure Balances (ledger : Ledger) (machine : Machine) : Prop where
  heap : ledger.Describes machine.heap
  events : machine.events.All ledger.Vouches

end Ledger

/-- All maps that there are stay as they are. -/
def Heap.KeepsMaps (before after : Heap) : Prop := before.maps.Extends Eq after.maps

namespace Heap

/-- A heap with the same maps keeps them. -/
theorem keepsMaps_of_same {before after : Heap} (maps : after.maps = before.maps) :
    before.KeepsMaps after := by
  unfold KeepsMaps
  rw [maps]
  exact Store.extends_refl fun _ => rfl

/-- A heap that nothing happens to keeps its maps. -/
theorem keepsMaps_refl (heap : Heap) : heap.KeepsMaps heap := keepsMaps_of_same rfl

/-- Maps that are kept twice are kept. -/
theorem KeepsMaps.trans {first second third : Heap} (left : first.KeepsMaps second)
    (right : second.KeepsMaps third) : first.KeepsMaps third :=
  Store.Extends.trans left right fun _ _ _ same same' => same.trans same'

/-- A new map leaves those that there were. -/
theorem keepsMaps_newMap (heap : Heap) (content : MapContent) :
    heap.KeepsMaps (heap.newMap content).2 := Store.extends_alloc (fun _ => rfl) content

/-- The key of a value depends on the content of the string only, if it is one. -/
theorem keyOf_congr {heap later : Heap} {value : Value}
    (same : ∀ ref, value = .string ref → later.text ref = heap.text ref) :
    later.keyOf value = heap.keyOf value := by
  cases value with
  | string ref => exact congrArg MapKey.string (same ref rfl)
  | _ => rfl

/-- A new string leaves the contents of the others as they are. -/
theorem text_newString {heap : Heap} {ref : Nat} (inside : ref < heap.strings.size)
    (content : String) :
    (heap.newString content).2.text ref = heap.text ref := by
  show ((heap.strings.alloc content).2.get? ref).getD "" = (heap.strings.get? ref).getD ""
  rw [Store.get?_alloc, if_neg (Nat.ne_of_lt inside)]

/-- The text of a new string is the one it is made with. -/
theorem text_newString_self (heap : Heap) (content : String) :
    (heap.newString content).2.text heap.strings.size = content := by
  show ((heap.strings.alloc content).2.get? heap.strings.size).getD "" = content
  rw [Store.get?_alloc, if_pos rfl]
  rfl

/-- A change of one string leaves the contents of the others as they are. -/
theorem text_setText {heap : Heap} {ref other : Nat} (different : ref ≠ other) (content : String) :
    (heap.setText ref content).text other = heap.text other := by
  show ((heap.strings.set ref content).get? other).getD "" = (heap.strings.get? other).getD ""
  rw [Store.get?_set, if_neg fun same => different same.1]

end Heap

namespace Ledger

variable {ledger later : Ledger}

/-! ## How ledgers go on -/

/-- A ledger that nothing is entered in extends itself. -/
theorem extends_refl (ledger : Ledger) : ledger.Extends ledger :=
  ⟨Nat.le_refl _, fun _ _ => Iff.rfl, ledger.stock.grows_refl, Nat.le_refl _, fun _ _ => rfl⟩

/-- A ledger that is extended twice is extended. -/
theorem Extends.trans {last : Ledger} (left : ledger.Extends later) (right : later.Extends last) :
    ledger.Extends last where
  strings := Nat.le_trans left.strings right.strings
  kept ref inside :=
    (right.kept ref (Nat.lt_of_lt_of_le inside left.strings)).trans (left.kept ref inside)
  stock := left.stock.trans right.stock
  identities := Nat.le_trans left.identities right.identities
  bearer number inside :=
    (right.bearer number (Nat.lt_of_lt_of_le inside left.identities)).trans
      (left.bearer number inside)

/-- Entering a string extends a ledger. -/
theorem extends_addString (ledger : Ledger) (kept : Prop) :
    ledger.Extends (ledger.addString kept) where
  strings := Nat.le_succ _
  kept ref inside := by
    show (if ref = ledger.strings then kept else ledger.kept ref) ↔ ledger.kept ref
    rw [if_neg (Nat.ne_of_lt inside)]
  stock := ledger.stock.grows_refl
  identities := Nat.le_refl _
  bearer _ _ := rfl

/-- Entering what a heap has grown by extends a ledger. -/
theorem extends_restock {stock : Stock} (grows : ledger.stock.Grows stock) :
    ledger.Extends (ledger.restock stock) :=
  { ledger.extends_refl with stock := grows }

/-- Entering an identity extends a ledger. -/
theorem extends_addIdentity (ledger : Ledger) (value : Value) :
    ledger.Extends (ledger.addIdentity value) where
  strings := Nat.le_refl _
  kept _ _ := Iff.rfl
  stock := ledger.stock.grows_refl
  identities := Nat.le_succ _
  bearer number inside := by
    show (if number = ledger.identities then value else ledger.bearer number) = ledger.bearer number
    rw [if_neg (Nat.ne_of_lt inside)]

/-- A later ledger vouches for all that the earlier one vouches for. -/
theorem Vouches.extend {value : Value} (vouches : ledger.Vouches value)
    (goesOn : ledger.Extends later) : later.Vouches value := by
  induction vouches with
  | intro string stocked identity _ ih =>
    refine .intro ?_ (stocked.grows goesOn.stock) ?_ ih
    · intro ref same
      obtain ⟨inside, free⟩ := string ref same
      have stillFree : ¬later.kept ref := (not_congr (goesOn.kept ref inside)).mpr free
      exact ⟨Nat.lt_of_lt_of_le inside goesOn.strings, stillFree⟩
    · intro number same
      obtain ⟨inside, bears⟩ := identity number same
      have stillBears := (goesOn.bearer number inside).trans bears
      exact ⟨Nat.lt_of_lt_of_le inside goesOn.identities, stillBears⟩

/-- The entry of a map stays in order while its key keeps its content. -/
theorem Files.extend {heap after : Heap} {entry : MapKey × Value × Value}
    (files : ledger.Files heap entry) (goesOn : ledger.Extends later)
    (texts : ∀ ref < ledger.strings, ledger.kept ref → after.text ref = heap.text ref) :
    later.Files after entry where
  key := by
    refine files.key.trans (Heap.keyOf_congr fun ref same => ?_).symm
    exact texts ref (files.kept ref same).1 (files.kept ref same).2
  kept ref same := by
    obtain ⟨inside, kept⟩ := files.kept ref same
    exact ⟨Nat.lt_of_lt_of_le inside goesOn.strings, (goesOn.kept ref inside).mpr kept⟩
  value := files.value.extend goesOn

/-! ## Values that are vouched for -/

/-- A value that is neither a string nor told apart by a number of its own is vouched for if it is
there. -/
theorem vouches_of_plain {value : Value} (plain : value.isPlain = true)
    (other : ∀ ref, value ≠ .string ref) (stocked : ledger.stock.Has value) :
    ledger.Vouches value := by
  refine .intro (fun ref same => absurd same (other ref)) stocked (fun number same => ?_)
    fun inner member => ?_
  · cases value <;> simp_all [Value.identity?, Value.isPlain]
  · cases value <;> simp_all [Value.receiver?, Value.isPlain]

/-- Every ledger vouches for `nil`. -/
@[simp] theorem vouches_nil : ledger.Vouches .nil := vouches_of_plain rfl nofun trivial

/-- Every ledger vouches for the truth values. -/
@[simp] theorem vouches_bool (value : Bool) : ledger.Vouches (.bool value) :=
  vouches_of_plain rfl nofun trivial

/-- Every ledger vouches for the numbers. -/
@[simp] theorem vouches_number (value : Float) : ledger.Vouches (.number value) :=
  vouches_of_plain rfl nofun trivial

/-- A ledger vouches for the lists that it has in stock. -/
theorem vouches_list {ref : Nat} (inside : ref < ledger.stock.lists) : ledger.Vouches (.list ref) :=
  vouches_of_plain rfl nofun inside

/-- A ledger vouches for the maps that it has in stock. -/
theorem vouches_map {ref : Nat} (inside : ref < ledger.stock.maps) : ledger.Vouches (.map ref) :=
  vouches_of_plain rfl nofun inside

/-- A ledger vouches for the instances that it has in stock. -/
theorem vouches_object {ref : Nat} (inside : ref < ledger.stock.objects) :
    ledger.Vouches (.object ref) := vouches_of_plain rfl nofun inside

/-- A string that a ledger vouches for is entered, and is no key that a map keeps. -/
theorem Vouches.string {ref : Nat} (vouches : ledger.Vouches (.string ref)) :
    ref < ledger.strings ∧ ¬ledger.kept ref := by
  cases vouches with
  | intro string => exact string ref rfl

/-- What a ledger vouches for it has in stock. -/
theorem Vouches.stocked {value : Value} (vouches : ledger.Vouches value) :
    ledger.stock.Has value := by
  cases vouches with
  | intro _ stocked => exact stocked

/-- A ledger that vouches for a value knows whose number the value has. -/
theorem Vouches.identity {value : Value} {number : Nat} (vouches : ledger.Vouches value)
    (same : value.identity? = some ⟨.immutable, number⟩) :
    number < ledger.identities ∧ ledger.bearer number = value := by
  cases vouches with
  | intro _ _ identity => exact identity number same

/-- A ledger that vouches for a method vouches for the object that it is bound to. -/
theorem Vouches.receiver {value inner : Value} (vouches : ledger.Vouches value)
    (member : inner ∈ value.receiver?) : ledger.Vouches inner := by
  cases vouches with
  | intro _ _ _ receiver => exact receiver inner member

/-- A new string that no map keeps is vouched for. -/
theorem vouches_addString (ledger : Ledger) :
    (ledger.addString False).Vouches (.string ledger.strings) := by
  refine .intro (fun ref same => ?_) trivial nofun nofun
  obtain rfl := Value.string.inj same
  refine ⟨Nat.lt_succ_self _, fun kept => ?_⟩
  have kept : if ledger.strings = ledger.strings then False else ledger.kept ledger.strings := kept
  rwa [if_pos rfl] at kept

/-- A value with a new identity number is vouched for if the object whose method it is is. -/
theorem vouches_addIdentity {value : Value}
    (number : value.identity? = some ⟨.immutable, ledger.identities⟩)
    (receiver : ∀ inner ∈ value.receiver?, ledger.Vouches inner) :
    (ledger.addIdentity value).Vouches value := by
  refine .intro (fun ref same => ?_) ?_ (fun other same => ?_) fun inner member => ?_
  · rw [same] at number
    contradiction
  · cases value with
    | list | map | object => simp [Value.identity?] at number
    | _ => trivial
  · rw [number] at same
    obtain ⟨rfl⟩ := Option.some.inj same
    exact ⟨Nat.lt_succ_self _, if_pos rfl⟩
  · exact (receiver inner member).extend (ledger.extends_addIdentity value)

/-! ## What a ledger describes -/

section Heaps

variable {heap after : Heap}

/-- Where a later ledger is in use, the old strings that are kept have their contents, and the maps
are the same, the maps stay in order. -/
theorem Describes.maps_extend (describes : ledger.Describes heap) (goesOn : ledger.Extends later)
    (texts : ∀ ref < ledger.strings, ledger.kept ref → after.text ref = heap.text ref) :
    heap.maps.All fun content => ∀ entry ∈ content.entries, later.Files after entry :=
  describes.maps.mono fun _ files entry member => (files entry member).extend goesOn texts

/-- While the strings and the number for the next identity are the same, what else there is may be
replaced by more. -/
theorem Describes.restock (describes : ledger.Describes heap) (after : Heap)
    (strings : after.strings = heap.strings) (identities : after.nextIdentity = heap.nextIdentity)
    (grows : heap.stock.Grows after.stock)
    (maps : after.maps.All fun content => ∀ entry ∈ content.entries, ledger.Files heap entry)
    (others : after.withoutMaps.All ledger.Vouches) :
    ledger.Extends (ledger.restock after.stock) ∧ (ledger.restock after.stock).Describes after := by
  have goesOn : ledger.Extends (ledger.restock after.stock) :=
    extends_restock (describes.stock ▸ grows)
  have count := (congrArg Store.size strings).trans describes.strings
  have numbers := identities.trans describes.identities
  have others := others.mono fun _ vouches => vouches.extend goesOn
  have maps : after.maps.All fun content => ∀ entry ∈ content.entries,
      (ledger.restock after.stock).Files after entry := by
    refine maps.mono fun _ files entry member => (files entry member).extend goesOn fun _ _ _ => ?_
    unfold Heap.text
    rw [strings]
  exact ⟨goesOn, count, rfl, numbers, maps, others⟩

/-- While there are as many lists, maps and instances, the ledger stays the same. -/
theorem Describes.change (describes : ledger.Describes heap)
    (strings : after.strings = heap.strings)
    (identities : after.nextIdentity = heap.nextIdentity) (stock : after.stock = heap.stock)
    (maps : after.maps.All fun content => ∀ entry ∈ content.entries, ledger.Files heap entry)
    (others : after.withoutMaps.All ledger.Vouches) : ledger.Describes after := by
  have same : ledger.restock after.stock = ledger := by
    rw [stock, describes.stock]
    rfl
  rw [← same]
  exact (describes.restock after strings identities (stock ▸ heap.stock.grows_refl) maps others).2

/-- Entering a new string describes the heap with it. -/
theorem Describes.newString (describes : ledger.Describes heap) (kept : Prop) (content : String) :
    (ledger.addString kept).Describes (heap.newString content).2 where
  strings := (Store.size_alloc ..).trans (congrArg (· + 1) describes.strings)
  stock := describes.stock
  identities := describes.identities
  maps := describes.maps_extend (ledger.extends_addString kept) fun _ inside _ =>
    Heap.text_newString (describes.strings ▸ inside) content
  others := Heap.All.newString (describes.others.mono fun _ vouches =>
    vouches.extend (ledger.extends_addString kept)) content

/-- A string that a program has may be altered. -/
theorem Describes.setText (describes : ledger.Describes heap) {ref : Nat}
    (vouches : ledger.Vouches (.string ref)) (content : String) :
    ledger.Describes (heap.setText ref content) where
  strings := (Store.size_set ..).trans describes.strings
  stock := describes.stock
  identities := describes.identities
  maps := describes.maps_extend ledger.extends_refl fun other _ kept =>
    Heap.text_setText (fun same => vouches.string.2 (by rwa [same])) content
  others := describes.others.setText ref content

/-- Entering a new identity describes the heap with it. -/
theorem Describes.newIdentity (describes : ledger.Describes heap) (value : Value) :
    (ledger.addIdentity value).Describes heap.newIdentity.2 where
  strings := describes.strings
  stock := describes.stock
  identities := congrArg (· + 1) describes.identities
  maps := describes.maps_extend (ledger.extends_addIdentity value) fun _ _ _ => rfl
  others := Heap.All.newIdentity (describes.others.mono fun _ vouches =>
    vouches.extend (ledger.extends_addIdentity value))

/-- A ledger describes a heap with other items in a list if it vouches for them. -/
theorem Describes.modifyItems (describes : ledger.Describes heap) (ref : Nat)
    {change : Array Value → Array Value}
    (keeps : ∀ items, (∀ item ∈ items, ledger.Vouches item) → ∀ item ∈ change items,
      ledger.Vouches item) :
    ledger.Describes (heap.modifyItems ref change) := by
  have stock : (heap.modifyItems ref change).stock = heap.stock :=
    congrArg (Stock.mk · heap.maps.size heap.instances.size) (Store.size_modify ..)
  exact describes.change rfl rfl stock describes.maps (describes.others.modifyItems ref keeps)

/-- A ledger describes a heap with a field set if it vouches for the value. -/
theorem Describes.setField (describes : ledger.Describes heap) (ref : Nat) (name : String)
    {value : Value} (vouches : ledger.Vouches value) :
    ledger.Describes (heap.setField ref name value) := by
  have stock : (heap.setField ref name value).stock = heap.stock :=
    congrArg (Stock.mk heap.lists.size heap.maps.size) (Store.size_modify ..)
  exact describes.change rfl rfl stock describes.maps (describes.others.setField ref name vouches)

/-- A ledger describes a heap with a new scope. -/
theorem Describes.newScope (describes : ledger.Describes heap) (parent : Option Nat) :
    ledger.Describes (heap.newScope parent).2 :=
  describes.change rfl rfl rfl describes.maps (describes.others.newScope parent)

/-- A ledger describes a heap with a name bound if it vouches for the value. -/
theorem Describes.define (describes : ledger.Describes heap) (scope : Nat) (name : String)
    {value : Value} (vouches : ledger.Vouches value) :
    ledger.Describes (heap.define scope name value) :=
  describes.change rfl rfl rfl describes.maps (describes.others.define scope name vouches)

/-- A ledger describes a heap with a key set if it files the entry. -/
theorem Describes.insertContent (describes : ledger.Describes heap) (ref : Nat) {key value : Value}
    (files : ledger.Files heap (heap.keyOf key, key, value)) :
    ledger.Describes
      (heap.modifyContent ref fun content => content.insert (heap.keyOf key) (key, value)) := by
  have stock : ∀ change, (heap.modifyContent ref change).stock = heap.stock := fun _ =>
    congrArg (Stock.mk heap.lists.size · heap.instances.size) (Store.size_modify ..)
  refine describes.change rfl rfl (stock _) ?_ describes.others
  exact describes.maps.modify fun _ filed => OrderedMap.forall_insert filed files

/-! ### New lists, maps and instances -/

/-- A later ledger describes a heap with a new list. -/
theorem Describes.newList (describes : ledger.Describes heap) {items : Array Value}
    (vouches : ∀ item ∈ items, ledger.Vouches item) :
    ∃ later : Ledger, ledger.Extends later ∧ later.Describes (heap.newList items).2 ∧
      later.Vouches (heap.newList items).1 := by
  have size : (heap.newList items).2.stock.lists = heap.lists.size + 1 := Store.size_alloc ..
  have grows : heap.stock.Grows (heap.newList items).2.stock :=
    ⟨size ▸ Nat.le_succ _, Nat.le_refl _, Nat.le_refl _⟩
  have others := describes.others.newList vouches
  obtain ⟨goesOn, describes⟩ :=
    describes.restock (heap.newList items).2 rfl rfl grows describes.maps others
  have inside := Nat.lt_of_lt_of_eq (Nat.lt_succ_self heap.lists.size) size.symm
  exact ⟨_, goesOn, describes, vouches_list inside⟩

/-- A later ledger describes a heap with a new map. -/
theorem Describes.newMap (describes : ledger.Describes heap) {content : MapContent}
    (files : ∀ entry ∈ content.entries, ledger.Files heap entry) :
    ∃ later : Ledger, ledger.Extends later ∧ later.Describes (heap.newMap content).2 ∧
      later.Vouches (heap.newMap content).1 := by
  have size : (heap.newMap content).2.stock.maps = heap.maps.size + 1 := Store.size_alloc ..
  have grows : heap.stock.Grows (heap.newMap content).2.stock :=
    ⟨Nat.le_refl _, size ▸ Nat.le_succ _, Nat.le_refl _⟩
  have maps := describes.maps.alloc files
  obtain ⟨goesOn, describes⟩ :=
    describes.restock (heap.newMap content).2 rfl rfl grows maps describes.others
  have inside := Nat.lt_of_lt_of_eq (Nat.lt_succ_self heap.maps.size) size.symm
  exact ⟨_, goesOn, describes, vouches_map inside⟩

/-- The heap with one more instance. -/
theorem Describes.allocInstance (describes : ledger.Describes heap) (object : Instance)
    (cls : ledger.Vouches (.classObject object.cls)) (fields : object.fields.All ledger.Vouches) :
    ∃ later : Ledger, ledger.Extends later ∧
      later.Describes { heap with instances := (heap.instances.alloc object).2 } ∧
      later.Vouches (.object heap.instances.size) := by
  have size : (heap.instances.alloc object).2.size = heap.instances.size + 1 := Store.size_alloc ..
  have grows :
    heap.stock.Grows { heap.stock with objects := (heap.instances.alloc object).2.size } :=
    ⟨Nat.le_refl _, Nat.le_refl _, size ▸ Nat.le_succ _⟩
  have others := describes.others.allocInstance object cls fields
  obtain ⟨goesOn, describes⟩ :=
    describes.restock { heap with instances := (heap.instances.alloc object).2 } rfl rfl grows
      describes.maps others
  have inside := Nat.lt_of_lt_of_eq (Nat.lt_succ_self heap.instances.size) size.symm
  exact ⟨_, goesOn, describes, vouches_object inside⟩

/-- What a map holds under its keys is vouched for. -/
theorem Describes.found (describes : ledger.Describes heap) {ref : Nat} {key : MapKey}
    {pair : Value × Value} (found : (heap.content ref).find? key = some pair) :
    ledger.Vouches pair.2 := by
  unfold Heap.content at found
  cases present : heap.maps.get? ref with
  | none =>
    rw [present] at found
    contradiction
  | some content =>
    rw [present] at found
    have all : content.All fun pair => ledger.Vouches pair.2 := fun entry member =>
      (describes.maps ref content present entry member).value
    exact all.find? found

/-- What a variable holds is vouched for. -/
theorem Describes.lookup? (describes : ledger.Describes heap) {scope : Nat} {name : String}
    {value : Value} (found : heap.lookup? scope name = some value) : ledger.Vouches value := by
  have scopes : heap.scopes.All fun scope => scope.bindings.All ledger.Vouches :=
    describes.others.scopes
  exact Heap.lookup?_all scopes found

end Heaps

section Machines

variable {machine after : Machine}

/-- What a ledger vouches for in the event loop, a later one vouches for. -/
theorem events_extend {events : EventLoop Value} (all : events.All ledger.Vouches)
    (goesOn : ledger.Extends later) : events.All later.Vouches := by
  rw [EventLoop.all_iff] at all ⊢
  constructor
  · intro task member
    have good := all.queue task member
    cases action : task.action with
    | call callee arguments =>
      rw [action] at good
      obtain ⟨goodCallee, goodArguments⟩ := good
      refine ⟨goodCallee.extend goesOn, ?_⟩
      intro argument member
      exact (goodArguments argument member).extend goesOn
    | deliver callback result =>
      rw [action] at good
      exact Vouches.extend good goesOn
    | fail diagnostic => trivial
  · intro operation member callback calls
    exact (all.pending operation member callback calls).extend goesOn

/-- What a machine holds depends on its heap and its event loop only. -/
theorem Balances.of_same (balances : ledger.Balances machine) (heap : after.heap = machine.heap)
    (events : after.events = machine.events) : ledger.Balances after :=
  ⟨heap ▸ balances.heap, events ▸ balances.events⟩

/-- An instance that is vouched for is there. -/
theorem Balances.exists_object (balances : ledger.Balances machine) {ref : Nat}
    (vouches : ledger.Vouches (.object ref)) :
    ∃ object, machine.heap.instances.get? ref = some object := by
  have inside : ref < ledger.stock.objects := vouches.stocked
  rw [← balances.heap.stock] at inside
  exact ⟨_, Array.getElem?_eq_getElem inside⟩

/-- The values in the event loop are vouched for by later ledgers too. -/
theorem Balances.withHeap (balances : ledger.Balances machine) (goesOn : ledger.Extends later)
    {heap : Heap} (describes : later.Describes heap) : later.Balances { machine with heap } :=
  ⟨describes, events_extend balances.events goesOn⟩

end Machines

/-! ## Steps -/

/-- The outcome leaves all maps as they were and a machine that a later ledger describes, which
vouches for the values in the result. -/
def Follows {α : Type} (ledger : Ledger) (before : Machine) (values : α → List Value) :
    Outcome α → Prop
  | .done result after =>
    ∃ later : Ledger, ledger.Extends later ∧ later.Balances after ∧
    before.heap.KeepsMaps after.heap ∧
      ∀ value ∈ values result, later.Vouches value
  | .failed _ after =>
    ∃ later : Ledger, ledger.Extends later ∧ later.Balances after ∧ before.heap.KeepsMaps after.heap
  | .exhausted => True

section Steps

open Run

variable {α β : Type} {machine : Machine} {values : α → List Value} {results : β → List Value}

/-- Giving values that a ledger vouches for follows it. -/
theorem follows_done (balances : ledger.Balances machine) {result : α}
    (vouches : ∀ value ∈ values result, ledger.Vouches value) :
    ledger.Follows machine values (.done result machine) :=
  ⟨ledger, ledger.extends_refl, balances, machine.heap.keepsMaps_refl, vouches⟩

/-- Failing follows every ledger. -/
theorem follows_raise (balances : ledger.Balances machine) (diagnostic : Diagnostic) :
    ledger.Follows machine values (raise diagnostic machine) :=
  ⟨ledger, ledger.extends_refl, balances, machine.heap.keepsMaps_refl⟩

/-- What follows from a later ledger on follows from the earlier one. -/
theorem Follows.trans {after : Machine} {outcome : Outcome α} (goesOn : ledger.Extends later)
    (kept : machine.heap.KeepsMaps after.heap) (follows : later.Follows after values outcome) :
    ledger.Follows machine values outcome := by
  cases outcome with
  | exhausted => trivial
  | failed diagnostic last =>
    obtain ⟨final, further, balances, keptLast⟩ := follows
    exact ⟨final, goesOn.trans further, balances, kept.trans keptLast⟩
  | done result last =>
    obtain ⟨final, further, balances, keptLast, vouches⟩ := follows
    exact ⟨final, goesOn.trans further, balances, kept.trans keptLast, vouches⟩

/-- One computation after another. -/
theorem Follows.bind {first : Run α} {rest : α → Run β}
    (follows : ledger.Follows machine values (first machine))
    (onward : ∀ result after (later : Ledger), first machine = .done result after →
      ledger.Extends later → later.Balances after → (∀ value ∈ values result, later.Vouches value) →
      later.Follows after results (rest result after)) :
    ledger.Follows machine results ((first >>= rest) machine) := by
  cases done : first machine with
  | exhausted =>
    rw [bind_exhausted done]
    trivial
  | failed diagnostic after =>
    rw [done] at follows
    rw [bind_failed done]
    exact follows
  | done result after =>
    rw [done] at follows
    obtain ⟨middle, goesOn, balances, kept, vouches⟩ := follows
    rw [bind_done done]
    exact .trans goesOn kept (onward result after middle done goesOn balances vouches)

/-- Only the wording of failures changes. -/
theorem Follows.mapFailure {run : Run α} (follows : ledger.Follows machine values (run machine))
    (change : Diagnostic → Diagnostic) :
    ledger.Follows machine values (run.mapFailure change machine) := by
  unfold Run.mapFailure
  cases done : run machine <;> rw [done] at follows <;> exact follows

/-- Something is created on the heap. -/
theorem follows_create (balances : ledger.Balances machine) {new : Heap → α × Heap}
    (goesOn : ledger.Extends later) (describes : later.Describes (new machine.heap).2)
    (kept : machine.heap.KeepsMaps (new machine.heap).2)
    (vouches : ∀ value ∈ values (new machine.heap).1, later.Vouches value) :
    ledger.Follows machine values (create new machine) :=
  ⟨later, goesOn, balances.withHeap goesOn describes, kept, vouches⟩

/-- The heap changes, but neither its maps nor the ledger. -/
theorem follows_heap (balances : ledger.Balances machine) {heap : Heap}
    (describes : ledger.Describes heap) (maps : heap.maps = machine.heap.maps) {result : α}
    (vouches : ∀ value ∈ values result, ledger.Vouches value) :
    ledger.Follows machine values (.done result { machine with heap }) :=
  ⟨ledger, ledger.extends_refl, balances.withHeap ledger.extends_refl describes,
    Heap.keepsMaps_of_same maps, vouches⟩

/-- Something new is vouched for. -/
theorem follows_new (balances : ledger.Balances machine) {new : Heap → Value × Heap}
    (made : ∃ later : Ledger, ledger.Extends later ∧ later.Describes (new machine.heap).2 ∧
      later.Vouches (new machine.heap).1)
    (kept : machine.heap.KeepsMaps (new machine.heap).2) :
    ledger.Follows machine (fun value => [value]) (create new machine) := by
  obtain ⟨later, goesOn, describes, vouches⟩ := made
  apply follows_create balances goesOn describes kept
  intro value member
  rw [List.mem_singleton.mp member]
  exact vouches

/-- A new string that no map keeps. -/
theorem follows_newString (balances : ledger.Balances machine) (content : Heap → String)
    {values : Value → List Value} (alone : ∀ value, values value = [value]) :
    ledger.Follows machine values (create (fun heap => heap.newString (content heap)) machine) := by
  have describes := balances.heap.newString False (content machine.heap)
  apply follows_create balances (ledger.extends_addString False) describes
    (Heap.keepsMaps_of_same rfl)
  rw [alone]
  intro value member
  rw [List.mem_singleton.mp member]
  show (ledger.addString False).Vouches (.string machine.heap.strings.size)
  rw [balances.heap.strings]
  exact ledger.vouches_addString

/-- A value with a new identity number. -/
theorem follows_newIdentity (balances : ledger.Balances machine) (make : Nat → Value)
    (number : ∀ number, (make number).identity? = some ⟨.immutable, number⟩)
    (receiver : ∀ number, ∀ inner ∈ (make number).receiver?, ledger.Vouches inner)
    {values : Value → List Value} (alone : ∀ value, values value = [value]) :
    ledger.Follows machine values
      (create (fun heap => (make heap.nextIdentity, heap.newIdentity.2)) machine) := by
  have goesOn := ledger.extends_addIdentity (make machine.heap.nextIdentity)
  have describes := balances.heap.newIdentity (make machine.heap.nextIdentity)
  refine follows_create balances goesOn describes (Heap.keepsMaps_of_same rfl) ?_
  rw [alone]
  intro value member
  rw [List.mem_singleton.mp member]
  exact vouches_addIdentity (balances.heap.identities ▸ number _) (receiver _)

end Steps

end Ledger

end EventScript
