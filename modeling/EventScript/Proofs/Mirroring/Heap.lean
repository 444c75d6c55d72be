import EventScript.Evaluation
import EventScript.Proofs.Mirroring.Pairing

/-!
# Heaps that stand for each other

Two heaps mirror each other (`Heap.Mirrors`) when all objects have contents that mirror each other
and the pairing accounts for all scopes: paired ones bind the same names to values that mirror each
other, blank ones bind nothing. Whatever is done to both alike keeps this, and the search for a
variable ends at paired scopes (`Heap.Mirrors.binder?`), since it passes blank scopes by.
-/

namespace EventScript

section Containers

variable {κ α : Type}

/-- The maps list the same keys, with values that are related. -/
def OrderedMap.Rel (same : α → α → Prop) (map map' : OrderedMap κ α) : Prop :=
  List.Forall₂ (fun entry entry' => entry'.1 = entry.1 ∧
    same entry.2 entry'.2) map.entries map'.entries

/-- The stores have as many objects, with contents that are related. -/
def Store.Rel (same : α → α → Prop) (store store' : Store α) : Prop :=
  ∀ index, Option.Rel same (store.get? index) (store'.get? index)

namespace OrderedMap

variable {same other : α → α → Prop} {map map' : OrderedMap κ α}

/-- Maps that are related are related in a weaker way. -/
theorem Rel.imp (related : map.Rel same map') (implies : ∀ a b, same a b → other a b) :
    map.Rel other map' :=
  List.Forall₂.imp (fun _ _ entry => ⟨entry.1, implies _ _ entry.2⟩) related

/-- Empty maps are related. -/
theorem rel_empty : Rel same ({} : OrderedMap κ α) {} := .nil

/-- Maps with related values list them in the same order. -/
theorem Rel.values (related : map.Rel same map') : List.Forall₂ same map.values map'.values := by
  unfold OrderedMap.values
  rw [List.forall₂_map_left_iff, List.forall₂_map_right_iff]
  exact List.Forall₂.imp (fun _ _ entry => entry.2) related

variable [DecidableEq κ]

/-- What is found under a key is related. -/
theorem Rel.find? (related : map.Rel same map') (key : κ) :
    Option.Rel same (map.find? key) (map'.find? key) := by
  have search : ∀ {entries entries' : List (κ × α)},
      List.Forall₂ (fun entry entry' => entry'.1 = entry.1 ∧
        same entry.2 entry'.2) entries entries' →
      Option.Rel same (findIn key entries) (findIn key entries') := by
    intro entries entries' all
    induction all with
    | nil => exact .none
    | cons entry rest ih =>
      unfold findIn
      rw [entry.1]
      split
      · exact .some entry.2
      · exact ih
  exact search related

/-- Related maps have the same keys. -/
theorem Rel.contains (related : map.Rel same map') (key : κ) :
    map'.contains key = map.contains key := (related.find? key).isSome_eq

/-- Putting related values in under a key leaves related maps. -/
theorem Rel.insert (related : map.Rel same map') (key : κ) {value value' : α}
    (values : same value value') : (map.insert key value).Rel same (map'.insert key value') := by
  have put : ∀ {entries entries' : List (κ × α)},
      List.Forall₂ (fun entry entry' => entry'.1 = entry.1 ∧
        same entry.2 entry'.2) entries entries' →
      List.Forall₂ (fun entry entry' => entry'.1 = entry.1 ∧ same entry.2 entry'.2)
        (insertIn key value entries) (insertIn key value' entries') := by
    intro entries entries' all
    induction all with
    | nil => exact .cons ⟨rfl, values⟩ .nil
    | cons entry rest ih =>
      unfold insertIn
      rw [entry.1]
      split
      · exact .cons ⟨rfl, values⟩ rest
      · exact .cons ⟨rfl, entry.2⟩ ih
  exact put related

/-- Maps made of entries that are related are related. -/
theorem rel_ofList {entries entries' : List (κ × α)}
    (all : List.Forall₂ (fun entry entry' => entry'.1 = entry.1 ∧ same entry.2 entry'.2)
      entries entries') : (ofList entries).Rel same (ofList entries') := by
  have fold : ∀ {map map' : OrderedMap κ α}, map.Rel same map' →
      (entries.foldl (fun map entry => map.insert entry.1 entry.2) map).Rel same
        (entries'.foldl (fun map entry => map.insert entry.1 entry.2) map') := by
    induction all with
    | nil => exact fun related => related
    | cons entry _ ih =>
      intro map map' related
      rw [List.foldl_cons, List.foldl_cons, entry.1]
      exact ih (related.insert _ entry.2)
  exact fold rel_empty

end OrderedMap

namespace Store

variable {same other : α → α → Prop} {store store' : Store α}

/-- Stores that are related are related in a weaker way. -/
theorem Rel.imp (related : store.Rel same store') (implies : ∀ a b, same a b → other a b) :
    store.Rel other store' := fun index => (related index).imp implies

/-- There is nothing outside a store. -/
theorem get?_eq_none_iff {index : Nat} : store.get? index = none ↔ store.size ≤ index :=
  Array.getElem?_eq_none_iff

/-- What is found in a store is inside it. -/
theorem lt_size_of_get? {index : Nat} {content : α} (stored : store.get? index = some content) :
    index < store.size := (Array.getElem?_eq_some_iff.mp stored).1

/-- Where one of the stores has no object, the other has none. -/
theorem Rel.none_iff (related : store.Rel same store') (index : Nat) :
    store.get? index = none ↔ store'.get? index = none := by
  rw [← Option.not_isSome_iff_eq_none, ← Option.not_isSome_iff_eq_none, (related index).isSome_eq]

/-- Related stores have as many places. -/
theorem Rel.size (related : store.Rel same store') : store'.size = store.size := by
  apply Nat.le_antisymm
  · have none := (related.none_iff _).mp (get?_eq_none_iff.mpr (Nat.le_refl _))
    exact get?_eq_none_iff.mp none
  · have none := (related.none_iff _).mpr (get?_eq_none_iff.mpr (Nat.le_refl _))
    exact get?_eq_none_iff.mp none

/-- Allocating related contents leaves related stores. -/
theorem Rel.alloc (related : store.Rel same store') {content content' : α}
    (contents : same content content') :
    (store.alloc content).2.Rel same (store'.alloc content').2 := by
  intro index
  rw [get?_alloc, get?_alloc, related.size]
  split
  · exact .some contents
  · exact related index

/-- Changing the contents of a place alike leaves related stores. -/
theorem Rel.modify (related : store.Rel same store') (index : Nat) {change change' : α → α}
    (changes : ∀ content content', same content content' →
      same (change content) (change' content')) :
    (store.modify index change).Rel same (store'.modify index change') := by
  intro other
  rw [get?_modify, get?_modify]
  split
  · exact (related other).map changes
  · exact related other

end Store

end Containers

/-- The instances are of classes that mirror each other, and so do their fields. -/
structure Instance.Mirrors (pairing : Pairing) (object object' : Instance) : Prop where
  cls : object.cls.Mirrors pairing object'.cls
  fields : object.fields.Rel (Value.Mirrors pairing) object'.fields

/-- The scopes bind the same names to values that mirror each other, inside scopes that meet. -/
structure Scope.Mirrors (pairing : Pairing) (scope scope' : Scope) : Prop where
  bindings : scope.bindings.Rel (Value.Mirrors pairing) scope'.bindings
  parent : Option.Rel pairing.Meets scope.parent scope'.parent

/-- Every scope either stands for another one or is blank, and lies inside an older one, if inside
any. -/
structure ScopesSplit (stands : Nat → Prop) (spare : Nat → Nat → Prop) (scopes : Store Scope) :
    Prop where
  empty : ∀ {scope around : Nat}, spare scope around →
    scopes.get? scope = some { parent := some around } ∧ ¬stands scope
  older : ∀ {scope parent : Nat} {content : Scope}, scopes.get? scope = some content →
    content.parent = some parent → parent < scope
  covered : ∀ {scope : Nat}, scope < scopes.size → stands scope ∨ ∃ around, spare scope around

/-- The pairing accounts for all scopes of both heaps. -/
structure Pairing.Links (pairing : Pairing) (scopes scopes' : Store Scope) : Prop where
  paired : ∀ {scope scope' : Nat}, pairing.paired scope scope' →
    ∃ content content', scopes.get? scope = some content ∧ scopes'.get? scope' = some content' ∧
      content.Mirrors pairing content'
  unique : ∀ {scope scope' other other' : Nat}, pairing.paired scope scope' →
    pairing.paired other other' → (scope = other ↔ scope' = other')
  first : ScopesSplit (fun scope => ∃ scope', pairing.paired scope scope') pairing.blank scopes
  second : ScopesSplit (fun scope' => ∃ scope, pairing.paired scope scope') pairing.blank' scopes'

/-- The heaps have the same objects, with contents that mirror each other, and the pairing accounts
for all their scopes. -/
structure Heap.Mirrors (pairing : Pairing) (heap heap' : Heap) : Prop where
  strings : heap'.strings = heap.strings
  lists : heap.lists.Rel (fun items items' =>
    List.Forall₂ (Value.Mirrors pairing) items.toList items'.toList) heap'.lists
  maps : heap.maps.Rel (OrderedMap.Rel fun pair pair' =>
    pair.1.Mirrors pairing pair'.1 ∧ pair.2.Mirrors pairing pair'.2) heap'.maps
  instances : heap.instances.Rel (Instance.Mirrors pairing) heap'.instances
  scopes : pairing.Links heap.scopes heap'.scopes
  nextIdentity : heap'.nextIdentity = heap.nextIdentity

/-- Instances go on mirroring each other when the pairing grows. -/
theorem Instance.Mirrors.grows {pairing later : Pairing} {object object' : Instance}
    (mirrors : object.Mirrors pairing object') (grown : pairing.Grows later) :
    object.Mirrors later object' :=
  ⟨mirrors.cls.grows grown, mirrors.fields.imp fun _ _ field => field.grows grown⟩

/-- Scopes go on mirroring each other when the pairing grows. -/
theorem Scope.Mirrors.grows {pairing later : Pairing} {scope scope' : Scope}
    (mirrors : scope.Mirrors pairing scope') (grown : pairing.Grows later) :
    scope.Mirrors later scope' :=
  ⟨mirrors.bindings.imp fun _ _ value => value.grows grown,
    mirrors.parent.imp fun _ _ meets => meets.grows grown⟩

/-! ## Scopes -/

namespace ScopesSplit

variable {stands : Nat → Prop} {spare : Nat → Nat → Prop} {scopes : Store Scope}

/-- Scopes stay split when one of them changes that stands for another one. -/
theorem modify (split : ScopesSplit stands spare scopes) {scope : Nat} (known : stands scope)
    {change : Scope → Scope} (keeps : ∀ content, (change content).parent = content.parent) :
    ScopesSplit stands spare (scopes.modify scope change) where
  empty := by
    intro other around blank
    obtain ⟨stored, unknown⟩ := split.empty blank
    have different : scope ≠ other := fun same => unknown (same ▸ known)
    rw [Store.get?_modify, if_neg different]
    exact ⟨stored, unknown⟩
  older := by
    intro other parent content stored around
    rw [Store.get?_modify] at stored
    by_cases same : scope = other
    · rw [if_pos same] at stored
      obtain ⟨before, storedBefore, rfl⟩ := Option.map_eq_some_iff.mp stored
      exact split.older storedBefore ((keeps before).symm.trans around)
    · rw [if_neg same] at stored
      exact split.older stored around
  covered := by
    intro other inside
    rw [Store.size_modify] at inside
    exact split.covered inside

/-- A new scope lies inside an older one. -/
theorem older_alloc (split : ScopesSplit stands spare scopes) {parent : Option Nat}
    (inside : ∀ around ∈ parent, around < scopes.size) {scope around : Nat} {content : Scope}
    (stored : (scopes.alloc { parent }).2.get? scope = some content)
    (above : content.parent = some around) : around < scope := by
  rw [Store.get?_alloc] at stored
  by_cases new : scope = scopes.size
  · rw [if_pos new] at stored
    obtain rfl := Option.some.inj stored
    exact new ▸ inside around above
  · rw [if_neg new] at stored
    exact split.older stored above

/-- A blank scope is so after another one was added. -/
theorem empty_alloc (split : ScopesSplit stands spare scopes) (content : Scope) {scope around : Nat}
    (blank : spare scope around) :
    (scopes.alloc content).2.get? scope = some { parent := some around } ∧ scope ≠ scopes.size ∧
      ¬stands scope := by
  obtain ⟨stored, unknown⟩ := split.empty blank
  have before : scope ≠ scopes.size := Nat.ne_of_lt (Store.lt_size_of_get? stored)
  rw [Store.get?_alloc, if_neg before]
  exact ⟨stored, before, unknown⟩

/-- A new scope may stand for another one. -/
theorem allocStanding (split : ScopesSplit stands spare scopes) {parent : Option Nat}
    (inside : ∀ around ∈ parent, around < scopes.size) :
    ScopesSplit (fun scope => stands scope ∨
      scope = scopes.size) spare (scopes.alloc { parent }).2 where
  empty := by
    intro scope around blank
    obtain ⟨stored, before, unknown⟩ := split.empty_alloc { parent } blank
    exact ⟨stored, fun known => known.elim unknown before⟩
  older := split.older_alloc inside
  covered := by
    intro scope bound
    rw [Store.size_alloc] at bound
    by_cases new : scope = scopes.size
    · exact .inl (.inr new)
    · have before : scope < scopes.size := by omega
      exact (split.covered before).imp_left .inl

/-- A new scope may be blank. -/
theorem allocBlank (split : ScopesSplit stands spare scopes)
    (bounded : ∀ {scope}, stands scope → scope < scopes.size) {parent : Nat}
    (inside : parent < scopes.size) :
    ScopesSplit stands (fun scope around => spare scope around ∨ scope = scopes.size ∧
      around = parent)
      (scopes.alloc { parent := some parent }).2 where
  empty := by
    rintro scope around (blank | ⟨rfl, rfl⟩)
    · obtain ⟨stored, -, unknown⟩ := split.empty_alloc { parent := some parent } blank
      exact ⟨stored, unknown⟩
    · rw [Store.get?_alloc, if_pos rfl]
      exact ⟨rfl, fun known => Nat.lt_irrefl _ (bounded known)⟩
  older := split.older_alloc fun around member => Option.some.inj member ▸ inside
  covered := by
    intro scope bound
    rw [Store.size_alloc] at bound
    by_cases new : scope = scopes.size
    · exact .inr ⟨parent, .inr ⟨new, rfl⟩⟩
    · have before : scope < scopes.size := by omega
      exact (split.covered before).imp_right fun ⟨around, blank⟩ => ⟨around, .inl blank⟩

end ScopesSplit

namespace Pairing

/-- Two more scopes stand for each other. -/
def pair (pairing : Pairing) (scope scope' : Nat) : Pairing :=
  { pairing with
    paired := fun other other' => pairing.paired other other' ∨ other = scope ∧ other' = scope' }

/-- One more scope of the first heap is blank. -/
def skip (pairing : Pairing) (scope parent : Nat) : Pairing :=
  { pairing with blank := fun other around => pairing.blank other around ∨ other = scope ∧
    around = parent }

/-- One more scope of the second heap is blank. -/
def skip' (pairing : Pairing) (scope parent : Nat) : Pairing :=
  { pairing with
    blank' := fun other around => pairing.blank' other around ∨ other = scope ∧ around = parent }

variable {pairing : Pairing} {scopes scopes' : Store Scope} {scope scope' : Nat}

/-- Pairing two more scopes makes a pairing grow. -/
theorem grows_pair (pairing : Pairing) (scope scope' : Nat) :
    pairing.Grows (pairing.pair scope scope') :=
  ⟨.inl, id, id⟩

/-- A blank scope on the first side makes a pairing grow. -/
theorem grows_skip (pairing : Pairing) (scope parent : Nat) :
    pairing.Grows (pairing.skip scope parent) :=
  ⟨id, .inl, id⟩

/-- A blank scope on the second side makes a pairing grow. -/
theorem grows_skip' (pairing : Pairing) (scope parent : Nat) :
    pairing.Grows (pairing.skip' scope parent) :=
  ⟨id, id, .inl⟩

/-- Scopes that have been paired are paired. -/
theorem pair_paired (pairing : Pairing) (scope scope' : Nat) :
    (pairing.pair scope scope').paired scope scope' := .inr ⟨rfl, rfl⟩

/-- A scope that has been skipped on the first side is blank. -/
theorem skip_blank (pairing : Pairing) (scope parent : Nat) :
    (pairing.skip scope parent).blank scope parent := .inr ⟨rfl, rfl⟩

/-- A scope that has been skipped on the second side is blank. -/
theorem skip'_blank' (pairing : Pairing) (scope parent : Nat) :
    (pairing.skip' scope parent).blank' scope parent := .inr ⟨rfl, rfl⟩

namespace Links

/-- Paired scopes are there. -/
theorem paired_lt (links : pairing.Links scopes scopes') (paired : pairing.paired scope scope') :
    scope < scopes.size ∧ scope' < scopes'.size := by
  obtain ⟨content, content', stored, stored', -⟩ := links.paired paired
  exact ⟨Store.lt_size_of_get? stored, Store.lt_size_of_get? stored'⟩

/-- Scopes that meet are there. -/
theorem meets_lt (links : pairing.Links scopes scopes') (meets : pairing.Meets scope scope') :
    scope < scopes.size ∧ scope' < scopes'.size := by
  induction meets with
  | paired paired => exact links.paired_lt paired
  | left blank _ ih => exact ⟨Store.lt_size_of_get? (links.first.empty blank).1, ih.2⟩
  | right blank _ ih => exact ⟨ih.1, Store.lt_size_of_get? (links.second.empty blank).1⟩

/-- Paired scopes may change alike. -/
theorem modify (links : pairing.Links scopes scopes') (paired : pairing.paired scope scope')
    {change change' : Scope → Scope} (keeps : ∀ content, (change content).parent = content.parent)
    (keeps' : ∀ content, (change' content).parent = content.parent)
    (changes : ∀ content content', content.Mirrors pairing content' →
      (change content).Mirrors pairing (change' content')) :
    pairing.Links (scopes.modify scope change) (scopes'.modify scope' change') where
  paired := by
    intro other other' linked
    obtain ⟨content, content', stored, stored', mirrors⟩ := links.paired linked
    rw [Store.get?_modify, Store.get?_modify, stored, stored']
    by_cases same : scope = other
    · rw [if_pos same, if_pos ((links.unique paired linked).mp same)]
      exact ⟨_, _, rfl, rfl, changes _ _ mirrors⟩
    · rw [if_neg same, if_neg fun same' => same ((links.unique paired linked).mpr same')]
      exact ⟨_, _, rfl, rfl, mirrors⟩
  unique := links.unique
  first := links.first.modify ⟨scope', paired⟩ keeps
  second := links.second.modify ⟨scope, paired⟩ keeps'

/-- What paired scopes hold is not changed by scopes that are added. -/
theorem paired_alloc (links : pairing.Links scopes scopes') {later : Pairing}
    (grown : pairing.Grows later) {added added' : Store Scope}
    (same : ∀ {index}, index < scopes.size → added.get? index = scopes.get? index)
    (same' : ∀ {index}, index < scopes'.size → added'.get? index = scopes'.get? index)
    (paired : pairing.paired scope scope') :
    ∃ content content', added.get? scope = some content ∧ added'.get? scope' = some content' ∧
      content.Mirrors later content' := by
  obtain ⟨content, content', stored, stored', mirrors⟩ := links.paired paired
  refine ⟨content, content', ?_, ?_, mirrors.grows grown⟩
  · rw [same (links.paired_lt paired).1, stored]
  · rw [same' (links.paired_lt paired).2, stored']

end Links

end Pairing

/-- The objects that were there stay what they are. -/
theorem Store.get?_alloc_of_lt {α : Type} (store : Store α) (content : α) {index : Nat}
    (inside : index < store.size) : (store.alloc content).2.get? index = store.get? index := by
  rw [get?_alloc, if_neg (Nat.ne_of_lt inside)]

namespace Pairing.Links

variable {pairing : Pairing} {scopes scopes' : Store Scope}

/-- New scopes inside scopes that meet may stand for each other. -/
theorem pair (links : pairing.Links scopes scopes') {parent parent' : Option Nat}
    (parents : Option.Rel pairing.Meets parent parent') :
    (pairing.pair scopes.size scopes'.size).Links (scopes.alloc { parent }).2
      (scopes'.alloc { parent := parent' }).2 where
  paired := by
    rintro scope scope' (paired | ⟨rfl, rfl⟩)
    · exact links.paired_alloc (pairing.grows_pair _ _) (scopes.get?_alloc_of_lt _)
        (scopes'.get?_alloc_of_lt _) paired
    · rw [Store.get?_alloc, Store.get?_alloc, if_pos rfl, if_pos rfl]
      exact ⟨_, _, rfl, rfl, OrderedMap.rel_empty,
        parents.imp fun _ _ meets => meets.grows (pairing.grows_pair _ _)⟩
  unique := by
    rintro scope scope' other other' (paired | ⟨rfl, rfl⟩) (linked | ⟨rfl, rfl⟩)
    · exact links.unique paired linked
    · obtain ⟨inside, inside'⟩ := links.paired_lt paired
      omega
    · obtain ⟨inside, inside'⟩ := links.paired_lt linked
      omega
    · exact iff_of_true rfl rfl
  first := by
    have stands :
      (fun scope => ∃ scope', (pairing.pair scopes.size scopes'.size).paired scope scope') =
        fun scope => (∃ scope', pairing.paired scope scope') ∨ scope = scopes.size := by
      funext scope
      simp [Pairing.pair, exists_or]
    rw [stands]
    refine links.first.allocStanding fun around member => ?_
    cases parents with
    | none => contradiction
    | some meets => exact Option.some.inj member ▸ (links.meets_lt meets).1
  second := by
    have stands :
      (fun scope' => ∃ scope, (pairing.pair scopes.size scopes'.size).paired scope scope') =
        fun scope' => (∃ scope, pairing.paired scope scope') ∨ scope' = scopes'.size := by
      funext scope
      simp [Pairing.pair, exists_or]
    rw [stands]
    refine links.second.allocStanding fun around member => ?_
    cases parents with
    | none => contradiction
    | some meets => exact Option.some.inj member ▸ (links.meets_lt meets).2

/-- A new scope of the first heap may be blank. -/
theorem skip (links : pairing.Links scopes scopes') {parent : Nat} (inside : parent < scopes.size) :
    (pairing.skip scopes.size parent).Links (scopes.alloc { parent := some parent }).2 scopes' where
  paired := links.paired_alloc (pairing.grows_skip _ _) (scopes.get?_alloc_of_lt _) fun _ => rfl
  unique := links.unique
  first := links.first.allocBlank (fun ⟨_, paired⟩ => (links.paired_lt paired).1) inside
  second := links.second

/-- A new scope of the second heap may be blank. -/
theorem skip' (links : pairing.Links scopes scopes') {parent : Nat}
    (inside : parent < scopes'.size) :
    (pairing.skip' scopes'.size parent).Links scopes
      (scopes'.alloc { parent := some parent }).2 where
  paired := links.paired_alloc (pairing.grows_skip' _ _) (fun _ => rfl) (scopes'.get?_alloc_of_lt _)
  unique := links.unique
  first := links.first
  second := links.second.allocBlank (fun ⟨_, paired⟩ => (links.paired_lt paired).2) inside

end Pairing.Links

/-! ## Objects -/

namespace Heap.Mirrors

variable {pairing : Pairing} {heap heap' : Heap} (mirrors : heap.Mirrors pairing heap')
include mirrors

/-- Values that are on the heaps go on mirroring each other when scopes are added. -/
theorem grows {later : Pairing} (grown : pairing.Grows later) {scopes scopes' : Store Scope}
    (links : later.Links scopes scopes') :
    Heap.Mirrors later { heap with scopes } { heap' with scopes := scopes' } where
  strings := mirrors.strings
  lists := mirrors.lists.imp fun _ _ items => items.imp fun _ _ value => value.grows grown
  maps := mirrors.maps.imp fun _ _ content =>
    content.imp fun _ _ pair => ⟨pair.1.grows grown, pair.2.grows grown⟩
  instances := mirrors.instances.imp fun _ _ object => object.grows grown
  scopes := links
  nextIdentity := mirrors.nextIdentity

/-- New scopes inside scopes that meet may be paired. -/
theorem newScope {parent parent' : Option Nat} (parents : Option.Rel pairing.Meets parent parent') :
    (heap.newScope parent).2.Mirrors
      (pairing.pair (heap.newScope parent).1 (heap'.newScope parent').1)
        (heap'.newScope parent').2 :=
  mirrors.grows (pairing.grows_pair _ _) (mirrors.scopes.pair parents)

/-- A new scope on the first side may be left blank. -/
theorem skip {parent : Nat} (inside : parent < heap.scopes.size) :
    (heap.newScope (some parent)).2.Mirrors (pairing.skip (heap.newScope (some parent)).1 parent)
      heap' :=
  mirrors.grows (pairing.grows_skip _ _) (mirrors.scopes.skip inside)

/-- A new scope on the second side may be left blank. -/
theorem skip' {parent : Nat} (inside : parent < heap'.scopes.size) :
    heap.Mirrors (pairing.skip' (heap'.newScope (some parent)).1 parent)
      (heap'.newScope (some parent)).2 :=
  mirrors.grows (pairing.grows_skip' _ _) (mirrors.scopes.skip' inside)

/-- Binding a name to values that mirror each other in paired scopes keeps the heaps alike. -/
theorem define {scope scope' : Nat} (paired : pairing.paired scope scope') (name : String)
    {value value' : Value} (values : value.Mirrors pairing value') :
    (heap.define scope name value).Mirrors pairing (heap'.define scope' name value') :=
  { mirrors with
    scopes := mirrors.scopes.modify paired (fun _ => rfl) (fun _ => rfl) fun _ _ content =>
      { content with bindings := content.bindings.insert name values } }

/-- The texts of a string are the same. -/
theorem text (ref : Nat) : heap'.text ref = heap.text ref := by
  unfold Heap.text
  rw [mirrors.strings]

/-- The items of a list mirror each other. -/
theorem items (ref : Nat) :
    List.Forall₂ (Value.Mirrors pairing) (heap.items ref).toList (heap'.items ref).toList :=
  (mirrors.lists ref).getD .nil

/-- The entries of a map mirror each other. -/
theorem content (ref : Nat) : (heap.content ref).Rel (fun pair pair' =>
    pair.1.Mirrors pairing pair'.1 ∧ pair.2.Mirrors pairing pair'.2) (heap'.content ref) :=
  (mirrors.maps ref).getD OrderedMap.rel_empty

/-- Where there is no instance on the one heap, there is none on the other. -/
theorem object (ref : Nat) :
    (heap.object ref).Mirrors pairing (heap'.object ref) ∨ heap'.object ref = heap.object ref ∧
      heap.object ref = default := by
  unfold Heap.object
  rcases (mirrors.instances ref).cases with ⟨first, second⟩ | ⟨object, object', first, second,
    objects⟩
  · rw [first, second]
    exact .inr ⟨rfl, rfl⟩
  · rw [first, second]
    exact .inl objects

/-- New strings are alike. -/
theorem newString (content : String) :
    (heap.newString content).1.Mirrors pairing (heap'.newString content).1 ∧
      (heap.newString content).2.Mirrors pairing (heap'.newString content).2 := by
  unfold Heap.newString
  rw [mirrors.strings]
  exact ⟨.string _, { mirrors with strings := rfl }⟩

/-- New lists of items that mirror each other are alike. -/
theorem newList {items items' : Array Value}
    (values : List.Forall₂ (Value.Mirrors pairing) items.toList items'.toList) :
    (heap.newList items).1.Mirrors pairing (heap'.newList items').1 ∧
      (heap.newList items).2.Mirrors pairing (heap'.newList items').2 := by
  have same : heap'.lists.size = heap.lists.size := mirrors.lists.size
  refine ⟨?_, { mirrors with lists := mirrors.lists.alloc values }⟩
  show Value.Mirrors pairing (.list heap.lists.size) (.list heap'.lists.size)
  rw [same]
  exact .list _

/-- New maps of entries that mirror each other are alike. -/
theorem newMap {content content' : MapContent} (contents : content.Rel (fun pair pair' =>
      pair.1.Mirrors pairing pair'.1 ∧ pair.2.Mirrors pairing pair'.2) content') :
    (heap.newMap content).1.Mirrors pairing (heap'.newMap content').1 ∧
      (heap.newMap content).2.Mirrors pairing (heap'.newMap content').2 := by
  have same : heap'.maps.size = heap.maps.size := mirrors.maps.size
  refine ⟨?_, { mirrors with maps := mirrors.maps.alloc contents }⟩
  show Value.Mirrors pairing (.map heap.maps.size) (.map heap'.maps.size)
  rw [same]
  exact .map _

/-- New instances of classes that mirror each other are alike. -/
theorem newInstance {cls cls' : Class} (classes : cls.Mirrors pairing cls') :
    (heap.newInstance cls).1.Mirrors pairing (heap'.newInstance cls').1 ∧
      (heap.newInstance cls).2.Mirrors pairing (heap'.newInstance cls').2 := by
  have same : heap'.instances.size = heap.instances.size := mirrors.instances.size
  refine ⟨?_, { mirrors with instances := mirrors.instances.alloc ⟨classes, OrderedMap.rel_empty⟩ }⟩
  show Value.Mirrors pairing (.object heap.instances.size) (.object heap'.instances.size)
  rw [same]
  exact .object _

/-- New identities are the same. -/
theorem newIdentity : heap'.newIdentity.1 = heap.newIdentity.1 ∧
    heap.newIdentity.2.Mirrors pairing heap'.newIdentity.2 :=
  ⟨mirrors.nextIdentity, { mirrors with nextIdentity := congrArg Nat.succ mirrors.nextIdentity }⟩

/-- New functions of closures that mirror each other are alike. -/
theorem newFunction {closure closure' : Closure} (closures : closure.Mirrors pairing closure') :
    (heap.newFunction closure).1.Mirrors pairing (heap'.newFunction closure').1 ∧
      (heap.newFunction closure).2.Mirrors pairing (heap'.newFunction closure').2 := by
  obtain ⟨same, later⟩ := mirrors.newIdentity
  refine ⟨?_, later⟩
  show Value.Mirrors pairing (.function heap.newIdentity.1 closure)
    (.function heap'.newIdentity.1 closure')
  rw [same]
  exact .function _ closures

/-- Binding methods that mirror each other to such objects is alike. -/
theorem newMethod {receiver receiver' : Value} {method method' : Method}
    (receivers : receiver.Mirrors pairing receiver') (methods : method.Mirrors pairing method') :
    (heap.newMethod receiver method).1.Mirrors pairing (heap'.newMethod receiver' method').1 ∧
      (heap.newMethod receiver method).2.Mirrors pairing (heap'.newMethod receiver' method').2 := by
  obtain ⟨same, later⟩ := mirrors.newIdentity
  refine ⟨?_, later⟩
  show Value.Mirrors pairing (.method heap.newIdentity.1 receiver method)
    (.method heap'.newIdentity.1 receiver' method')
  rw [same]
  exact .method _ receivers methods

/-- Binding a built-in method to values that mirror each other is alike. -/
theorem newBuiltin (called : Builtin) {receiver receiver' : Value}
    (receivers : receiver.Mirrors pairing receiver') :
    (heap.newBuiltin called (some receiver)).1.Mirrors pairing
        (heap'.newBuiltin called (some receiver')).1 ∧
      (heap.newBuiltin called (some receiver)).2.Mirrors pairing
        (heap'.newBuiltin called (some receiver')).2 := by
  obtain ⟨same, later⟩ := mirrors.newIdentity
  refine ⟨?_, later⟩
  show Value.Mirrors pairing (.builtin heap.newIdentity.1 called (some receiver))
    (.builtin heap'.newIdentity.1 called (some receiver'))
  rw [same]
  exact .builtinMethod _ called receivers

/-- Changing the text of a string keeps the heaps alike. -/
theorem setText (ref : Nat) (content : String) :
    (heap.setText ref content).Mirrors pairing (heap'.setText ref content) :=
  { mirrors with strings := congrArg (fun strings => strings.set ref content) mirrors.strings }

/-- Changing the items of a list alike keeps the heaps alike. -/
theorem modifyItems (ref : Nat) {change change' : Array Value → Array Value}
    (changes : ∀ items items' : Array Value,
      List.Forall₂ (Value.Mirrors pairing) items.toList items'.toList →
      List.Forall₂ (Value.Mirrors pairing) (change items).toList (change' items').toList) :
    (heap.modifyItems ref change).Mirrors pairing (heap'.modifyItems ref change') :=
  { mirrors with lists := mirrors.lists.modify ref changes }

/-- Setting a key of a map to values that mirror each other keeps the heaps alike. -/
theorem insertContent (ref : Nat) (key : MapKey) {pair pair' : Value × Value}
    (pairs : pair.1.Mirrors pairing pair'.1 ∧ pair.2.Mirrors pairing pair'.2) :
    (heap.modifyContent ref fun content => content.insert key pair).Mirrors pairing
      (heap'.modifyContent ref fun content => content.insert key pair') :=
  { mirrors with maps := mirrors.maps.modify ref fun _ _ content => content.insert key pairs }

/-- Setting a field to values that mirror each other keeps the heaps alike. -/
theorem setField (ref : Nat) (name : String) {value value' : Value}
    (values : value.Mirrors pairing value') :
    (heap.setField ref name value).Mirrors pairing (heap'.setField ref name value') :=
  { mirrors with
    instances := mirrors.instances.modify ref fun _ _ object =>
      ⟨object.cls, object.fields.insert name values⟩ }

/-- Values that mirror each other are filed under the same key. -/
theorem keyOf {value value' : Value} (values : value.Mirrors pairing value') :
    heap'.keyOf value' = heap.keyOf value := by
  cases values with
  | string ref => exact congrArg MapKey.string (mirrors.text ref)
  | classObject classes =>
    exact congrArg (fun number => MapKey.identity ⟨.immutable, number⟩) classes.body.identity
  | _ => rfl

/-- Maps made of pairs that mirror each other do so. -/
theorem contentOf {pairs pairs' : List (Value × Value)}
    (all : List.Forall₂
      (fun pair pair' => pair.1.Mirrors pairing pair'.1 ∧ pair.2.Mirrors pairing pair'.2)
      pairs pairs') :
    (heap.contentOf pairs).Rel (fun pair pair' =>
      pair.1.Mirrors pairing pair'.1 ∧
      pair.2.Mirrors pairing pair'.2) (heap'.contentOf pairs') := by
  apply OrderedMap.rel_ofList
  rw [List.forall₂_map_left_iff, List.forall₂_map_right_iff]
  exact all.imp fun _ _ pair => ⟨mirrors.keyOf pair.1, pair⟩

/-- Equality is told alike of values that mirror each other. -/
theorem equal {left left' right right' : Value} (lefts : left.Mirrors pairing left')
    (rights : right.Mirrors pairing right') : heap'.equal left' right' = heap.equal left right := by
  have same := lefts.identity?
  have same' := rights.identity?
  cases lefts <;> cases rights <;> simp only [Heap.equal, mirrors.text, same, same']

/-! ## Variables -/

/-- The search for a name ends at paired scopes. -/
theorem binderWithin? (name : String) {bound bound' scope scope' : Nat}
    (meets : pairing.Meets scope scope') (enough : scope < bound) (enough' : scope' < bound') :
    Option.Rel pairing.paired (heap.binderWithin? name bound scope)
      (heap'.binderWithin? name bound' scope') := by
  -- Every step goes outward on one of the sides at least.
  induction total : scope + scope' using Nat.strongRecOn generalizing bound bound' scope scope' with
  | ind total ih =>
  subst total
  obtain ⟨rest, rfl⟩ := Nat.exists_eq_succ_of_ne_zero (Nat.ne_zero_of_lt enough)
  obtain ⟨rest', rfl⟩ := Nat.exists_eq_succ_of_ne_zero (Nat.ne_zero_of_lt enough')
  cases meets with
  | paired paired =>
    obtain ⟨content, content', stored, stored', bindings, parents⟩ := mirrors.scopes.paired paired
    have older : ∀ around, content.parent = some around → around < scope := fun _ =>
      mirrors.scopes.first.older stored
    have older' : ∀ around, content'.parent = some around → around < scope' := fun _ =>
      mirrors.scopes.second.older stored'
    simp only [Heap.binderWithin?, stored, stored', bindings.contains name]
    split
    · exact .some paired
    · obtain ⟨around, _⟩ := content
      obtain ⟨around', _⟩ := content'
      cases parents with
      | none => exact .none
      | some meets =>
        have less := older _ rfl
        have less' := older' _ rfl
        exact ih _ (by omega) meets (by omega) (by omega) rfl
  | @left _ around _ blank meets =>
    have stored := (mirrors.scopes.first.empty blank).1
    have less := mirrors.scopes.first.older stored rfl
    rw [Heap.binderWithin?, stored]
    exact ih (around + scope') (by omega) meets (by omega) enough' rfl
  | @right _ _ around blank meets =>
    have stored := (mirrors.scopes.second.empty blank).1
    have less := mirrors.scopes.second.older stored rfl
    have onward := ih (scope + around) (by omega) meets enough (show around < rest' by omega) rfl
    have outward :
      heap'.binderWithin? name (rest' + 1) scope' = heap'.binderWithin? name rest' around := by
      rw [Heap.binderWithin?, stored]
      rfl
    exact outward ▸ onward

/-- From scopes that meet a name is found in paired scopes, or in none. -/
theorem binder? (name : String) {scope scope' : Nat} (meets : pairing.Meets scope scope') :
    Option.Rel pairing.paired (heap.binder? scope name) (heap'.binder? scope' name) :=
  mirrors.binderWithin? name meets (Nat.lt_succ_self _) (Nat.lt_succ_self _)

/-- A variable holds values that mirror each other. -/
theorem lookup? (name : String) {scope scope' : Nat} (meets : pairing.Meets scope scope') :
    Option.Rel (Value.Mirrors pairing) (heap.lookup? scope name) (heap'.lookup? scope' name) := by
  unfold Heap.lookup?
  rcases (mirrors.binder? name meets).cases with ⟨first, second⟩ | ⟨binder, binder', first,
    second, paired⟩
  · rw [first, second]
    exact .none
  · obtain ⟨content, content', stored, stored', contents⟩ := mirrors.scopes.paired paired
    simp only [first, second, stored, stored', Option.bind_some]
    exact contents.bindings.find? name

omit mirrors in
/-- Binding several names alike in paired scopes keeps the heaps alike. -/
theorem defineAll (mirrors : heap.Mirrors pairing heap') {scope scope' : Nat}
    (paired : pairing.paired scope scope') {bindings bindings' : List (String × Value)}
    (all : List.Forall₂ (fun binding binding' =>
      binding'.1 = binding.1 ∧ binding.2.Mirrors pairing binding'.2) bindings bindings') :
    (heap.defineAll scope bindings).Mirrors pairing (heap'.defineAll scope' bindings') := by
  induction all generalizing heap heap' with
  | nil => exact mirrors
  | @cons first first' rest rest' binding _ ih =>
    obtain ⟨name, value⟩ := first
    obtain ⟨name', value'⟩ := first'
    obtain ⟨same, values⟩ := binding
    obtain rfl : name' = name := same
    exact ih (mirrors.define paired name' values)

end Heap.Mirrors

end EventScript
