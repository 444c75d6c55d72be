import EventScript.Proofs.Evaluation.HandlingBuiltins
import EventScript.Proofs.Evaluation.Trace
import Mathlib.Data.List.Induction

/-!
# What is filed in maps

A map made by `map` holds what the calls of `set` on it have filed since, one after the other, and
nothing else (`Ledger.Accounts`). A call of a built-in function keeps this up
(`Ledger.Accounts.call`), and so does all else that changes no map. So the value found under a key
is the one that was filed under it last (`OrderedMap.find?_ofList`), and the keys stand in the order
in which they were first filed (`OrderedMap.keys_ofList`).
-/

namespace EventScript

namespace OrderedMap

variable {κ α β : Type}

/-- The map with other values under its keys. -/
def mapValues (change : α → β) (map : OrderedMap κ α) : OrderedMap κ β :=
  ⟨map.entries.map fun entry => (entry.1, change entry.2)⟩

/-- Changing the values of a map leaves its keys. -/
theorem keys_mapValues (change : α → β) (map : OrderedMap κ α) :
    (map.mapValues change).keys = map.keys :=
  List.map_map.trans (congrArg (List.map · map.entries) rfl)

variable [DecidableEq κ]

/-- Looking up in a map of changed values finds the changed value. -/
theorem find?_mapValues (change : α → β) (map : OrderedMap κ α) (key : κ) :
    (map.mapValues change).find? key = (map.find? key).map change := by
  have search : ∀ entries : List (κ × α),
      findIn key (entries.map fun entry => (entry.1, change entry.2)) =
        (findIn key entries).map change := by
    intro entries
    induction entries with
    | nil => rfl
    | cons first rest ih =>
      simp only [List.map_cons, findIn]
      split
      · rfl
      · exact ih
  exact search map.entries

/-- Values may be changed before or after one is put in. -/
theorem mapValues_insert (change : α → β) (map : OrderedMap κ α) (key : κ) (value : α) :
    (map.insert key value).mapValues change = (map.mapValues change).insert key (change value) := by
  have put : ∀ entries : List (κ × α),
      (insertIn key value entries).map (fun entry => (entry.1, change entry.2)) =
        insertIn key (change value) (entries.map fun entry => (entry.1, change entry.2)) := by
    intro entries
    induction entries with
    | nil => rfl
    | cons first rest ih =>
      simp only [List.map_cons, insertIn]
      split
      · rfl
      · exact congrArg (List.cons _) ih
  exact congrArg mk (put map.entries)

/-- The last entry of a list is put into the map last. -/
theorem ofList_concat (entries : List (κ × α)) (entry : κ × α) :
    ofList (entries ++ [entry]) = (ofList entries).insert entry.1 entry.2 := List.foldl_append

/-- What is found under a key was put in last under it. -/
theorem find?_ofList (entries : List (κ × α)) (key : κ) :
    match (ofList entries).find? key with
    | some value => ∃ front back, entries = front ++ (key, value) :: back ∧
        ∀ entry ∈ back, entry.1 ≠ key
    | none => ∀ entry ∈ entries, entry.1 ≠ key := by
  induction entries using List.reverseRecOn with
  | nil => exact List.forall_mem_nil _
  | append_singleton entries last ih =>
    rw [ofList_concat, find?_insert]
    by_cases same : last.1 = key
    · rw [if_pos same]
      exact ⟨entries, [], by rw [← same], nofun⟩
    · rw [if_neg same]
      cases found : (ofList entries).find? key with
      | none =>
        rw [found] at ih
        intro entry member
        rcases List.mem_append.mp member with early | here
        · exact ih entry early
        · rwa [List.mem_singleton.mp here]
      | some value =>
        rw [found] at ih
        obtain ⟨front, back, rfl, others⟩ := ih
        refine ⟨front, back ++ [last], by simp, fun entry member => ?_⟩
        rcases List.mem_append.mp member with early | here
        · exact others entry early
        · rwa [List.mem_singleton.mp here]

/-- The keys stand in the order in which each was first put in. -/
theorem keys_ofList (entries : List (κ × α)) :
    (ofList entries).keys = (entries.map Prod.fst).eraseDups := by
  induction entries using List.reverseRecOn with
  | nil => rfl
  | append_singleton entries last ih =>
    rw [ofList_concat, keys_insert, List.map_append, List.eraseDups_append, ih]
    by_cases present : last.1 ∈ entries.map Prod.fst
    · rw [if_pos (List.mem_eraseDups.mpr present)]
      simp [List.removeAll, present]
    · rw [if_neg fun member => present (List.mem_eraseDups.mp member)]
      simp [List.removeAll, present, List.eraseDups_cons]

end OrderedMap

/-! ## Maps and the calls that change them -/

namespace Heap

/-- The value that a map has for each key. -/
def filed (heap : Heap) (ref : Nat) : OrderedMap MapKey Value :=
  (heap.content ref).mapValues Prod.snd

variable {before after : Heap} {ref : Nat}

/-- What is filed in a map depends on the map only. -/
theorem filed_eq_of_get? (same : after.maps.get? ref = before.maps.get? ref) :
    after.filed ref = before.filed ref := by
  unfold filed content
  rw [same]

/-- What is in maps stays there while no map is changed. -/
theorem KeepsMaps.filed_eq (kept : before.KeepsMaps after) (inside : ref < before.maps.size) :
    after.filed ref = before.filed ref := by
  obtain ⟨content, present⟩ : ∃ content, before.maps.get? ref = some content :=
    ⟨_, Array.getElem?_eq_getElem inside⟩
  obtain ⟨_, present', rfl⟩ := kept ref content present
  exact filed_eq_of_get? (present'.trans present.symm)

/-- Setting a value changes one map. -/
theorem filed_modify {other : Nat} {key : MapKey} {kept value : Value}
    (inside : ref < before.maps.size)
    (maps : after.maps = before.maps.modify other fun content => content.insert key (kept, value)) :
    after.filed ref =
      if other = ref then (before.filed ref).insert key value else before.filed ref := by
  obtain ⟨content, present⟩ : ∃ content, before.maps.get? ref = some content :=
    ⟨_, Array.getElem?_eq_getElem inside⟩
  unfold filed Heap.content
  rw [maps, Store.get?_modify, present]
  split
  · exact OrderedMap.mapValues_insert Prod.snd content key (kept, value)
  · rfl

/-- A new map is empty. -/
theorem filed_newMap (heap : Heap) : (heap.newMap {}).2.filed heap.maps.size = {} := by
  unfold filed content
  show (((heap.maps.alloc {}).2.get? heap.maps.size).getD {}).mapValues Prod.snd = {}
  rw [Store.get?_alloc, if_pos rfl]
  rfl

end Heap

namespace Occasion

/-- A map is made by a call of `map`. -/
inductive MakesMap : Occasion → Nat → Prop where
  | intro {identity ref : Nat} {receiver : Option Value} {span : Span} {machine later : Machine}
      (made : Builtin.map.call receiver [] span machine = .done (.map ref) later) :
      MakesMap ⟨.call (.builtin identity .map receiver) [] span, machine⟩ ref

/-- The map that a call of `map` makes. -/
def made? : Occasion → Option Nat
  | ⟨.call (.builtin _ .map _) [] _, machine⟩ => some machine.heap.maps.size
  | _ => none

/-- The map that is found to be made on an occasion is the one that the occasion makes. -/
theorem made?_eq_some {occasion : Occasion} {ref : Nat} :
    occasion.made? = some ref ↔ occasion.MakesMap ref := by
  have call : ∀ (receiver : Option Value) (span : Span) (machine : Machine),
      Builtin.map.call receiver [] span machine =
        .done (.map machine.heap.maps.size) { machine with heap := (machine.heap.newMap {}).2 } :=
    fun _ _ _ => rfl
  constructor
  · intro made
    unfold made? at made
    split at made
    · obtain rfl := Option.some.inj made
      exact .intro (call ..)
    · contradiction
  · rintro ⟨made⟩
    rw [call] at made
    exact congrArg some (Value.map.inj (Outcome.done.inj made).1)

/-- The value for a key is set in a map, by a call of `set`. -/
inductive Sets : Occasion → Nat → Value → Value → Prop where
  | intro {identity ref : Nat} {key value : Value} {span : Span} {machine : Machine} :
      Sets ⟨.call (.builtin identity .mapSet (some (.map ref))) [key, value] span,
        machine⟩ ref key value

/-- The key that is set on an occasion is one of the values at hand. -/
theorem Sets.mem_hand {occasion : Occasion} {ref : Nat} {key value : Value}
    (sets : occasion.Sets ref key value) : key ∈ occasion.code.hand := by
  cases sets with
  | intro => exact List.mem_cons_of_mem _ List.mem_cons_self

/-- The key for which a call of `get` asks the map. -/
def asked? (ref : Nat) : Occasion → Option Value
  | ⟨.call (.builtin _ .mapGet (some (.map other))) [key] _, _⟩ =>
    if other = ref then some key else none
  | _ => none

/-- The key that is found to be asked for is that of a call that looks it up. -/
theorem asked?_eq_some {occasion : Occasion} {ref : Nat} {key : Value} :
    occasion.asked? ref = some key ↔ ∃ identity span machine,
      occasion = ⟨.call (.builtin identity .mapGet (some (.map ref))) [key] span, machine⟩ := by
  constructor
  · intro asked
    unfold asked? at asked
    split at asked
    · split at asked
      · rename_i same
        subst same
        obtain rfl := Option.some.inj asked
        exact ⟨_, _, _, rfl⟩
      · contradiction
    · contradiction
  · rintro ⟨identity, span, machine, rfl⟩
    exact if_pos rfl

/-- What is set in the map, under the key that the key value has then. -/
def filing? (ref : Nat) : Occasion → Option (MapKey × Value)
  | ⟨.call (.builtin _ .mapSet (some (.map other))) [key, value] _, machine⟩ =>
    if other = ref then some (machine.heap.keyOf key, value) else none
  | _ => none

/-- Something is set in the map just by a call of `set`. -/
theorem filing?_eq_some {occasion : Occasion} {ref : Nat} {filing : MapKey × Value} :
    occasion.filing? ref = some filing ↔ ∃ key, occasion.Sets ref key filing.2 ∧
      filing.1 = occasion.machine.heap.keyOf key := by
  constructor
  · intro found
    unfold filing? at found
    split at found
    · split at found
      · rename_i same
        subst same
        obtain rfl := Option.some.inj found
        exact ⟨_, .intro, rfl⟩
      · contradiction
    · contradiction
  · obtain ⟨filed, value⟩ := filing
    rintro ⟨key, sets, same⟩
    dsimp only at sets same
    subst same
    cases sets with
    | intro => exact if_pos rfl

/-- What was set in a map, in order. -/
def filings (ref : Nat) (occasions : List Occasion) : List (MapKey × Value) :=
  occasions.filterMap (filing? ref)

/-- Only calls of built-in functions make maps and set values. -/
theorem filing?_eq_none {occasion : Occasion} (other : occasion.code.isBuiltin = false)
    (ref : Nat) :
    occasion.filing? ref = none := by
  cases found : occasion.filing? ref with
  | none => rfl
  | some filing =>
    obtain ⟨key, sets, -⟩ := filing?_eq_some.mp found
    generalize filing.2 = value at sets
    cases sets
    contradiction

/-- Only built-in functions make maps. -/
theorem not_makesMap {occasion : Occasion} (other : occasion.code.isBuiltin = false) (ref : Nat) :
    ¬occasion.MakesMap ref := by
  intro makes
  cases makes
  contradiction

end Occasion

/-! ## Accounts of maps -/

/-- After the history, the ledger describes the machine and vouches for all values that were
handled, and every map made by `map` holds what was set in it since. -/
structure Ledger.Accounts (ledger : Ledger) (history : List Occasion) (machine : Machine) :
    Prop where
  balances : ledger.Balances machine
  handled : ∀ occasion ∈ history, ∀ value ∈ occasion.code.hand, ledger.Vouches value
  filed : ∀ {early late : List Occasion} {create : Occasion} {ref : Nat},
    history = early ++ create :: late → create.MakesMap ref → ref < machine.heap.maps.size ∧
      machine.heap.filed ref = OrderedMap.ofList (Occasion.filings ref late)

namespace Ledger.Accounts

variable {ledger later : Ledger} {history : List Occasion} {machine after : Machine}

/-- Nothing changes while no map is changed. -/
theorem step (accounts : ledger.Accounts history machine) (goesOn : ledger.Extends later)
    (balances : later.Balances after) (kept : machine.heap.KeepsMaps after.heap) :
    later.Accounts history after where
  balances := balances
  handled occasion member value inHand :=
    (accounts.handled occasion member value inHand).extend goesOn
  filed split makes := by
    obtain ⟨inside, same⟩ := accounts.filed split makes
    exact ⟨Nat.lt_of_lt_of_le inside kept.size_le, (kept.filed_eq inside).trans same⟩

/-- A ledger accounts for what the heap and the event loop hold, and nothing else. -/
theorem of_same (accounts : ledger.Accounts history machine) (heap : after.heap = machine.heap)
    (events : after.events = machine.events) : ledger.Accounts history after :=
  accounts.step ledger.extends_refl (accounts.balances.of_same heap events)
    (Heap.keepsMaps_of_same (congrArg Heap.maps heap))

/-- The next occasion files what it sets in maps that there are, and makes empty maps. -/
theorem append (accounts : ledger.Accounts history machine) (goesOn : ledger.Extends later)
    (balances : later.Balances after) {occasion : Occasion}
    (hand : ∀ value ∈ occasion.code.hand, ledger.Vouches value)
    (size : machine.heap.maps.size ≤ after.heap.maps.size)
    (files : ∀ ref < machine.heap.maps.size, after.heap.filed ref =
      match occasion.filing? ref with
      | some (key, value) => (machine.heap.filed ref).insert key value
      | none => machine.heap.filed ref)
    (makes : ∀ ref, occasion.MakesMap ref →
      ref < after.heap.maps.size ∧ after.heap.filed ref = {}) :
    later.Accounts (history ++ [occasion]) after where
  balances := balances
  handled other member value inHand := by
    rcases List.mem_append.mp member with early | here
    · exact (accounts.handled other early value inHand).extend goesOn
    · rw [List.mem_singleton.mp here] at inHand
      exact (hand value inHand).extend goesOn
  filed := by
    intro early late create ref split made
    rcases List.eq_nil_or_concat late with rfl | ⟨front, last, rfl⟩
    · obtain ⟨-, same⟩ := List.append_inj' split rfl
      obtain rfl := (List.cons.inj same).1
      exact makes ref made
    · rw [List.concat_eq_append] at split ⊢
      rw [← List.cons_append, ← List.append_assoc] at split
      obtain ⟨before, same⟩ := List.append_inj' split rfl
      obtain rfl := (List.cons.inj same).1
      obtain ⟨inside, sofar⟩ := accounts.filed before made
      refine ⟨Nat.lt_of_lt_of_le inside size, ?_⟩
      rw [files ref inside, sofar]
      unfold Occasion.filings
      rw [List.filterMap_append]
      cases found : occasion.filing? ref with
      | none => simp [found]
      | some filing => simp [found, OrderedMap.ofList_concat]

/-- Code other than the calls of built-in functions has changed nothing when it is come to. -/
theorem note (accounts : ledger.Accounts history machine) (occasion : Occasion)
    (other : occasion.code.isBuiltin = false)
    (hand : ∀ value ∈ occasion.code.hand, ledger.Vouches value) :
    ledger.Accounts (history ++ [occasion]) machine :=
  accounts.append ledger.extends_refl accounts.balances hand (Nat.le_refl _)
    (fun ref _ => by rw [Occasion.filing?_eq_none other])
    (fun ref made => absurd made (Occasion.not_makesMap other ref))

end Ledger.Accounts

/-- What the outcome leaves is in the accounts of a later ledger, which vouches for the values in
the result. -/
def Ledger.Closes {α : Type} (ledger : Ledger) (history : List Occasion) (values : α → List Value) :
    Outcome α → Prop
  | .done result after =>
    ∃ later : Ledger, ledger.Extends later ∧ later.Accounts history after ∧
      ∀ value ∈ values result, later.Vouches value
  | .failed _ after => ∃ later : Ledger, ledger.Extends later ∧ later.Accounts history after
  | .exhausted => True

namespace Ledger

variable {α : Type} {ledger later : Ledger} {history : List Occasion} {machine : Machine}
variable {values : α → List Value}

/-- What closes the account from a later ledger on closes it from an earlier one on. -/
theorem Closes.trans {outcome : Outcome α} (goesOn : ledger.Extends later)
    (closes : later.Closes history values outcome) : ledger.Closes history values outcome := by
  cases outcome with
  | exhausted => trivial
  | failed diagnostic after =>
    obtain ⟨last, further, accounts⟩ := closes
    exact ⟨last, goesOn.trans further, accounts⟩
  | done result after =>
    obtain ⟨last, further, accounts, vouches⟩ := closes
    exact ⟨last, goesOn.trans further, accounts, vouches⟩

/-- A step that changes no map leaves the accounts as they are. -/
theorem Follows.closes {outcome : Outcome α} (follows : ledger.Follows machine values outcome)
    (accounts : ledger.Accounts history machine) : ledger.Closes history values outcome := by
  cases outcome with
  | exhausted => trivial
  | failed diagnostic after =>
    obtain ⟨later, goesOn, balances, kept⟩ := follows
    exact ⟨later, goesOn, accounts.step goesOn balances kept⟩
  | done result after =>
    obtain ⟨later, goesOn, balances, kept, vouches⟩ := follows
    exact ⟨later, goesOn, accounts.step goesOn balances kept, vouches⟩

/-- A step that changes no map, and files nothing, may make a new one. -/
theorem Follows.closes_append (occasion : Occasion) {outcome : Outcome α}
    (follows : ledger.Follows occasion.machine values outcome)
    (accounts : ledger.Accounts history occasion.machine)
    (hand : ∀ value ∈ occasion.code.hand, ledger.Vouches value)
    (files : ∀ ref, occasion.filing? ref = none)
    (makes : ∀ ref, occasion.MakesMap ref →
      outcome.Leaves fun after => ref < after.heap.maps.size ∧ after.heap.filed ref = {}) :
    ledger.Closes (history ++ [occasion]) values outcome := by
  have append : ∀ {later : Ledger} {after : Machine}, ledger.Extends later → later.Balances after →
      occasion.machine.heap.KeepsMaps after.heap →
      (∀ ref, occasion.MakesMap ref → ref < after.heap.maps.size ∧ after.heap.filed ref = {}) →
      later.Accounts (history ++ [occasion]) after := fun goesOn balances kept makes =>
    accounts.append goesOn balances hand kept.size_le
      (fun ref inside => by rw [files ref, kept.filed_eq inside]) makes
  cases outcome with
  | exhausted => trivial
  | failed diagnostic after =>
    obtain ⟨later, goesOn, balances, kept⟩ := follows
    exact ⟨later, goesOn, append goesOn balances kept makes⟩
  | done result after =>
    obtain ⟨later, goesOn, balances, kept, vouches⟩ := follows
    exact ⟨later, goesOn, append goesOn balances kept makes, vouches⟩

/-- The map that a call of `map` gives is a new one, and empty. -/
theorem leaves_of_makesMap {identity ref : Nat} {function : Builtin} {receiver : Option Value}
    {arguments : List Value} {span : Span} (makes : Occasion.MakesMap
      ⟨.call (.builtin identity function receiver) arguments span, machine⟩ ref) :
    (function.call receiver arguments span machine).Leaves fun after =>
      ref < after.heap.maps.size ∧ after.heap.filed ref = {} := by
  have isNew := Occasion.made?_eq_some.mpr makes
  cases makes with
  | intro made =>
    obtain rfl := Option.some.inj isNew
    refine ⟨?_, machine.heap.filed_newMap⟩
    show machine.heap.maps.size < (machine.heap.maps.alloc {}).2.size
    rw [Store.size_alloc]
    exact Nat.lt_succ_self _

/-- A call of `set` files one value. -/
theorem Accounts.call_set (accounts : ledger.Accounts history machine) (identity ref : Nat)
    (key value : Value) (span : Span)
    (hand : ∀ each ∈ [.builtin identity .mapSet (some (.map ref)), key, value],
      ledger.Vouches each) :
    ledger.Closes
      (history ++ [⟨.call (.builtin identity .mapSet (some (.map ref))) [key, value] span,
        machine⟩])
      (ResultKind.hand .value)
      (Builtin.mapSet.call (some (.map ref)) [key, value] span machine) := by
  obtain ⟨kept, after, later, ran, goesOn, balances, maps⟩ :=
    Builtin.callMapSet_done accounts.balances ref key (hand value (by simp))
  have same : Builtin.mapSet.call (some (.map ref)) [key, value] span machine = .done .nil after :=
    ran
  rw [same]
  refine ⟨later, goesOn, ?_, by simp [ResultKind.hand]⟩
  refine accounts.append goesOn balances hand ?_ (fun other inside => ?_) nofun
  · exact Nat.le_of_eq ((congrArg Store.size maps).trans (Store.size_modify ..)).symm
  · rw [Heap.filed_modify inside maps]
    unfold Occasion.filing?
    dsimp only
    split <;> rfl

/-- Calls of built-in functions keep the accounts. -/
theorem Accounts.call (accounts : ledger.Accounts history machine) (identity : Nat)
    (function : Builtin) (receiver : Option Value) (arguments : List Value) (span : Span)
    (hand : ∀ value ∈ Value.builtin identity function receiver :: arguments, ledger.Vouches value) :
    ledger.Closes
      (history ++ [⟨.call (.builtin identity function receiver) arguments span, machine⟩])
      (ResultKind.hand .value) (function.call receiver arguments span machine) := by
  by_cases sets : ∃ ref key value, function = .mapSet ∧ receiver = some (.map ref) ∧
      arguments = [key, value]
  · obtain ⟨ref, key, value, rfl, rfl, rfl⟩ := sets
    exact accounts.call_set identity ref key value span hand
  · -- Whatever else is called files nothing, and changes no map that there is.
    have files : ∀ ref, Occasion.filing? ref
        ⟨.call (.builtin identity function receiver) arguments span, machine⟩ = none := by
      intro ref
      cases found : Occasion.filing? ref _ with
      | none => rfl
      | some filing =>
        obtain ⟨key, isSet, -⟩ := Occasion.filing?_eq_some.mp found
        generalize filing.2 = value at isSet
        cases isSet
        exact absurd ⟨ref, key, value, rfl, rfl, rfl⟩ sets
    have given : ∀ value ∈ receiver.toList ++ arguments, ledger.Vouches value := by
      intro value member
      rcases List.mem_append.mp member with own | argument
      · exact (hand _ List.mem_cons_self).receiver (Option.mem_toList.mp own)
      · exact hand value (List.mem_cons_of_mem _ argument)
    have follows := Builtin.call_handles function receiver arguments span sets ledger machine
      accounts.balances given
    exact follows.closes_append ⟨.call _ _ span, machine⟩ accounts hand files fun ref makes =>
      leaves_of_makesMap makes

end Ledger

end EventScript
