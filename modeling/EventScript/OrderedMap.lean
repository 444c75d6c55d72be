/-!
# Maps in order of insertion

A map from keys to values that lists its entries in the order in which the keys were first inserted.
Inserting under a key that is there replaces the value in its place. The main statements say what
looking up gives after an insertion (`find?_insert`) and how the list of keys grows (`keys_insert`).
-/

namespace EventScript

/-- Keys with values, in the order of first insertion. -/
structure OrderedMap (κ α : Type) where
  entries : List (κ × α) := []

namespace OrderedMap

variable {κ α : Type} [DecidableEq κ]

instance : Inhabited (OrderedMap κ α) := ⟨{}⟩

/-- The value under the key in a list of entries. -/
def findIn (key : κ) : List (κ × α) → Option α
  | [] => none
  | (other, value) :: rest => if other = key then some value else findIn key rest

/-- The list of entries with the value put under the key. -/
def insertIn (key : κ) (value : α) : List (κ × α) → List (κ × α)
  | [] => [(key, value)]
  | (other, old) :: rest =>
    if other = key then (other, value) :: rest else (other, old) :: insertIn key value rest

/-- The value under the key. -/
def find? (map : OrderedMap κ α) (key : κ) : Option α := findIn key map.entries

/-- Puts the value under the key. -/
def insert (map : OrderedMap κ α) (key : κ) (value : α) : OrderedMap κ α :=
  ⟨insertIn key value map.entries⟩

/-- Whether there is a value under the key. -/
def contains (map : OrderedMap κ α) (key : κ) : Bool := (map.find? key).isSome

/-- The keys in order. -/
def keys (map : OrderedMap κ α) : List κ := map.entries.map Prod.fst

/-- The values in the order of their keys. -/
def values (map : OrderedMap κ α) : List α := map.entries.map Prod.snd

/-- The map with the given entries inserted one after the other. -/
def ofList (entries : List (κ × α)) : OrderedMap κ α :=
  entries.foldl (fun map entry => map.insert entry.1 entry.2) {}

/-- Looking up in a list of entries finds what was just put in, and under other keys what was
there. -/
theorem findIn_insertIn (key other : κ) (value : α) (entries : List (κ × α)) :
    findIn other (insertIn key value entries) =
      if key = other then some value else findIn other entries := by
  induction entries with
  | nil => simp [findIn, insertIn]
  | cons entry rest ih =>
    obtain ⟨first, old⟩ := entry
    by_cases here : first = key
    · subst here
      by_cases same : first = other <;> simp [findIn, insertIn, same]
    · by_cases same : first = other
      · subst same
        simp [findIn, insertIn, here, Ne.symm here]
      · simp [findIn, insertIn, here, same, ih]

/-- Looking up finds the value just inserted under its key, and under other keys what was there. -/
theorem find?_insert (map : OrderedMap κ α) (key other : κ) (value : α) :
    (map.insert key value).find? other = if key = other then some value else map.find? other :=
  findIn_insertIn key other value map.entries

/-- A key that is listed keeps its place, and another one goes to the end. -/
theorem map_fst_insertIn (key : κ) (value : α) (entries : List (κ × α)) :
    (insertIn key value entries).map Prod.fst =
      if key ∈ entries.map Prod.fst then entries.map Prod.fst
      else entries.map Prod.fst ++ [key] := by
  induction entries with
  | nil => simp [insertIn]
  | cons entry rest ih =>
    obtain ⟨first, old⟩ := entry
    by_cases here : first = key
    · simp [insertIn, here]
    · by_cases there : key ∈ rest.map Prod.fst
      · simp only [there, if_true] at ih
        have member : key ∈ first :: rest.map Prod.fst := List.mem_cons_of_mem _ there
        simp only [insertIn, here, if_false, List.map_cons, ih]
        rw [if_pos member]
      · simp only [there, if_false] at ih
        have absent : key ∉ first :: rest.map Prod.fst := by
          simp only [List.mem_cons, not_or]
          exact ⟨Ne.symm here, there⟩
        simp only [insertIn, here, if_false, List.map_cons, ih]
        rw [if_neg absent]
        rfl

/-- A new key goes to the end, and a key that is there keeps its place. -/
theorem keys_insert (map : OrderedMap κ α) (key : κ) (value : α) :
    (map.insert key value).keys = if key ∈ map.keys then map.keys else map.keys ++ [key] :=
  map_fst_insertIn key value map.entries

end OrderedMap

end EventScript
