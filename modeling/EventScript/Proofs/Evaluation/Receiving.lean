import EventScript.Builtin.Call

/-!
# How methods find their objects

The methods of strings, lists and maps look at their receiver in the same way: there is none, it is
an object of their type, or one of another type (`Builtin.Receives`). What is to be shown of all
methods is shown of these three cases.
-/

namespace EventScript.Builtin

open Run

/-- The computation finds the object that a method of the type belongs to, or says why it cannot. -/
inductive Receives (function : Builtin) (type : String) (own : Nat → Value)
    (receiver : Option Value) :
    Run Nat → Prop where
  | found {ref : Nat} (isOwn : receiver = some (own ref)) :
      Receives function type own receiver (pure ref)
  | missing (nothing : receiver = none) :
      Receives function type own receiver (fault .missingReceiver)
  | wrong {object : Value} (given : receiver = some object) (other : object.typeName ≠ type) :
      Receives function type own receiver (fault (.wrongReceiver function.name type))

variable (function : Builtin) (receiver : Option Value)

/-- The methods of strings are called on strings. -/
theorem stringReceiver_receives :
    function.Receives "string" .string receiver (stringReceiver function receiver) := by
  cases receiver with
  | none => exact .missing rfl
  | some object =>
    cases object with
    | string => exact .found rfl
    | _ => exact .wrong rfl (by simp [Value.typeName])

/-- The methods of lists are called on lists. -/
theorem listReceiver_receives :
    function.Receives "list" .list receiver (listReceiver function receiver) := by
  cases receiver with
  | none => exact .missing rfl
  | some object =>
    cases object with
    | list => exact .found rfl
    | _ => exact .wrong rfl (by simp [Value.typeName])

/-- The methods of maps are called on maps. -/
theorem mapReceiver_receives :
    function.Receives "map" .map receiver (mapReceiver function receiver) := by
  cases receiver with
  | none => exact .missing rfl
  | some object =>
    cases object with
    | map => exact .found rfl
    | _ => exact .wrong rfl (by simp [Value.typeName])

namespace Receives

variable {function : Builtin} {receiver : Option Value} {type : String} {own : Nat → Value}
    {run : Run Nat}

/-- What is found is the receiver. -/
theorem of_done {ref : Nat} {machine later : Machine}
    (receives : function.Receives type own receiver run)
    (found : run machine = .done ref later) : receiver = some (own ref) := by
  cases receives with
  | found isOwn =>
    obtain ⟨rfl, -⟩ := Outcome.done.inj found
    exact isOwn
  | missing | wrong => contradiction

/-- An object of another type is refused. -/
theorem refuses {object : Value} (receives : function.Receives type own (some object) run)
    (typed : ∀ ref, (own ref).typeName = type) (other : object.typeName ≠ type)
    (machine : Machine) :
    run machine = .failed (Fault.wrongReceiver function.name type).diagnostic machine := by
  cases receives with
  | found isOwn => exact absurd (Option.some.inj isOwn ▸ typed _) other
  | missing nothing => contradiction
  | wrong => rfl

end Receives

end EventScript.Builtin
