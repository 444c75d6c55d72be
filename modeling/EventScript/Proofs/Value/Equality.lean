import EventScript.Proofs.Maps.Matching

/-!
# Equality and keys

Equality and the keys of maps are two readings of the same values, each with cases of its own. On
one heap they differ in NaN only: two values are equal exactly if their keys are and the first is no
NaN (`Heap.equal_iff`). Keys are compared for being the same, so what relations keys and equality
are follows from this one fact.
-/

namespace EventScript

namespace Value

/-- Whether the value is a number that is not equal to itself. -/
def IsNaN (value : Value) : Prop := ∃ number : Float, value = .number number ∧ number.isNaN = true

/-- No value told apart by identity is a number. -/
theorem not_isNaN_of_identity {value : Value} {identity : Identity}
    (told : value.identity? = some identity) : ¬value.IsNaN := by
  rintro ⟨number, rfl, -⟩
  contradiction

/-- The key of a value that is filed under an identity. -/
theorem keyOf_eq_identity_iff {heap : Heap} {value : Value} {identity : Identity} :
    heap.keyOf value = .identity identity ↔ value.identity? = some identity := by
  cases told : value.identity? with
  | none => exact iff_of_false (keyOf_of_content told) nofun
  | some found =>
    rw [keyOf_of_identity told]
    simp

end Value

namespace Heap

variable {heap : Heap} {one other third : Value}

/-- No NaN is equal to a number. -/
theorem isNaN_of_beq {x y : Float} (equal : (x == y) = true) : x.isNaN = false := by
  rw [Float.beq_iff_ne_nan_and_eq] at equal
  rw [Float.isNaN_eq_decide_eq_nan, decide_eq_false_iff_not]
  exact equal.1

/-- Values filed under one key are both NaN or neither. -/
theorem isNaN_iff_of_keyOf (same : heap.keyOf one = heap.keyOf other) :
    one.IsNaN ↔ other.IsNaN := by
  suffices passes : ∀ {a b : Value}, heap.keyOf a = heap.keyOf b → a.IsNaN → b.IsNaN from
    ⟨passes same, passes same.symm⟩
  rintro a b same ⟨x, rfl, nan⟩
  cases b with
  | number y =>
    have bits : keyBits x = keyBits y := MapKey.number.inj same
    rcases (keyBits_eq_iff x y).mp bits with ⟨-, nan'⟩ | equal
    · exact ⟨y, rfl, nan'⟩
    · rw [isNaN_of_beq equal] at nan
      contradiction
  | nil | bool | string | list | map | function | method | classObject | object | builtin =>
    contradiction

/-- All NaNs are filed under one key. -/
theorem keyOf_of_isNaN (nan : one.IsNaN) (nan' : other.IsNaN) :
    heap.keyOf one = heap.keyOf other := by
  obtain ⟨x, rfl, hx⟩ := nan
  obtain ⟨y, rfl, hy⟩ := nan'
  exact congrArg MapKey.number ((keyBits_eq_iff x y).mpr (.inl ⟨hx, hy⟩))

/-- Two numbers are equal if they have the same key, unless they are NaN. -/
theorem number_equal_iff (x y : Float) :
    (x == y) = true ↔ keyBits x = keyBits y ∧ ¬(Value.number x).IsNaN := by
  rw [keyBits_eq_iff]
  constructor
  · intro equal
    refine ⟨.inr equal, ?_⟩
    rintro ⟨_, ⟨⟩, nan⟩
    rw [isNaN_of_beq equal] at nan
    contradiction
  · rintro ⟨⟨nan, -⟩ | equal, number⟩
    · exact absurd ⟨x, rfl, nan⟩ number
    · exact equal

/-- Equality is sameness of the keys, but for NaN. -/
theorem equal_iff (heap : Heap) (one other : Value) :
    heap.equal one other = true ↔ heap.keyOf one = heap.keyOf other ∧ ¬one.IsNaN := by
  cases told : one.identity? with
  | some identity =>
    rw [equal_of_identity told, Value.keyOf_of_identity told]
    have number := Value.not_isNaN_of_identity told
    constructor
    · intro told'
      exact ⟨(Value.keyOf_of_identity told').symm, number⟩
    · rintro ⟨same, -⟩
      exact Value.keyOf_eq_identity_iff.mp same.symm
  | none =>
    cases one <;> cases other <;> first
      | contradiction
      | simp [Heap.equal, Heap.keyOf, Value.identity?, Value.IsNaN, number_equal_iff]

/-- Equality is symmetric. -/
theorem equal_symm (equal : heap.equal one other = true) : heap.equal other one = true := by
  have ⟨same, number⟩ := (heap.equal_iff one other).mp equal
  have number' : ¬other.IsNaN := (isNaN_iff_of_keyOf same).not.mp number
  exact (heap.equal_iff other one).mpr ⟨same.symm, number'⟩

/-- Equality is transitive. -/
theorem equal_trans (equal : heap.equal one other = true) (equal' : heap.equal other third = true) :
    heap.equal one third = true := by
  have ⟨same, number⟩ := (heap.equal_iff one other).mp equal
  have ⟨same', _⟩ := (heap.equal_iff other third).mp equal'
  exact (heap.equal_iff one third).mpr ⟨same.trans same', number⟩

/-- Every value but NaN is equal to itself. -/
theorem equal_self_iff (heap : Heap) (value : Value) :
    heap.equal value value = true ↔ ¬value.IsNaN :=
  (heap.equal_iff value value).trans (and_iff_right rfl)

/-- On any heap, two values are equal exactly if they are filed under the same key, unless both are
NaN: NaNs share a key and are not equal. To have the same key is an equivalence of values. Equality
is symmetric and transitive, and reflexive for all values but NaN. -/
theorem equality_matches_keys (heap : Heap) :
    (∀ one other : Value, ¬(one.IsNaN ∧ other.IsNaN) →
        (heap.equal one other = true ↔ heap.keyOf one = heap.keyOf other)) ∧
      (∀ one other : Value, one.IsNaN → other.IsNaN →
        heap.keyOf one = heap.keyOf other ∧ heap.equal one other = false) ∧
      Equivalence (fun one other : Value => heap.keyOf one = heap.keyOf other) ∧
      (∀ one other : Value, heap.equal one other = true → heap.equal other one = true) ∧
      (∀ one other third : Value, heap.equal one other = true → heap.equal other third = true →
        heap.equal one third = true) ∧
      ∀ value : Value, heap.equal value value = true ↔ ¬value.IsNaN := by
  have sameKey : Equivalence fun one other : Value => heap.keyOf one = heap.keyOf other :=
    ⟨fun _ => rfl, Eq.symm, Eq.trans⟩
  refine ⟨?_, ?_, sameKey, fun _ _ => equal_symm, fun _ _ _ => equal_trans, heap.equal_self_iff⟩
  · intro one other number
    rw [heap.equal_iff]
    constructor
    · exact And.left
    · intro same
      refine ⟨same, fun nan => ?_⟩
      have nan' : other.IsNaN := (isNaN_iff_of_keyOf same).mp nan
      exact number ⟨nan, nan'⟩
  · intro one other nan nan'
    refine ⟨keyOf_of_isNaN nan nan', ?_⟩
    rw [Bool.eq_false_iff]
    intro equal
    obtain ⟨-, number⟩ := (heap.equal_iff _ _).mp equal
    exact number nan

end Heap

end EventScript
