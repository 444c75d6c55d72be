import Mathlib
import EventScript.Heap

/-!
# Numbers as keys

The bits under which a number is filed as a key tell it from all numbers but those that it equals,
and NaN from all numbers but NaN (`keyBits_eq_iff`).
-/

namespace EventScript

/-- Zero with either sign is equal to zero. -/
theorem beq_zero_iff (x : Float) : (x == 0) = true ↔ x = 0 ∨ x = -0 := by
  have number : (0 : Float) ≠ .nan := by decide
  have number' : (-0 : Float) ≠ .nan := by decide
  rw [Float.beq_iff_ne_nan_and_eq]
  constructor
  · rintro ⟨-, -, same | ⟨same, -⟩ | ⟨same, -⟩⟩
    · exact .inl same
    · exact .inl same
    · exact .inr same
  · rintro (rfl | rfl)
    · exact ⟨number, number, .inl rfl⟩
    · exact ⟨number', number, .inr (.inr ⟨rfl, rfl⟩)⟩

/-- Two numbers are equal if they are the same and no NaN, or if both are zero. -/
theorem beq_iff (first second : Float) :
    (first == second) = true ↔
      (first = second ∧ first.isNaN = false) ∨ ((first == 0) = true ∧ (second == 0) = true) := by
  rw [beq_zero_iff, beq_zero_iff, Float.beq_iff_ne_nan_and_eq, Float.isNaN_eq_decide_eq_nan,
    decide_eq_false_iff_not]
  constructor
  · rintro ⟨number, -, same | ⟨null, null'⟩ | ⟨null, null'⟩⟩
    · exact .inl ⟨same, number⟩
    · exact .inr ⟨.inl null, .inr null'⟩
    · exact .inr ⟨.inr null, .inl null'⟩
  · rintro (⟨rfl, number⟩ | ⟨rfl | rfl, rfl | rfl⟩)
    · exact ⟨number, number, .inl rfl⟩
    all_goals decide

/-- All numbers that are NaN have the same key. -/
theorem keyBits_of_isNaN {x : Float} (nan : x.isNaN = true) : keyBits x = 0x7FF8000000000000 :=
  if_pos nan

/-- Both zeros have the key zero. -/
theorem keyBits_of_zero {x : Float} (null : (x == 0) = true) : keyBits x = 0 := by
  have number : ¬x.isNaN = true := by
    rcases (beq_zero_iff x).mp null with rfl | rfl <;> decide
  exact (if_neg number).trans (if_pos null)

/-- What has the bits that stand for NaN as a key is NaN. -/
theorem isNaN_of_toBits {x : Float} (same : x.toBits = 0x7FF8000000000000) : x.isNaN = true := by
  obtain rfl : x = .nan := Float.toBits_inj.mp same
  decide

/-- Only zero has no bits set. -/
theorem zero_of_toBits {x : Float} (same : x.toBits = 0) : (x == 0) = true := by
  obtain rfl : x = 0 := Float.toBits_inj.mp same
  decide

/-- The key of a number is that of NaN, that of zero or, for all others, the number itself. -/
theorem keyBits_cases (x : Float) :
    (x.isNaN = true ∧ keyBits x = 0x7FF8000000000000) ∨ ((x == 0) = true ∧ keyBits x = 0) ∨
      (x.isNaN = false ∧ (x == 0) = false ∧ keyBits x = x.toBits) := by
  unfold keyBits
  cases nan : x.isNaN <;> cases null : x == 0 <;> simp

/-- Two numbers have the same key if both are NaN or if they are equal. -/
theorem keyBits_eq_iff (first second : Float) :
    keyBits first = keyBits second ↔
      (first.isNaN = true ∧ second.isNaN = true) ∨ (first == second) = true := by
  rw [beq_iff]
  constructor
  · intro same
    rcases keyBits_cases first with ⟨nan, key⟩ | ⟨null, key⟩ | ⟨number, other, key⟩ <;>
      rcases keyBits_cases second with ⟨nan', key'⟩ | ⟨null', key'⟩ | ⟨number', other', key'⟩ <;>
        rw [key, key'] at same
    · exact Or.inl ⟨nan, nan'⟩
    · exact absurd same (by decide)
    · rw [isNaN_of_toBits same.symm] at number'
      contradiction
    · exact absurd same (by decide)
    · exact Or.inr (Or.inr ⟨null, null'⟩)
    · rw [zero_of_toBits same.symm] at other'
      contradiction
    · rw [isNaN_of_toBits same] at number
      contradiction
    · rw [zero_of_toBits same] at other
      contradiction
    · have equal : first = second := Float.toBits_inj.mp same
      exact Or.inr (Or.inl ⟨equal, number⟩)
  · rintro (⟨nan, nan'⟩ | ⟨rfl, -⟩ | ⟨null, null'⟩)
    · rw [keyBits_of_isNaN nan, keyBits_of_isNaN nan']
    · rfl
    · rw [keyBits_of_zero null, keyBits_of_zero null']

end EventScript
