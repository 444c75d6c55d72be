import EventScript.Proofs.Evaluation.Ledger
import EventScript.Proofs.Number.Bits

/-!
# Keys that match

A key given to a map matches one given before if it is the same scalar, a string with the content
that the other had then, or the very same value. The keys under which the two are filed say just
that (`Ledger.keyOf_eq_iff`), and on one heap it is what equality says, but that all NaNs match
(`Ledger.matches_iff_equal`). For values told apart by number it takes a ledger: that the same
number means the same value holds only of values that a program comes by.
-/

namespace EventScript

/-- Whether a key given on an earlier heap matches one that is given on a later heap. All NaNs
match, and so do the two zeros. Strings match if the contents that they have when they are given are
the same. -/
def Value.Matches (one : Value) (earlier : Heap) (other : Value) (later : Heap) : Prop :=
  match one, other with
  | .number a, .number b => (a.isNaN = true ∧ b.isNaN = true) ∨ (a == b) = true
  | .string a, .string b => earlier.text a = later.text b
  | one, other => one = other

namespace Value

variable {one other : Value} {earlier later : Heap} {identity : Identity}

/-- A value told apart by identity matches only itself. -/
theorem matches_of_identity (told : one.identity? = some identity) :
    one.Matches earlier other later ↔ one = other := by
  cases one <;> first | contradiction | rfl

/-- A value told apart by identity is filed under it. -/
theorem keyOf_of_identity (told : one.identity? = some identity) :
    earlier.keyOf one = .identity identity := by
  cases one <;> first | contradiction | exact congrArg MapKey.identity (Option.some.inj told)

/-- Other values are filed under their contents. -/
theorem keyOf_of_content (content : one.identity? = none) :
    earlier.keyOf one ≠ .identity identity := by
  cases one <;> first | contradiction | exact nofun

end Value

/-- An identity tells a value that is vouched for. -/
theorem Ledger.eq_of_identity {ledger : Ledger} {one other : Value} {identity : Identity}
    (vouches : ledger.Vouches one) (vouches' : ledger.Vouches other)
    (told : one.identity? = some identity) (told' : other.identity? = some identity) :
    one = other := by
  obtain ⟨kind, number⟩ := identity
  cases kind with
  | immutable => exact (vouches.identity told).2.symm.trans (vouches'.identity told').2
  | list | map | object =>
    cases one <;> cases other <;> simp_all [Value.identity?]

/-- Two values that are vouched for are filed under the same key if they match. -/
theorem Ledger.keyOf_eq_iff {ledger : Ledger} {one other : Value} (vouches : ledger.Vouches one)
    (vouches' : ledger.Vouches other) (earlier later : Heap) :
    earlier.keyOf one = later.keyOf other ↔ one.Matches earlier other later := by
  cases told : one.identity? with
  | some identity =>
    rw [Value.matches_of_identity told, Value.keyOf_of_identity told]
    constructor
    · intro same
      cases told' : other.identity? with
      | none => exact absurd same.symm (Value.keyOf_of_content told')
      | some identity' =>
        rw [Value.keyOf_of_identity told'] at same
        obtain rfl := MapKey.identity.inj same
        exact eq_of_identity vouches vouches' told told'
    · rintro rfl
      exact (Value.keyOf_of_identity told).symm
  | none =>
    cases told' : other.identity? with
    | some identity =>
      rw [Value.keyOf_of_identity told']
      refine ⟨fun same => absurd same (Value.keyOf_of_content told), fun same => ?_⟩
      cases one <;> cases other <;> contradiction
    | none =>
      cases one <;> cases other <;> first
        | contradiction
        | simp [Heap.keyOf, Value.Matches, keyBits_eq_iff]

/-- A value told apart by identity is equal to those with the same one. -/
theorem Heap.equal_of_identity {one : Value} {identity : Identity}
    (told : one.identity? = some identity)
    (heap : Heap) (other : Value) :
    heap.equal one other = true ↔ other.identity? = some identity := by
  unfold Heap.equal
  split
  case h_5 =>
    rw [told]
    cases other.identity? with
    | none => exact ⟨nofun, nofun⟩
    | some found => exact beq_iff_eq.trans (eq_comm.trans Option.some_inj.symm)
  all_goals contradiction

/-- Two values that are vouched for match on one heap if they are equal there, or both are NaN. -/
theorem Ledger.matches_iff_equal {ledger : Ledger} {one other : Value}
    (vouches : ledger.Vouches one)
    (vouches' : ledger.Vouches other) (heap : Heap) :
    one.Matches heap other heap ↔ heap.equal one other = true ∨
      ∃ a b : Float, one = .number a ∧ other = .number b ∧ a.isNaN = true ∧ b.isNaN = true := by
  cases told : one.identity? with
  | some identity =>
    rw [Value.matches_of_identity told, Heap.equal_of_identity told]
    constructor
    · rintro rfl
      exact .inl told
    · rintro (told' | ⟨a, b, rfl, -⟩)
      · exact eq_of_identity vouches vouches' told told'
      · contradiction
  | none =>
    cases one <;> cases other <;> first
      | contradiction
      | simp [Value.Matches, Heap.equal, Value.identity?, or_comm]

end EventScript
