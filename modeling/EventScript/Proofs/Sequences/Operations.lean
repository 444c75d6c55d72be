import EventScript.Proofs.Number.Truncation

/-!
# Sequences and what is done with them

What lists and strings are to a program: a sequence of elements that some operations read and
change. An index is a number of the language. It names the place that is left when its fraction is
dropped, if this place lies in the sequence (`Number.place?`), so no operation can reach outside. An
operation that fails leaves the sequence as it is (`SequenceOp.apply_of_fails`).
-/

namespace EventScript

/-- The place that a number names in a sequence of the given length. -/
def Number.place? (index : Float) (length : ℕ) : Option (Fin length) :=
  (value? index).bind fun value =>
    if inside : 0 ≤ towardZero value ∧ towardZero value < length then
      some ⟨(towardZero value).toNat, by omega⟩
    else none

/-- A place is named just by a number which without its fraction is the place. -/
theorem Number.place?_eq_some {index : Float} {length : ℕ} {place : Fin length} :
    place? index length = some place ↔ ∃ value, value? index = some value ∧
    towardZero value = place := by
  have small := place.isLt
  unfold place?
  rw [Option.bind_eq_some_iff]
  refine exists_congr fun value => and_congr_right fun _ => ?_
  by_cases inside : 0 ≤ towardZero value ∧ towardZero value < length
  · rw [dif_pos inside, Option.some.injEq, Fin.ext_iff]
    dsimp only
    omega
  · rw [dif_neg inside]
    exact iff_of_false nofun fun same => inside (by omega)

/-- An operation on a sequence. An index is `none` if what is given is no number. -/
inductive SequenceOp (α : Type) where
  | get (index : Option Float)
  /-- Puts other elements in the place of one. -/
  | alter (index : Option Float) (replacement : List α)
  | length
  /-- Adds an element to the end. -/
  | push (element : α)
  /-- Removes the last element. -/
  | pop

/-- How an operation is answered. -/
inductive SequenceReply (α : Type) where
  | element (element : α)
  | count (length : ℕ)
  /-- It is done, and there is nothing to tell. -/
  | nothing
  /-- The index is no number. -/
  | noNumber
  /-- The index names no place in the sequence. -/
  | outside
  /-- There is no last element. -/
  | empty

/-- The operation has failed. -/
def SequenceReply.fails {α : Type} : SequenceReply α → Bool
  | noNumber | outside | empty => true
  | _ => false

namespace SequenceOp

variable {α : Type}

/-- Goes on with the place that the index names, if it names one. -/
def locate (index : Option Float) (contents : List α)
    (found : Fin contents.length → SequenceReply α × List α) : SequenceReply α × List α :=
  match index with
  | none => (.noNumber, contents)
  | some number =>
    match Number.place? number contents.length with
    | none => (.outside, contents)
    | some place => found place

/-- How the operation is answered, and the sequence that it leaves. -/
def apply (contents : List α) : SequenceOp α → SequenceReply α × List α
  | .get index => locate index contents fun place => (.element contents[place], contents)
  | .alter index replacement => locate index contents fun place =>
      (.nothing, contents.take place ++ replacement ++ contents.drop (place + 1))
  | .length => (.count contents.length, contents)
  | .push element => (.nothing, contents ++ [element])
  | .pop =>
    match contents.getLast? with
    | none => (.empty, contents)
    | some last => (.element last, contents.dropLast)

/-- The sequence that operations leave which are done one after the other. -/
def replay (operations : List (SequenceOp α)) (contents : List α) : List α :=
  operations.foldl (fun contents operation => (operation.apply contents).2) contents

/-- Replaying one list of operations and then another is replaying both. -/
theorem replay_append (first second : List (SequenceOp α)) (contents : List α) :
    replay (first ++ second) contents = replay second (replay first contents) :=
  List.foldl_append

variable {contents : List α}

/-- What fails for want of a place changes nothing, if nothing else fails. -/
theorem locate_of_fails {index : Option Float}
    {found : Fin contents.length → SequenceReply α × List α}
    (succeeds : ∀ place, (found place).1.fails = false)
    (fails : (locate index contents found).1.fails = true) :
    (locate index contents found).2 = contents := by
  unfold locate at fails ⊢
  cases index with
  | none => rfl
  | some number =>
    dsimp only at fails ⊢
    cases named : Number.place? number contents.length with
    | none => rfl
    | some place =>
      rw [named] at fails
      exact absurd ((succeeds place).symm.trans fails) Bool.false_ne_true

/-- An operation that fails changes nothing. -/
theorem apply_of_fails {operation : SequenceOp α}
    (fails : (operation.apply contents).1.fails = true) :
    (operation.apply contents).2 = contents := by
  cases operation with
  | get | alter => exact locate_of_fails (fun _ => rfl) fails
  | length | push => contradiction
  | pop =>
    unfold apply at fails ⊢
    cases last : contents.getLast? with
    | none => rfl
    | some =>
      rw [last] at fails
      contradiction

end SequenceOp

end EventScript
