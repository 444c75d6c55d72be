import EventScript.Proofs.Evaluation.Trace

/-!
# Contracts on a record

What holds of a running program may depend on what was run before. So let a record list all that is
run, from the first to the last. A contract is valid on the record when every plan of recorded code
meets it. Then all evaluation whose trace is in the record keeps the contract
(`Contract.ValidOn.keeps`, `Contract.ValidOn.visited`). The contract itself may speak of the record.
-/

namespace EventScript.Contract

/-- The plan of recorded code meets the contract wherever the contract allows to run the code. -/
def ValidOn (contract : Contract) (record : List Occasion) : Prop :=
  ∀ ⦃kind : ResultKind⦄ (code : Code kind) (machine : Machine), ⟨code, machine⟩ ∈ record →
    contract.before code machine → code.plan.Meets contract (contract.after code machine) machine

variable {contract : Contract} {record : List Occasion} {bound : Nat} {kind : ResultKind}
variable {code : Code kind} {machine : Machine}

/-- The code that is run comes first. -/
theorem mem_trace_self : ⟨code, machine⟩ ∈ code.trace bound machine := Code.mem_trace.mpr .here

/-- What inner code comes to is a part of what the code comes to. -/
theorem trace_subset_of_visits {kind' : ResultKind} {inner : Code kind'} {reached : Machine}
    (visits : Plan.Visits (.within bound) code.plan machine inner reached) :
    inner.trace bound reached ⊆ code.trace (bound + 1) machine := fun _ member =>
  Code.mem_trace.mpr (.inner visits (Code.mem_trace.mp member))

/-- Recorded evaluation keeps a contract that is valid on the record. -/
theorem ValidOn.keeps (valid : contract.ValidOn record)
    (recorded : code.trace bound machine ⊆ record) (before : contract.before code machine) :
    contract.after code machine (code.run bound machine) := by
  -- Inner code has a smaller bound, and its trace is a part of the trace of the whole.
  induction bound generalizing kind code machine with
  | zero =>
    rw [Code.run_zero]
    exact contract.exhausted code machine
  | succ bound ih =>
    have meets := valid code machine (recorded mem_trace_self) before
    rw [Code.run_succ]
    exact meets.carryOut fun inner reached visits =>
      ih (List.Subset.trans (trace_subset_of_visits visits) recorded)

/-- Recorded evaluation comes to code only where a contract that is valid on the record allows. -/
theorem ValidOn.visited (valid : contract.ValidOn record)
    (recorded : code.trace bound machine ⊆ record) (before : contract.before code machine)
    {kind' : ResultKind} {code' : Code kind'} {reached : Machine}
    (visits : Code.Visits bound code machine code' reached) : contract.before code' reached := by
  induction visits with
  | here => exact before
  | @inner bound _ _ _ code _ _ machine _ _ visits _ ih =>
    have meets := valid code machine (recorded mem_trace_self) before
    have inside := List.Subset.trans (trace_subset_of_visits visits) recorded
    have keeps : Plan.KeepsAlong (.within bound) contract code.plan machine :=
      fun _ _ visits before =>
        valid.keeps (List.Subset.trans (trace_subset_of_visits visits) recorded) before
    exact ih inside (meets.visited keeps visits)

end EventScript.Contract
