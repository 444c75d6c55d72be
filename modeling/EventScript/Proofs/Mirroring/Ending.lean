import EventScript.Proofs.Evaluation.BigStep
import EventScript.Proofs.Mirroring.Evaluation

/-!
# Things that end alike

Two things to do agree (`Ending.Agrees`) when on machines that mirror each other each of them can
end as the other one ends, up to the pairing, which may grow on the way. Code agrees with itself
(`Code.agrees`), and doing one thing after the other keeps agreement, as does doing things in
rounds. A new scope may stand for another new one, and it may also stand for nothing, since then no
name is ever bound in it.
-/

namespace EventScript

/-- The machine has its code in a new scope that stands for nothing on the other machine. -/
theorem Machine.Mirrors.skip {pairing : Pairing} {scope scope' : Nat} {machine machine' : Machine}
    (mirrors : machine.Mirrors pairing scope scope' machine') (meets : pairing.Meets scope scope') :
    machine.inNewScope.Mirrors (pairing.skip machine.inNewScope.scope scope)
      machine.inNewScope.scope scope'
      machine' := by
  obtain rfl := mirrors.scope
  have heaps := mirrors.heap.skip (mirrors.heap.scopes.meets_lt meets).1
  exact { mirrors.grows (pairing.grows_skip _ _) heaps with scope := rfl }

/-- The other machine has its code in a new scope that stands for nothing on this one. -/
theorem Machine.Mirrors.skip' {pairing : Pairing} {scope scope' : Nat} {machine machine' : Machine}
    (mirrors : machine.Mirrors pairing scope scope' machine') (meets : pairing.Meets scope scope') :
    machine.Mirrors (pairing.skip' machine'.inNewScope.scope scope') scope machine'.inNewScope.scope
      machine'.inNewScope := by
  obtain rfl := mirrors.scope'
  have heaps := mirrors.heap.skip' (mirrors.heap.scopes.meets_lt meets).2
  exact { mirrors.grows (pairing.grows_skip' _ _) heaps with scope' := rfl }

/-- Both machines have their code in new scopes that stand for each other. -/
theorem Machine.Mirrors.pair {pairing : Pairing} {scope scope' : Nat} {machine machine' : Machine}
    (mirrors : machine.Mirrors pairing scope scope' machine') (meets : pairing.Meets scope scope') :
    machine.inNewScope.Mirrors (pairing.pair machine.inNewScope.scope machine'.inNewScope.scope)
      machine.inNewScope.scope machine'.inNewScope.scope machine'.inNewScope := by
  obtain rfl := mirrors.scope
  obtain rfl := mirrors.scope'
  have heaps := mirrors.heap.newScope (.some meets)
  exact { mirrors.grows (pairing.grows_pair _ _) heaps with scope := rfl, scope' := rfl }

namespace Outcome.Mirrors

variable {α β : Type} {pairing : Pairing} {scope scope' inner inner' : Nat} {same : α → β → Prop}
variable {outcome : Outcome α} {outcome' : Outcome β}

/-- Where one does not end, the other does not either. -/
theorem exhausted_iff (mirrors : outcome.Mirrors pairing scope scope' same outcome') :
    outcome = .exhausted ↔ outcome' = .exhausted := by
  cases mirrors <;> simp only [reduceCtorEq]

/-- Coming back into a scope. -/
theorem comeBack (mirrors : outcome.Mirrors pairing inner scope' same outcome')
    (machine : Machine) :
    ((Setting.inScope inner).outward machine outcome).Mirrors pairing machine.scope scope' same
      outcome' := by
  cases mirrors with
  | done values machines => exact .done values { machines with scope := rfl }
  | failed diagnostic machines => exact .failed diagnostic { machines with scope := rfl }
  | exhausted => exact .exhausted

/-- Coming back into a scope on the other machine. -/
theorem comeBack' (mirrors : outcome.Mirrors pairing scope inner' same outcome')
    (machine' : Machine) :
    outcome.Mirrors pairing scope machine'.scope same
      ((Setting.inScope inner').outward machine' outcome') := by
  cases mirrors with
  | done values machines => exact .done values { machines with scope' := rfl }
  | failed diagnostic machines => exact .failed diagnostic { machines with scope' := rfl }
  | exhausted => exact .exhausted

end Outcome.Mirrors

namespace Ending

/-- On machines that mirror each other each of the two can end as the other one ends. -/
structure Agrees {α β : Type} (pairing : Pairing) (scope scope' : Nat)
    (same : Pairing → α → β → Prop)
    (ending : Ending α) (ending' : Ending β) : Prop where
  forth : ∀ {machine machine' : Machine} {outcome : Outcome α},
    machine.Mirrors pairing scope scope' machine' → ending machine outcome →
    ∃ later outcome', pairing.Grows later ∧ ending' machine' outcome' ∧
      outcome.Mirrors later scope scope' (same later) outcome'
  back : ∀ {machine machine' : Machine} {outcome' : Outcome β},
    machine.Mirrors pairing scope scope' machine' → ending' machine' outcome' →
    ∃ later outcome, pairing.Grows later ∧ ending machine outcome ∧
      outcome.Mirrors later scope scope' (same later) outcome'

variable {α β γ δ : Type} {pairing : Pairing} {scope scope' : Nat}
variable {same : Pairing → α → β → Prop} {other : Pairing → γ → δ → Prop}

/-- Values that are the same for a pairing agree. -/
theorem Agrees.give {value : α} {value' : β} (values : same pairing value value') :
    Agrees pairing scope scope' same (give value) (give value') where
  forth := by
    rintro machine machine' _ machines rfl
    exact ⟨pairing, _, .refl pairing, rfl, .done values machines⟩
  back := by
    rintro machine machine' _ machines rfl
    exact ⟨pairing, _, .refl pairing, rfl, .done values machines⟩

/-- What follows agrees if both parts do. -/
theorem Agrees.then {first : Ending α} {first' : Ending β} {next : α → Ending γ}
    {next' : β → Ending δ}
    (agrees : first.Agrees pairing scope scope' same first')
    (onward : ∀ {later : Pairing} {value : α} {value' : β}, pairing.Grows later →
      same later value value' →
      (next value).Agrees later scope scope' other (next' value')) :
    (first.Then next).Agrees pairing scope scope' other (first'.Then next') where
  forth := by
    intro machine machine' outcome machines ends
    cases ends with
    | fails fails =>
      obtain ⟨later, _, grown, fails', mirrors⟩ := agrees.forth machines fails
      cases mirrors with
      | failed _ laters => exact ⟨later, _, grown, .fails fails', .failed _ laters⟩
    | goesOn gives rest =>
      obtain ⟨later, _, grown, gives', mirrors⟩ := agrees.forth machines gives
      cases mirrors with
      | done values middles =>
        obtain ⟨last, outcome', grown', rest', outcomes⟩ := (onward grown values).forth middles rest
        exact ⟨last, outcome', grown.trans grown', .goesOn gives' rest', outcomes⟩
  back := by
    intro machine machine' outcome' machines ends
    cases ends with
    | fails fails =>
      obtain ⟨later, _, grown, fails', mirrors⟩ := agrees.back machines fails
      cases mirrors with
      | failed _ laters => exact ⟨later, _, grown, .fails fails', .failed _ laters⟩
    | goesOn gives rest =>
      obtain ⟨later, _, grown, gives', mirrors⟩ := agrees.back machines gives
      cases mirrors with
      | done values middles =>
        obtain ⟨last, outcome, grown', rest', outcomes⟩ := (onward grown values).back middles rest
        exact ⟨last, outcome, grown.trans grown', .goesOn gives' rest', outcomes⟩

/-! ## Rounds -/

section Rounds

variable {condition condition' : Ending Value} {body body' rest rest' : Ending Flow}

/-- Rounds agree if their parts do. -/
theorem Agrees.round (conditions : condition.Agrees pairing scope scope' Value.Mirrors condition')
    (bodies : ∀ {later : Pairing}, pairing.Grows later →
      body.Agrees later scope scope' Flow.Mirrors body')
    (rests : ∀ {later : Pairing}, pairing.Grows later →
      rest.Agrees later scope scope' Flow.Mirrors rest') :
    (condition.round body rest).Agrees pairing scope scope' Flow.Mirrors
      (condition'.round body' rest') := by
  refine conditions.then fun {later value value'} grown values => ?_
  rw [values.isTruthy]
  split
  · apply (bodies grown).then
    intro latest flow flow' grown' flows
    cases flows with
    | next => exact rests (grown.trans grown')
    | broke => exact .give .next
    | returned results => exact .give (.returned results)
  · exact .give .next

/-- Loops agree when their conditions and their bodies do. -/
theorem Agrees.loop (conditions : ∀ {later : Pairing}, pairing.Grows later →
      condition.Agrees later scope scope' Value.Mirrors condition')
    (bodies : ∀ {later : Pairing}, pairing.Grows later →
      body.Agrees later scope scope' Flow.Mirrors body') :
    (condition.loop body).Agrees pairing scope scope' Flow.Mirrors (condition'.loop body') := by
  have rounds : ∀ (count : Nat) {later : Pairing}, pairing.Grows later →
      (condition.rounds body count).Agrees later scope scope' Flow.Mirrors
        (condition'.rounds body' count) := by
    intro count
    induction count with
    | zero => exact fun _ => ⟨fun _ never => never.elim, fun _ never => never.elim⟩
    | succ count ih =>
      intro later grown
      apply Agrees.round (conditions grown)
      · exact fun grown' => bodies (grown.trans grown')
      · exact fun grown' => ih (grown.trans grown')
  constructor
  · rintro machine machine' outcome machines ⟨count, ends⟩
    obtain ⟨later, outcome', grown, ends', outcomes⟩ := (rounds count (.refl _)).forth machines ends
    exact ⟨later, outcome', grown, ⟨count, ends'⟩, outcomes⟩
  · rintro machine machine' outcome' machines ⟨count, ends⟩
    obtain ⟨later, outcome, grown, ends', outcomes⟩ := (rounds count (.refl _)).back machines ends
    exact ⟨later, outcome, grown, ⟨count, ends'⟩, outcomes⟩

end Rounds

/-! ## New scopes -/

section Scopes

variable {ending : Ending α} {ending' : Ending β} (meets : pairing.Meets scope scope')
include meets

/-- What is done in a new scope may agree with what is done without one. -/
theorem Agrees.skip (agrees : ∀ {later : Pairing} {inner : Nat}, pairing.Grows later →
      later.blank inner scope → ending.Agrees later inner scope' same ending') :
    ending.inNewScope.Agrees pairing scope scope' same ending' where
  forth := by
    rintro machine machine' _ machines ⟨ended, ends, rfl⟩
    have started := machines.skip meets
    have grown := pairing.grows_skip machine.inNewScope.scope scope
    obtain ⟨later, outcome', grown', ends', outcomes⟩ :=
      (agrees grown (pairing.skip_blank _ _)).forth started ends
    exact ⟨later, outcome', grown.trans grown', ends', machines.scope ▸ outcomes.comeBack machine⟩
  back := by
    intro machine machine' outcome' machines ends
    have started := machines.skip meets
    have grown := pairing.grows_skip machine.inNewScope.scope scope
    obtain ⟨later, outcome, grown', ends', outcomes⟩ :=
      (agrees grown (pairing.skip_blank _ _)).back started ends
    exact ⟨later, _, grown.trans grown', ⟨outcome, ends', rfl⟩,
      machines.scope ▸ outcomes.comeBack machine⟩

/-- What is done without a new scope may agree with what is done in one. -/
theorem Agrees.skip' (agrees : ∀ {later : Pairing} {inner' : Nat}, pairing.Grows later →
      later.blank' inner' scope' → ending.Agrees later scope inner' same ending') :
    ending.Agrees pairing scope scope' same ending'.inNewScope where
  forth := by
    intro machine machine' outcome machines ends
    have started := machines.skip' meets
    have grown := pairing.grows_skip' machine'.inNewScope.scope scope'
    obtain ⟨later, outcome', grown', ends', outcomes⟩ :=
      (agrees grown (pairing.skip'_blank' _ _)).forth started ends
    exact ⟨later, _, grown.trans grown', ⟨outcome', ends', rfl⟩,
      machines.scope' ▸ outcomes.comeBack' machine'⟩
  back := by
    rintro machine machine' _ machines ⟨ended, ends, rfl⟩
    have started := machines.skip' meets
    have grown := pairing.grows_skip' machine'.inNewScope.scope scope'
    obtain ⟨later, outcome, grown', ends', outcomes⟩ :=
      (agrees grown (pairing.skip'_blank' _ _)).back started ends
    exact ⟨later, outcome, grown.trans grown', ends', machines.scope' ▸ outcomes.comeBack' machine'⟩

/-- What is done in a new scope may agree with what is done in another new one. -/
theorem Agrees.pair (agrees : ∀ {later : Pairing} {inner inner' : Nat}, pairing.Grows later →
      later.paired inner inner' → ending.Agrees later inner inner' same ending') :
    ending.inNewScope.Agrees pairing scope scope' same ending'.inNewScope where
  forth := by
    rintro machine machine' _ machines ⟨ended, ends, rfl⟩
    have started := machines.pair meets
    have grown := pairing.grows_pair machine.inNewScope.scope machine'.inNewScope.scope
    obtain ⟨later, outcome', grown', ends', outcomes⟩ :=
      (agrees grown (pairing.pair_paired _ _)).forth started ends
    have outcomes := (outcomes.comeBack machine).comeBack' machine'
    rw [machines.scope, machines.scope'] at outcomes
    exact ⟨later, _, grown.trans grown', ⟨outcome', ends', rfl⟩, outcomes⟩
  back := by
    rintro machine machine' _ machines ⟨ended, ends, rfl⟩
    have started := machines.pair meets
    have grown := pairing.grows_pair machine.inNewScope.scope machine'.inNewScope.scope
    obtain ⟨later, outcome, grown', ends', outcomes⟩ :=
      (agrees grown (pairing.pair_paired _ _)).back started ends
    have outcomes := (outcomes.comeBack machine).comeBack' machine'
    rw [machines.scope, machines.scope'] at outcomes
    exact ⟨later, _, grown.trans grown', ⟨outcome, ends', rfl⟩, outcomes⟩

end Scopes

end Ending

/-- On machines that mirror each other code ends alike. -/
theorem Code.agrees {kind : ResultKind} {code code' : Code kind} {pairing : Pairing}
    {scope scope' : Nat}
    (codes : code.Mirrors pairing code') (stands : code.Stands pairing scope scope') :
    Ending.Agrees pairing scope scope' kind.Mirrors code.Ends code'.Ends where
  forth := by
    rintro machine machine' outcome machines ⟨ended, bound, rfl⟩
    obtain ⟨later, grown, outcomes⟩ :=
      Code.run_parallels bound codes stands machine machine' machines
    exact ⟨later, _, grown,
      .of_run rfl fun exhausted => ended (outcomes.exhausted_iff.mpr exhausted),
      outcomes⟩
  back := by
    rintro machine machine' outcome' machines ⟨ended, bound, rfl⟩
    obtain ⟨later, grown, outcomes⟩ :=
      Code.run_parallels bound codes stands machine machine' machines
    exact ⟨later, _, grown,
      .of_run rfl fun exhausted => ended (outcomes.exhausted_iff.mp exhausted),
      outcomes⟩

end EventScript
