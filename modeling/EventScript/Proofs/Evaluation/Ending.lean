import EventScript.Proofs.Evaluation.Contract

/-!
# How evaluation ends

A larger bound changes nothing once the bound suffices (`Code.run_mono`), so code on a machine ends
in one way at most (`Code.Ends`). Running statements one after the other is running the first ones
and then, if they do not end it, the others (`Code.ends_append`).
-/

namespace EventScript

/-- What a computation gives after another one is given from where that one ended. -/
theorem Run.exists_of_bind {α β : Type} {first : Run α} {next : α → Run β} {machine later : Machine}
    {result : β} (done : (first >>= next) machine = .done result later) :
    ∃ value middle, first machine = .done value middle ∧
    next value middle = .done result later := by
  cases ended : first machine with
  | exhausted =>
    rw [bind_exhausted ended] at done
    contradiction
  | failed diagnostic middle =>
    rw [bind_failed ended] at done
    contradiction
  | done value middle =>
    rw [bind_done ended] at done
    exact ⟨value, middle, rfl, done⟩

/-- Where carrying out a plan ends, all code that it comes to ends. -/
theorem Plan.Visits.ends {α : Type} {runner : Runner} {plan : Plan α} {machine reached : Machine}
    {kind : ResultKind} {code : Code kind} (visits : Plan.Visits runner plan machine code reached)
    (ends : plan.carryOut runner machine ≠ .exhausted) : runner kind code reached ≠ .exhausted := by
  induction visits with
  | perform done _ ih =>
    apply ih
    rwa [Plan.carryOut, Run.bind_done done] at ends
  | here =>
    intro exhausted
    apply ends
    simp only [Plan.carryOut, bind, Setting.around, exhausted, Setting.outward]
  | onward done _ ih =>
    apply ih
    simpa only [Plan.carryOut, bind, Setting.around, done, Setting.outward] using ends

namespace Code

variable {kind : ResultKind} {code : Code kind} {machine later : Machine}

/-- Code that ends within a bound ends so within every larger one. -/
theorem run_mono {bound larger : Nat} (le : bound ≤ larger)
    (ends : code.run bound machine ≠ .exhausted) :
    code.run larger machine = code.run bound machine := by
  induction bound generalizing kind code machine larger with
  | zero => exact absurd (code.run_zero machine) ends
  | succ bound ih =>
    obtain ⟨larger, rfl⟩ : ∃ less, larger = less + 1 := ⟨larger - 1, by omega⟩
    rw [run_succ] at ends
    rw [run_succ, run_succ]
    refine (Plan.carryOut_congr code.plan machine fun inner reached visits => ?_).symm
    exact (ih (Nat.le_of_succ_le_succ le) (visits.ends ends)).symm

/-- Within every large enough bound the code ends in this outcome. -/
def Ends (code : Code kind) (machine : Machine) (outcome : Outcome kind.Result) : Prop :=
  outcome ≠ .exhausted ∧ ∃ bound, code.run bound machine = outcome

variable {outcome other : Outcome kind.Result}

/-- What code is seen to do within a bound it ends in. -/
theorem Ends.of_run {bound : Nat} (ran : code.run bound machine = outcome)
    (ends : outcome ≠ .exhausted) : code.Ends machine outcome := ⟨ends, bound, ran⟩

/-- Within a bound that suffices the code ends as it does. -/
theorem Ends.eq {bound : Nat} (ends : code.Ends machine outcome)
    (enough : code.run bound machine ≠ .exhausted) : code.run bound machine = outcome := by
  obtain ⟨ended, other, ran⟩ := ends
  rcases Nat.le_total bound other with le | le
  · rw [← run_mono le enough, ran]
  · rw [run_mono le (ran ▸ ended), ran]

/-- Code ends in one way at most. -/
theorem Ends.unique (ends : code.Ends machine outcome) (ends' : code.Ends machine other) :
    outcome = other := by
  obtain ⟨ended, bound, ran⟩ := ends
  rw [← ran]
  exact ends'.eq (ran ▸ ended)

section Statements

variable {first : Stmt} {rest statements others : List Stmt} {outcome : Outcome Flow}

/-- Without statements the next thing is gone on to. -/
theorem ends_nil : (Code.stmts []).Ends machine outcome ↔ outcome = .done .next machine := by
  constructor
  · rintro ⟨ended, bound, ran⟩
    cases bound with
    | zero => exact absurd ran.symm ended
    | succ bound => exact ran.symm
  · rintro rfl
    exact ⟨nofun, 1, rfl⟩

/-- The outcome of statements of which the first one has ended. -/
def goOn (bound : Nat) (rest : List Stmt) : Outcome Flow → Outcome Flow
  | .done .next later => (Code.stmts rest).run bound later
  | other => other

/-- The first of some statements is run before the rest. -/
theorem run_cons (bound : Nat) (first : Stmt) (rest : List Stmt) (machine : Machine) :
    (Code.stmts (first :: rest)).run (bound + 1) machine =
      goOn bound rest ((Code.stmt first).run bound machine) := by
  unfold run
  dsimp only
  unfold executeAll
  cases ended : execute bound first machine with
  | exhausted => exact Run.bind_exhausted ended
  | failed diagnostic later => exact Run.bind_failed ended
  | done flow later =>
    rw [Run.bind_done ended]
    cases flow <;> rfl

/-- The last outcome is that of the rest if the first statement goes on to them, and else its
own. -/
def Follows (rest : List Stmt) : Outcome Flow → Outcome Flow → Prop
  | .done .next later, last => (Code.stmts rest).Ends later last
  | other, last => last = other

/-- An outcome within a bound follows the first statement's, if that ends. -/
theorem follows_goOn {bound : Nat} {ending : Outcome Flow}
    (ends : goOn bound rest ending ≠ .exhausted) :
    Follows rest ending (goOn bound rest ending) := by
  cases ending with
  | failed | exhausted => exact rfl
  | done flow later =>
    cases flow with
    | returned | broke => exact rfl
    | next => exact ⟨ends, bound, rfl⟩

/-- What follows the first statement is the outcome within every large enough bound. -/
theorem Follows.exists_goOn {ending : Outcome Flow} (follows : Follows rest ending outcome) :
    ∃ enough, ∀ bound, enough ≤ bound → goOn bound rest ending = outcome := by
  cases ending with
  | failed | exhausted => exact ⟨0, fun _ _ => Eq.symm follows⟩
  | done flow later =>
    cases flow with
    | returned | broke => exact ⟨0, fun _ _ => Eq.symm follows⟩
    | next =>
      obtain ⟨ended, enough, ran⟩ := follows
      exact ⟨enough, fun bound le => (run_mono le (ran ▸ ended)).trans ran⟩

/-- Statements end as the first one does, or go on with the rest. -/
theorem ends_cons :
    (Code.stmts (first :: rest)).Ends machine outcome ↔
      ∃ ending, (Code.stmt first).Ends machine ending ∧ Follows rest ending outcome ∧
        outcome ≠ .exhausted := by
  constructor
  · rintro ⟨ended, bound, ran⟩
    cases bound with
    | zero => exact absurd ran.symm ended
    | succ bound =>
      rw [run_cons] at ran
      subst ran
      refine ⟨_, .of_run rfl fun exhausted => ?_, follows_goOn ended, ended⟩
      rw [exhausted] at ended
      exact ended rfl
  · rintro ⟨ending, ⟨ended, bound, ran⟩, follows, ended'⟩
    obtain ⟨enough, goesOn⟩ := follows.exists_goOn
    refine ⟨ended', max bound enough + 1, ?_⟩
    rw [run_cons, run_mono (Nat.le_max_left _ _) (ran ▸ ended), ran]
    exact goesOn _ (Nat.le_max_right _ _)

/-- Statements that go on to the next do so after the first one too. -/
theorem Follows.goesOn {ending : Outcome Flow} (follows : Follows rest ending (.done .next later)) :
    ∃ middle, ending = .done .next middle ∧ (Code.stmts rest).Ends middle (.done .next later) := by
  cases ending with
  | failed | exhausted => cases (follows : Outcome.done _ _ = _)
  | done flow middle =>
    cases flow with
    | returned | broke => cases (follows : Outcome.done _ _ = _)
    | next => exact ⟨middle, rfl, follows⟩

/-- Statements that go on to the next do so one after the other. -/
theorem exists_of_ends_append
    (ends : (Code.stmts (statements ++ others)).Ends machine (.done .next later)) :
    ∃ middle, (Code.stmts statements).Ends machine (.done .next middle) ∧
      (Code.stmts others).Ends middle (.done .next later) := by
  induction statements generalizing machine with
  | nil => exact ⟨machine, ends_nil.mpr rfl, ends⟩
  | cons first rest ih =>
    obtain ⟨ending, firstEnds, follows, -⟩ := ends_cons.mp ends
    obtain ⟨reached, rfl, restEnds⟩ := follows.goesOn
    obtain ⟨middle, goesOn, onward⟩ := ih restEnds
    exact ⟨middle, ends_cons.mpr ⟨_, firstEnds, goesOn, nofun⟩, onward⟩

/-- Where the first statements go on to the next, all of them end as the others do from there. -/
theorem ends_append (goesOn : (Code.stmts statements).Ends machine (.done .next later)) :
    (Code.stmts (statements ++ others)).Ends machine outcome ↔
      (Code.stmts others).Ends later outcome := by
  induction statements generalizing machine with
  | nil =>
    obtain ⟨-, rfl⟩ := Outcome.done.inj (ends_nil.mp goesOn)
    exact Iff.rfl
  | cons first rest ih =>
    obtain ⟨ending, firstEnds, follows, -⟩ := ends_cons.mp goesOn
    obtain ⟨middle, rfl, restEnds⟩ := follows.goesOn
    rw [List.cons_append, ends_cons, ← ih restEnds]
    constructor
    · rintro ⟨ending, ends, follows, -⟩
      obtain rfl := firstEnds.unique ends
      exact follows
    · intro follows
      exact ⟨_, firstEnds, follows, follows.1⟩

end Statements

end Code

end EventScript
