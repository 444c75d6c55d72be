import EventScript.Proofs.Maps.Filing

/-!
# Accounts of evaluation

Evaluation that starts with the accounts in order comes to all code with the accounts in order, and
leaves them so (`Code.accounts`). The history grows by each piece of code when it is come to. A call
of a built-in function comes to no other code, so what it files is there before anything else is
come to.
-/

namespace EventScript

/-- Something holds of each occasion and those before it. -/
def Unfolds (holds : List Occasion → Occasion → Prop) : List Occasion → List Occasion → Prop
  | _, [] => True
  | past, first :: rest => holds past first ∧ Unfolds holds (past ++ [first]) rest

section Unfolds

variable {holds : List Occasion → Occasion → Prop} {past front back : List Occasion}

/-- A history that unfolds over one list and then another unfolds over both. -/
theorem Unfolds.append (first : Unfolds holds past front)
    (second : Unfolds holds (past ++ front) back) :
    Unfolds holds past (front ++ back) := by
  induction front generalizing past with
  | nil => rwa [List.append_nil] at second
  | cons occasion rest ih =>
    refine ⟨first.1, ih first.2 ?_⟩
    rwa [List.append_assoc]

/-- What holds of each occasion holds of one among them. -/
theorem Unfolds.at {occasion : Occasion}
    (unfolds : Unfolds holds past (front ++ occasion :: back)) :
    holds (past ++ front) occasion := by
  induction front generalizing past with
  | nil =>
    rw [List.append_nil]
    exact unfolds.1
  | cons first rest ih =>
    have rest := ih unfolds.2
    rwa [List.append_assoc] at rest

/-- Each occasion of a list that a history unfolds over comes after some history. -/
theorem Unfolds.exists_of_mem {occasions : List Occasion} {occasion : Occasion}
    (unfolds : Unfolds holds past occasions) (member : occasion ∈ occasions) :
    ∃ history, holds history occasion := by
  obtain ⟨front, back, rfl⟩ := List.append_of_mem member
  exact ⟨_, unfolds.at⟩

end Unfolds

/-- The accounts of a ledger are in order when the occasion comes, and it vouches for the values in
hand. -/
def Occasion.Accounted (history : List Occasion) (occasion : Occasion) : Prop :=
  ∃ ledger : Ledger, ledger.Accounts history occasion.machine ∧
    ∀ value ∈ occasion.code.hand, ledger.Vouches value

/-- From the history on, the accounts are in order at each occasion, and in the end. -/
structure Ledger.Keeps (ledger : Ledger) (history occasions : List Occasion) {α : Type}
    (values : α → List Value) (outcome : Outcome α) : Prop where
  unfolds : Unfolds Occasion.Accounted history occasions
  closes : ledger.Closes (history ++ occasions) values outcome

namespace Ledger

variable {α : Type} {ledger later : Ledger} {history first second : List Occasion}
    {machine : Machine}
variable {values : α → List Value} {outcome : Outcome α}

/-- What goes on from a later ledger may come after other occasions. -/
theorem Keeps.after (unfolds : Unfolds Occasion.Accounted history first)
    (goesOn : ledger.Extends later)
    (keeps : later.Keeps (history ++ first) second values outcome) :
    ledger.Keeps history (first ++ second) values outcome := by
  refine ⟨unfolds.append keeps.unfolds, ?_⟩
  rw [← List.append_assoc]
  exact keeps.closes.trans goesOn

/-- What keeps the account from a later ledger on keeps it from an earlier one on. -/
theorem Keeps.trans (goesOn : ledger.Extends later)
    (keeps : later.Keeps history first values outcome) :
    ledger.Keeps history first values outcome :=
  ⟨keeps.unfolds, keeps.closes.trans goesOn⟩

/-- Without other occasions there is only the end. -/
theorem keeps_nil (closes : ledger.Closes history values outcome) :
    ledger.Keeps history [] values outcome := by
  refine ⟨trivial, ?_⟩
  rwa [List.append_nil]

end Ledger

/-- The accounts depend on the heap and the event loop only, which a setting does not concern. -/
theorem Setting.accounts_enter {ledger : Ledger} {history : List Occasion} {machine : Machine}
    (accounts : ledger.Accounts history machine) (setting : Setting) :
    ledger.Accounts history (setting.enter machine) := by
  cases setting <;> exact accounts.of_same rfl rfl

/-- Leaving inner code changes nothing that a ledger accounts for. -/
theorem Setting.accounts_leave {ledger : Ledger} {history : List Occasion} {later : Machine}
    (accounts : ledger.Accounts history later) (setting : Setting) (machine : Machine) :
    ledger.Accounts history (setting.leave machine later) := by
  cases setting <;> exact accounts.of_same rfl rfl

/-- Evaluation within the bound keeps the accounts. -/
def KeepsAccounts (bound : Nat) : Prop :=
  ∀ {kind : ResultKind} (code : Code kind) {ledger : Ledger} {history : List Occasion}
    {machine : Machine},
    ledger.Accounts history machine → (∀ value ∈ code.hand, ledger.Vouches value) →
      ledger.Keeps history (code.trace bound machine) kind.hand (code.run bound machine)

/-- A plan of one step comes to no code. -/
theorem Plan.fullTrace_last {α : Type} (bound : Nat) (run : Run α) (machine : Machine) :
    (last run).fullTrace bound machine = [] := by
  unfold last fullTrace
  rw [trace]
  split <;> rfl

/-- A plan of one last step does what the step does. -/
theorem Plan.carryOut_last {α : Type} (runner : Runner) (run : Run α) (machine : Machine) :
    (last run).carryOut runner machine = run machine := by
  show ((run >>= pure) : Run α) machine = run machine
  rw [bind_pure]

/-- A plan that handles only the values in hand keeps the accounts if inner code does. -/
theorem Plan.accounts {α : Type} {bound : Nat} {plan : Plan α} {values : α → List Value}
    {hand : List Value} (handles : plan.Handles values hand) (inner : KeepsAccounts bound)
    {ledger : Ledger} {history : List Occasion} {machine : Machine}
    (accounts : ledger.Accounts history machine) (vouches : ∀ value ∈ hand, ledger.Vouches value) :
    ledger.Keeps history (plan.fullTrace bound machine) values
      (plan.carryOut (.within bound) machine) := by
  induction plan generalizing ledger history machine hand with
  | give result =>
    exact Ledger.keeps_nil ⟨ledger, ledger.extends_refl, accounts, fun value member =>
      vouches value (handles member)⟩
  | perform run next ih =>
    obtain ⟨given, results, runs, inHand, onward⟩ := handles
    have follows := runs ledger machine accounts.balances fun value member =>
      vouches value (inHand member)
    cases done : run machine with
    | exhausted =>
      simp only [fullTrace, trace, done, carryOut, bind, List.flatMap_nil]
      exact Ledger.keeps_nil trivial
    | failed diagnostic after =>
      rw [done] at follows
      simp only [fullTrace, trace, done, carryOut, bind, List.flatMap_nil]
      exact Ledger.keeps_nil (follows.closes accounts)
    | done result after =>
      rw [done] at follows
      obtain ⟨later, goesOn, balances, kept, gives⟩ := follows
      rw [fullTrace_done done, carryOut_done done]
      refine .trans goesOn (ih result (onward result) (accounts.step goesOn balances kept) ?_)
      intro value member
      rcases List.mem_append.mp member with new | old
      · exact gives value new
      · exact (vouches value old).extend goesOn
  | @visit kind setting code next ih =>
    obtain ⟨inHand, onward⟩ := handles
    have keeps := inner code (setting.accounts_enter accounts) fun value member =>
      vouches value (inHand member)
    have same : Runner.within bound kind code = code.run bound := rfl
    unfold fullTrace
    cases done : code.run bound (setting.enter machine) with
    | exhausted =>
      rw [done] at keeps
      simp only [trace, same, done, carryOut, bind, Setting.around, Setting.outward,
        List.flatMap_cons, List.flatMap_nil, List.append_nil]
      exact ⟨keeps.unfolds, trivial⟩
    | failed diagnostic after =>
      rw [done] at keeps
      obtain ⟨later, goesOn, closed⟩ := keeps.closes
      simp only [trace, same, done, carryOut, bind, Setting.around, Setting.outward,
        List.flatMap_cons, List.flatMap_nil, List.append_nil]
      exact ⟨keeps.unfolds, later, goesOn, setting.accounts_leave closed machine⟩
    | done result after =>
      rw [done] at keeps
      obtain ⟨later, goesOn, closed, gives⟩ := keeps.closes
      have rest :=
        ih result (onward result) (setting.accounts_leave closed machine) fun value member =>
        (List.mem_append.mp member).elim (gives value) fun old => (vouches value old).extend goesOn
      unfold fullTrace at rest
      simpa only [trace, carryOut, bind, Setting.around, same, done, Setting.outward,
        List.flatMap_cons] using Ledger.Keeps.after keeps.unfolds goesOn rest

/-- Evaluation keeps the accounts. -/
theorem Code.accounts (bound : Nat) : KeepsAccounts bound := by
  induction bound with
  | zero =>
    intro kind code ledger history machine accounts vouches
    rw [Code.run_zero]
    exact ⟨⟨⟨ledger, accounts, vouches⟩, trivial⟩, trivial⟩
  | succ bound ih =>
    intro kind code ledger history machine accounts vouches
    have here : Unfolds Occasion.Accounted history [⟨code, machine⟩] :=
      ⟨⟨ledger, accounts, vouches⟩, trivial⟩
    rw [Code.run_succ]
    show ledger.Keeps history ([⟨code, machine⟩] ++ code.plan.fullTrace bound machine) _ _
    cases other : code.isBuiltin with
    | false =>
      have noted := accounts.note ⟨code, machine⟩ other vouches
      exact Ledger.Keeps.after here ledger.extends_refl
        (Plan.accounts (code.plan_handles other) ih noted (Ledger.vouches_reach vouches))
    | true =>
      cases code with
      | call callee arguments span =>
        cases callee with
        | builtin identity function receiver =>
          -- The call is one step, in which no other code is run.
          have one : (Code.call (.builtin identity function receiver) arguments span).plan =
              Plan.last (function.call receiver arguments span) := rfl
          rw [one]
          rw [Plan.fullTrace_last, Plan.carryOut_last]
          exact ⟨here, accounts.call identity function receiver arguments span vouches⟩
        | _ => contradiction
      | _ => contradiction

/-- Code that gives a result leaves the accounts in order, and the result is vouched for. -/
theorem Ledger.Accounts.of_done {kind : ResultKind} {code : Code kind} {bound : Nat}
    {ledger : Ledger}
    {history : List Occasion} {machine later : Machine} {result : kind.Result}
    (accounts : ledger.Accounts history machine)
    (vouches : ∀ value ∈ code.hand, ledger.Vouches value)
    (ended : code.run bound machine = .done result later) :
    ∃ more : Ledger, ledger.Extends more ∧
    more.Accounts (history ++ code.trace bound machine) later ∧
      ∀ value ∈ kind.hand result, more.Vouches value := by
  have closes := (Code.accounts bound code accounts vouches).closes
  rwa [ended] at closes

end EventScript
