import EventScript.Proofs.Syntax.Branches
import EventScript.Proofs.Syntax.Reader

/-!
# Statements that declare nothing around them

A statement that is read as the body of a loop or as a branch declares nothing in the scope that it
is run in (`Parse.statement_plain`): it is no declaration, and neither are the branches it is made
of. What it declares, it declares inside blocks of its own.
-/

namespace EventScript

/-- The statement declares nothing in the scope that it is run in. -/
inductive Stmt.Plain : Stmt → Prop where
  | intro {stmt : Stmt} (bare : stmt.declared? = none)
      (branches : ∀ branch ∈ stmt.branches, Plain branch) : Plain stmt

/-- A plain statement declares nothing. -/
theorem Stmt.Plain.declared? {stmt : Stmt} (plain : stmt.Plain) : stmt.declared? = none := by
  cases plain with
  | intro bare => exact bare

/-- The branches of a plain statement are plain. -/
theorem Stmt.Plain.branch {stmt branch : Stmt} (plain : stmt.Plain)
    (member : branch ∈ stmt.branches) :
    branch.Plain := by
  cases plain with
  | intro _ branches => exact branches branch member

/-- A statement without branches that is no declaration declares nothing. -/
theorem Stmt.Plain.of_bare {stmt : Stmt} (bare : stmt.declared? = none)
    (alone : stmt.branches = []) :
    stmt.Plain := .intro bare (alone ▸ List.forall_mem_nil _)

/-- A loop with a plain body is plain. -/
theorem Stmt.Plain.while {body : Stmt} (plain : body.Plain) (span : Span) (condition : Expr) :
    (Stmt.while span condition body).Plain := .intro rfl (List.forall_mem_singleton.mpr plain)

namespace Parse

variable {α β : Type}

/-- All that the reader finds has the property. -/
def FindsOnly (reader : Parse α) (property : α → Prop) : Prop :=
  ∀ ⦃tokens value rest⦄, reader tokens = .ok (value, rest) → property value

variable {property : α → Prop}

/-- A reader that takes nothing finds only what it gives. -/
theorem FindsOnly.pure {value : α} (holds : property value) : FindsOnly (pure value) property := by
  intro tokens found rest given
  obtain ⟨rfl, -⟩ := Prod.mk.inj (Except.ok.inj given)
  exact holds

/-- A reader that fails finds only what one likes. -/
theorem FindsOnly.fail (fault : SyntaxFault) : FindsOnly (fail fault : Parse α) property := nofun

/-- What was found before has a property of its own. -/
theorem FindsOnly.then {reader : Parse β} {next : β → Parse α} {before : β → Prop}
    (finds : reader.FindsOnly before)
    (onward : ∀ value, before value → (next value).FindsOnly property) :
    (reader >>= next).FindsOnly property := by
  intro tokens value rest given
  rw [bind_eq] at given
  cases found : reader tokens with
  | error diagnostic =>
    rw [found] at given
    contradiction
  | ok result =>
    obtain ⟨first, middle⟩ := result
    rw [found] at given
    exact onward first (finds found) given

/-- What comes before does not matter if what follows has the property. -/
theorem FindsOnly.bind {reader : Parse β} {next : β → Parse α}
    (onward : ∀ value, (next value).FindsOnly property) : (reader >>= next).FindsOnly property :=
  FindsOnly.then (fun _ _ _ _ => trivial) fun value (_ : True) => onward value

/-- The loop that a `for` statement means declares nothing if its body does not. -/
theorem plain_forLoop {start separator : Span} {initializer : Option Stmt}
    {condition increment : Option Expr} {body : Stmt} (plain : body.Plain) :
    (forLoop start initializer condition separator increment body).Plain := by
  unfold forLoop
  cases initializer with
  | some first => exact .of_bare rfl rfl
  | none =>
    cases increment with
    | none => exact plain.while _ _
    | some step => exact .while (.of_bare rfl rfl) _ _

mutual

/-- A statement that is no declaration declares nothing in the scope that it is run in. -/
theorem statement_plain : (depth : Nat) → (statement depth).FindsOnly Stmt.Plain
  | 0 => .fail _
  | depth + 1 => by
    rw [statement]
    refine .bind fun kind => ?_
    split
    · exact .bind fun _ => forStatement_plain depth _
    · exact .bind fun _ => ifStatement_plain depth _
    · exact .bind fun _ => .bind fun _ => .bind fun _ => .pure (.of_bare rfl rfl)
    · refine .bind fun start => ?_
      rw [returnStatement_eq]
      exact .bind fun _ => .bind fun _ => .pure (.of_bare rfl rfl)
    · exact .bind fun _ => whileStatement_plain depth _
    · exact .bind fun _ => .bind fun _ => .pure (.of_bare rfl rfl)
    · exact .bind fun _ => .bind fun _ => .bind fun _ => .pure (.of_bare rfl rfl)
    · exact .bind fun _ => .bind fun _ => .pure (.of_bare rfl rfl)

/-- What is read as a `for` statement is plain. -/
theorem forStatement_plain : (depth : Nat) → (start : Span) →
    (forStatement depth start).FindsOnly Stmt.Plain
  | 0, _ => .fail _
  | depth + 1, start => by
    rw [forStatement_succ]
    refine .bind fun _ => .bind fun _ => .bind fun _ => ?_
    refine .bind fun _ => .bind fun _ => .bind fun _ => ?_
    exact (statement_plain depth).then fun body plain => .pure (plain_forLoop plain)

/-- What is read as an `if` statement is plain. -/
theorem ifStatement_plain : (depth : Nat) → (start : Span) →
    (ifStatement depth start).FindsOnly Stmt.Plain
  | 0, _ => .fail _
  | depth + 1, start => by
    rw [ifStatement]
    refine .bind fun _ => .bind fun condition => .bind fun _ => ?_
    refine (statement_plain depth).then fun thenBranch first => .bind fun word => ?_
    split
    · exact .pure (.intro rfl (List.forall_mem_singleton.mpr first))
    · refine (statement_plain depth).then fun elseBranch second => ?_
      have both := List.forall_mem_cons.mpr ⟨first, List.forall_mem_singleton.mpr second⟩
      exact .pure (.intro rfl both)

/-- What is read as a `while` statement is plain. -/
theorem whileStatement_plain : (depth : Nat) → (start : Span) →
    (whileStatement depth start).FindsOnly Stmt.Plain
  | 0, _ => .fail _
  | depth + 1, start => by
    rw [whileStatement]
    refine .bind fun _ => .bind fun _ => .bind fun _ => ?_
    exact (statement_plain depth).then fun body plain => .pure (plain.while _ _)

end

end Parse

end EventScript
