import EventScript.Proofs.Evaluation.Declaring
import EventScript.Proofs.Evaluation.Growth
import EventScript.Proofs.Evaluation.Record
import EventScript.Proofs.Resolution.Stems
import EventScript.Proofs.Syntax.Plain

/-!
# The names that scopes bind

Which names a scope binds changes only where a declaration is run in the scope itself. Code adds the
names that its statements declare, or the branches of these (`Stmt.Adds`), to the scope where it
runs, and none to other scopes, however it ends and whatever it calls (`Code.leaves_addsOnly`). A
branch that was read from a text declares nothing, so blocks, branches and loops leave all scopes
with the names that they bound (`Program.scopes_keep_names`).
-/

namespace EventScript

open Run Plan

/-- The statement adds the name to the scope where it runs, if it does not end before: it declares
the name itself, or one of its branches does. -/
inductive Stmt.Adds : Stmt → String → Prop where
  | own {form : Stmt} {name : String} (declared : form.declared? = some name) : Adds form name
  | branch {form branch : Stmt} {name : String} (member : branch ∈ form.branches)
      (adds : Adds branch name) : Adds form name

/-- The code may add the name to the scope where it runs. -/
def Code.Adds : {kind : ResultKind} → Code kind → String → Prop
  | _, .stmt form, name => form.Adds name
  | _, .stmts forms, name => ∃ form ∈ forms, form.Adds name
  | _, .loop _ body, name => body.Adds name
  | _, _, _ => False

/-- Only statements add names. -/
theorem Code.not_adds {kind : ResultKind} {code : Code kind} (unflowing : kind ≠ .flow)
    (name : String) :
    ¬ code.Adds name := by
  cases code with
  | stmt | stmts | loop => contradiction
  | _ => exact id

/-- However code ends, it has added only names that it may add. -/
def nameContract : Contract where
  before _ _ := True
  after code machine outcome := outcome.Leaves (machine.AddsOnly code.Adds)
  exhausted _ _ := trivial

section Rules

variable {α : Type} {added : String → Prop} {start machine : Machine}

/-- From the machine on, the plan adds no other names in any scope that there was at the start. -/
abbrev Plan.AddsWithin (plan : Plan α) (added : String → Prop) (start machine : Machine) : Prop :=
  plan.Meets nameContract (Outcome.Leaves (start.AddsOnly added)) machine

/-- A plan may go on after a step that adds no names. -/
theorem addsWithin_perform {β : Type} {run : Run β} {next : β → Plan α} (never : run.NeverAdds)
    (early : start.AddsOnly added machine)
    (onward : ∀ value later, start.AddsOnly added later →
      (next value).AddsWithin added start later) :
    (perform run next).AddsWithin added start machine := by
  have leaves := never machine
  unfold Plan.AddsWithin Plan.Meets
  cases ended : run machine with
  | done value later =>
    rw [ended] at leaves
    exact onward value later (early.trans (Machine.AddsNothing.addsOnly leaves))
  | failed diagnostic later =>
    rw [ended] at leaves
    exact early.trans (Machine.AddsNothing.addsOnly leaves)
  | exhausted => trivial

/-- A plan may go on after code that runs in the same scope and may add no more than the plan. -/
theorem addsWithin_visit {kind : ResultKind} {setting : Setting} {code : Code kind}
    {next : kind.Result → Plan α} (stays : setting.stays = true)
    (allowed : ∀ name, code.Adds name → added name) (early : start.AddsOnly added machine)
    (onward : ∀ result later, start.AddsOnly added later →
      (next result).AddsWithin added start later) :
    (visit setting code next).AddsWithin added start machine := by
  refine ⟨trivial, fun outcome after => ?_⟩
  cases setting with
  | inScope | inCall => contradiction
  | here | «at» =>
    cases outcome with
    | done result later => exact onward result later (early.trans (after.mono allowed))
    | failed diagnostic later => exact early.trans (after.mono allowed)
    | exhausted => trivial

/-- A plan may go on after an expression. -/
theorem addsWithin_expr {form : Expr} {next : Value → Plan α} (early : start.AddsOnly added machine)
    (onward : ∀ value later, start.AddsOnly added later →
      (next value).AddsWithin added start later) :
    (visit .here (.expr form) next).AddsWithin added start machine :=
  addsWithin_visit rfl (fun _ => False.elim) early onward

/-- A plan may become code that may add no more than the plan. -/
theorem addsWithin_become {kind : ResultKind} {code : Code kind} {added : String → Prop}
    (allowed : ∀ name, code.Adds name → added name) (early : start.AddsOnly added machine) :
    (become code).AddsWithin added start machine :=
  addsWithin_visit rfl allowed early fun _ _ => id

/-- A plan may end with the declaration of a variable. -/
theorem addsWithin_declare {name : String} {value : Value} (own : added name)
    (early : start.AddsOnly added machine) :
    (perform (declare name value) fun _ => give Flow.next).AddsWithin added start machine := by
  refine Machine.AddsOnly.trans early ?_
  exact (machine.addsOnly_declare name value).mono fun _ same => same ▸ own

/-- Statements that run in a scope not there before add nothing to the others, however they end. -/
theorem addsWithin_inNewScope {setting : Setting} {body : List Stmt} {next : Flow → Plan α}
    {opened : Machine} (early : start.AddsOnly added machine) (opens : machine.AddsNothing opened)
    (heap : (setting.enter opened).heap = opened.heap)
    (new : machine.heap.scopes.size ≤ (setting.enter opened).scope)
    (leaves : ∀ later : Machine, (setting.leave opened later).scope = opened.scope ∧
      (setting.leave opened later).heap = later.heap)
    (onward : ∀ flow later, start.AddsOnly added later → (next flow).AddsWithin added start later) :
    (visit setting (.stmts body) next).AddsWithin added start opened := by
  refine ⟨trivial, fun outcome after => ?_⟩
  have left : ∀ later, (setting.enter opened).AddsOnly (Code.stmts body).Adds later →
      start.AddsOnly added (setting.leave opened later) := by
    intro later adds
    obtain ⟨scope, kept⟩ := leaves later
    have nothing := adds.inNewScope opens heap new (scope.trans opens.scope) kept
    exact early.trans nothing.addsOnly
  cases outcome with
  | done flow later => exact onward flow _ (left later after)
  | failed diagnostic later => exact left later after
  | exhausted => trivial

/-- A plan of steps that add no names, and which runs no statements, adds no names. -/
theorem addsWithin_of_neverAdds {plan : Plan α} (never : plan.NeverAdds)
    (comes : plan.Comes fun setting {inner} _ => inner ≠ .flow ∧ setting.stays = true)
    (early : start.AddsOnly added machine) : plan.AddsWithin added start machine := by
  induction plan generalizing machine with
  | give value => exact early
  | perform run next ih =>
    exact addsWithin_perform never.1 early fun value later => ih value (never.2 value) (comes value)
  | visit setting code next ih =>
    obtain ⟨⟨unflowing, stays⟩, further⟩ := comes
    refine addsWithin_visit stays ?_ early ?_
    · intro name adds
      exact absurd adds (Code.not_adds unflowing name)
    · intro result later
      exact ih result (never result) (further result)

end Rules

/-- A statement adds to its scope what it declares, and what its branches add. -/
theorem Stmt.plan_addsWithin (form : Stmt) (machine : Machine) :
    form.plan.AddsWithin form.Adds machine machine := by
  have same : machine.AddsOnly form.Adds machine := machine.addsOnly_refl
  cases form with
  | letDecl span name initializer =>
    cases initializer with
    | none => exact addsWithin_declare (.own rfl) same
    | some value => exact addsWithin_expr same fun _ _ early => addsWithin_declare (.own rfl) early
  | function span decl =>
    apply addsWithin_perform (close_neverAdds decl) same
    intro function _ early
    exact addsWithin_declare (.own rfl) early
  | classDecl span name superclass methods =>
    apply addsWithin_perform (resolveSuperclass_keeps superclass).neverAdds same
    intro parent _ early
    apply addsWithin_perform (makeClass_neverAdds name parent methods) early
    intro cls _ early
    exact addsWithin_declare (.own rfl) early
  | expression => exact addsWithin_expr same fun _ _ early => early
  | print =>
    apply addsWithin_expr same
    intro value _ early
    exact addsWithin_perform (printValue_keeps value).neverAdds early fun _ _ early => early
  | block span body =>
    have opens := machine.addsNothing_newScope (some machine.scope)
    exact addsWithin_inNewScope same opens rfl (Nat.le_refl _) (fun _ => ⟨rfl, rfl⟩)
      fun _ _ early => early
  | conditional span condition thenBranch elseBranch =>
    apply addsWithin_expr same
    intro value later early
    split
    · exact addsWithin_become (fun name adds => .branch List.mem_cons_self adds) early
    · cases elseBranch with
      | none => exact early
      | some branch =>
        have member : branch ∈ [thenBranch, branch] := List.mem_cons_of_mem _ List.mem_cons_self
        exact addsWithin_become (fun name adds => .branch member adds) early
  | «while» =>
    exact addsWithin_become (fun name adds => .branch List.mem_cons_self adds) same
  | «return» span value =>
    cases value with
    | none => exact same
    | some value => exact addsWithin_expr same fun _ _ early => early
  | «break» => exact same

/-- Statements in a row add what each of them adds. -/
theorem Code.stmts_addsWithin (forms : List Stmt) (machine : Machine) :
    (Code.stmts forms).plan.AddsWithin (Code.stmts forms).Adds machine machine := by
  have same : machine.AddsOnly (Code.stmts forms).Adds machine := machine.addsOnly_refl
  cases forms with
  | nil => exact same
  | cons first rest =>
    have own : ∀ name, (Code.stmt first).Adds name → (Code.stmts (first :: rest)).Adds name :=
      fun name adds => ⟨first, List.mem_cons_self, adds⟩
    have others : ∀ name, (Code.stmts rest).Adds name → (Code.stmts (first :: rest)).Adds name :=
      fun name ⟨form, member, adds⟩ => ⟨form, List.mem_cons_of_mem _ member, adds⟩
    apply addsWithin_visit rfl own same
    intro flow later early
    cases flow with
    | next => exact addsWithin_become others early
    | returned | broke => exact early

/-- The rounds of a loop add what its body adds. -/
theorem Code.loop_addsWithin (condition : Expr) (body : Stmt) (machine : Machine) :
    (Code.loop condition body).plan.AddsWithin (Code.loop condition body).Adds machine machine := by
  have same : machine.AddsOnly (Code.loop condition body).Adds machine := machine.addsOnly_refl
  apply addsWithin_expr same
  intro value later early
  split
  · apply addsWithin_visit rfl (fun _ => id) early
    intro flow last early
    cases flow with
    | next => exact addsWithin_become (fun _ => id) early
    | returned | broke => exact early
  · exact early

/-- The body of a function adds its names to a scope of its own. -/
theorem Code.activation_addsWithin (called : Activation) (arguments : List Value)
    (machine : Machine) :
    (Code.activation called arguments).plan.AddsWithin
      (Code.activation called arguments).Adds machine
      machine := by
  have checks := (checkCall_keeps called.decl arguments.length).neverAdds
  apply addsWithin_perform checks machine.addsOnly_refl
  intro _ later early
  have opens := later.addsNothing_start called arguments
  exact addsWithin_inNewScope early opens rfl (Nat.le_refl _) (fun _ => ⟨rfl, rfl⟩)
    fun _ _ early => early

/-- All code keeps the contract. -/
theorem nameContract_validOn (record : List Occasion) : nameContract.ValidOn record := by
  intro kind code machine _ _
  cases code with
  | stmt form => exact form.plan_addsWithin machine
  | stmts forms => exact Code.stmts_addsWithin forms machine
  | loop condition body => exact Code.loop_addsWithin condition body machine
  | activation called arguments => exact Code.activation_addsWithin called arguments machine
  | expr | exprs | call | instantiation =>
    exact addsWithin_of_neverAdds (Code.plan_neverAdds nofun rfl)
      (Code.plan_comes_unflowing nofun rfl)
      machine.addsOnly_refl

/-- However code ends, the scopes that were there bind no new names, but for the scope where the
code runs, which may bind names that the code adds. -/
theorem Code.leaves_addsOnly (bound : Nat) {kind : ResultKind} (code : Code kind)
    (machine : Machine) :
    (code.run bound machine).Leaves (machine.AddsOnly code.Adds) :=
  (nameContract_validOn (code.trace bound machine)).keeps (List.Subset.refl _) trivial

/-! ## What was read from a text -/

/-- A branch is a part. -/
theorem Stmt.mem_parts_of_mem_branches {form branch : Stmt} (member : branch ∈ form.branches) :
    branch ∈ form.parts := by
  cases form with
  | conditional | «while» => exact member
  | _ => exact absurd member List.not_mem_nil

/-- A tidy statement that declares nothing itself declares nothing in the scope where it runs. -/
theorem Stmt.Tidy.plain {form : Stmt} (tidy : form.Tidy) (bare : form.declared? = none) :
    form.Plain := by
  induction tidy with
  | @intro form branches _ _ ih =>
    exact .intro bare fun branch member =>
      ih branch (mem_parts_of_mem_branches member) (branches branch member)

/-- A plain statement adds nothing. -/
theorem Stmt.Plain.not_adds {form : Stmt} (plain : form.Plain) (name : String) :
    ¬ form.Adds name := by
  intro adds
  induction adds with
  | own declared => exact nomatch plain.declared?.symm.trans declared
  | branch member _ ih => exact ih (plain.branch member)

/-- A tidy statement adds the name that it declares and no other. -/
theorem Stmt.Tidy.declared?_of_adds {form : Stmt} (tidy : form.Tidy) {name : String}
    (adds : form.Adds name) : form.declared? = some name := by
  cases adds with
  | own declared => exact declared
  | branch member adds =>
    have bare := tidy.branch member
    have tidyBranch := tidy.part (mem_parts_of_mem_branches member)
    exact absurd adds ((tidyBranch.plain bare).not_adds name)

/-- All that stands in a program that was read from a text is tidy. -/
theorem Program.Encloses.tidy {source : String} {program : Program} {form : Stmt}
    (encloses : program.Encloses form) (found : Program.ofText source = .ok program) :
    form.Tidy := by
  induction encloses with
  | top member => exact Program.tidy_of_ofText found _ member
  | part _ member ih => exact ih.part member
  | body _ declared member ih => exact ih.body declared member

/-- The scopes that were there stay inside the same ones and bind the same names, but for `added`
ones, which the scope where the code runs may bind as well. -/
structure Machine.KeepsNames (added : String → Prop) (before after : Machine) : Prop where
  scope : after.scope = before.scope
  size : before.heap.scopes.size ≤ after.heap.scopes.size
  parent : ∀ scope < before.heap.scopes.size, after.heap.parent? scope = before.heap.parent? scope
  kept : ∀ scope name, before.heap.binds scope name = true → after.heap.binds scope name = true
  same : ∀ scope < before.heap.scopes.size, ∀ name, ¬ (scope = before.scope ∧ added name) →
    after.heap.binds scope name = before.heap.binds scope name

/-- Code that adds no other names keeps the names, as scopes keep what they bind. -/
theorem Machine.AddsOnly.keepsNames {added : String → Prop} {machine later : Machine}
    (adds : machine.AddsOnly added later) (grows : machine.heap.Grows later.heap) :
    machine.KeepsNames added later := by
  have stays : ∀ {scope : Nat} {content : Scope}, machine.heap.scopes.get? scope = some content →
      ∃ after, later.heap.scopes.get? scope = some after ∧ content.Keeps after :=
    fun stored => grows.scopes _ _ stored
  have kept : ∀ scope name, machine.heap.binds scope name = true →
      later.heap.binds scope name = true := by
    intro scope name bound
    unfold Heap.binds at bound ⊢
    cases stored : machine.heap.scopes.get? scope with
    | none =>
      rw [stored] at bound
      contradiction
    | some content =>
      rw [stored] at bound
      obtain ⟨after, storedLater, keeps⟩ := stays stored
      rw [storedLater]
      exact keeps.2 name bound
  refine ⟨adds.scope, adds.size, ?_, kept, ?_⟩
  · intro scope inside
    obtain ⟨after, storedLater, keeps⟩ := stays (Array.getElem?_eq_getElem inside)
    have stored : machine.heap.scopes.get? scope = some machine.heap.scopes.cells[scope] :=
      Array.getElem?_eq_getElem inside
    unfold Heap.parent?
    rw [storedLater, stored]
    exact keeps.1
  · intro scope inside name other
    apply Bool.eq_iff_iff.mpr
    refine ⟨?_, kept scope name⟩
    intro bound
    rcases adds.bound inside bound with early | new
    · exact early
    · exact absurd new other

/-- However code ends, scopes bind the names that they bound, and none but those that the code
adds. -/
theorem Code.leaves_keepsNames (bound : Nat) {kind : ResultKind} (code : Code kind)
    (machine : Machine)
    {added : String → Prop} (allowed : ∀ name, code.Adds name → added name) :
    (code.run bound machine).Leaves (machine.KeepsNames added) := by
  have adds := code.leaves_addsOnly bound machine
  have grows := code.grows bound machine
  cases ended : code.run bound machine with
  | exhausted => trivial
  | done result later | failed diagnostic later =>
    rw [ended] at adds grows
    exact (adds.mono allowed).keepsNames grows

/-- Names do not leak. However it ends and whatever it calls, an expression leaves all scopes with
the names that they bound, and so does a statement of a program that is no declaration. A
declaration may add a name to the scope where it is run, and only the name that it declares. -/
theorem Program.scopes_keep_names {source : String} {program : Program}
    (found : Program.ofText source = .ok program) (bound : Nat) (machine : Machine) :
    (∀ form : Expr, (evaluate bound form machine).Leaves (machine.KeepsNames fun _ => False)) ∧
    (∀ form : Stmt, program.Encloses form → form.declared? = none →
      (execute bound form machine).Leaves (machine.KeepsNames fun _ => False)) ∧
    ∀ (form : Stmt) (own : String), program.Encloses form → form.declared? = some own →
      (execute bound form machine).Leaves (machine.KeepsNames (· = own)) := by
  refine ⟨fun form => ?_, fun form encloses bare => ?_, fun form own encloses declared => ?_⟩
  · exact (Code.expr form).leaves_keepsNames bound machine fun _ => id
  · have plain := (encloses.tidy found).plain bare
    exact (Code.stmt form).leaves_keepsNames bound machine plain.not_adds
  · refine (Code.stmt form).leaves_keepsNames bound machine fun name adds => ?_
    have declares := (encloses.tidy found).declared?_of_adds adds
    exact Option.some.inj (declares.symm.trans declared)

/-- A function with a variable of its own is called in a branch. The call makes scopes for the block
and for the body, and the global scope binds the names that it bound. -/
theorem Program.scopes_keep_names_call :
    ∃ (program : Program) (form : Stmt) (machine later : Machine) (flow : Flow),
      Program.ofText "if (true) \x7bfun f() \x7blet a;\x7d f();\x7d" = .ok program ∧
      program.Encloses form ∧ form.declared? = none ∧ machine = .new {} (.captured "") {} {} ∧
      execute 12 form machine = .done flow later ∧ later.heap.scopes.size = 3 ∧
      machine.KeepsNames (fun _ => False) later := by
  let machine : Machine := .new {} (.captured "") {} {}
  let calls : Stmt → Bool := fun form => form.declared?.isNone &&
    (execute 12 form machine).done?.any fun given => given.2.heap.scopes.size == 3
  have runs : (Program.ofText "if (true) \x7bfun f() \x7blet a;\x7d f();\x7d").toOption.any
      (List.any · calls) = true := by decide +kernel
  cases found : Program.ofText "if (true) \x7bfun f() \x7blet a;\x7d f();\x7d" with
  | error diagnostic =>
    rw [found] at runs
    contradiction
  | ok program =>
    rw [found] at runs
    obtain ⟨form, member, runs⟩ := List.any_eq_true.mp runs
    obtain ⟨bare, ran⟩ := (Bool.and_eq_true _ _).mp runs
    obtain ⟨⟨flow, later⟩, given, three⟩ := (Option.any_eq_true _ _).mp ran
    have ended := Outcome.eq_of_done? given
    have encloses : program.Encloses form := .top member
    have bare := Option.isNone_iff_eq_none.mp bare
    have kept := (Program.scopes_keep_names found 12 machine).2.1 form encloses bare
    rw [ended] at kept
    exact ⟨program, form, machine, later, flow, rfl, encloses, bare, rfl, ended,
      beq_iff_eq.mp three, kept⟩

end EventScript
