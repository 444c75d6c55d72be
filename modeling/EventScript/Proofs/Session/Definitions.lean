import EventScript.Proofs.Resolution.LocalScopes
import EventScript.Proofs.Session.Disciplined

/-!
# Local declarations replace nothing

A definition binds a name in a scope: a variable, a function or a class that is declared, a
parameter, or the object of a method. `Code.Defines` lists the definitions that code makes, each
with the heap on which it is made. Every one in a scope other than the global one is for a name that
the scope does not bind yet, in whatever order the source texts and the tasks of a session run
(`Session.definitions_are_new`).
-/

namespace EventScript

open Run

/-- A name that is bound in a scope, with its value and the heap before. -/
structure Definition where
  scope : Nat
  name : String
  value : Value
  heap : Heap

/-- The heap after the definition. -/
def Definition.made (definition : Definition) : Heap :=
  definition.heap.define definition.scope definition.name definition.value

/-- The definitions that the code itself makes on the machine, where the expression of a variable is
evaluated within the bound. -/
inductive Code.Defines (bound : Nat) :
    {kind : ResultKind} → Code kind → Machine → Definition → Prop where
  | value {span : Span} {name : String} {initializer : Expr} {machine later : Machine}
      {value : Value}
      (evaluated : evaluate bound initializer machine = .done value later) :
      Defines bound (.stmt (.letDecl span name (some initializer))) machine
        ⟨later.scope, name, value, later.heap⟩
  | nothing {span : Span} {name : String} {machine : Machine} :
      Defines bound (.stmt (.letDecl span name none)) machine ⟨machine.scope, name, .nil,
        machine.heap⟩
  | function {span : Span} {decl : FunctionDecl} {machine later : Machine} {function : Value}
      (closed : close decl machine = .done function later) :
      Defines bound (.stmt (.function span decl)) machine
        ⟨later.scope, decl.name, function, later.heap⟩
  | cls {span : Span} {name : String} {superclass : Option SuperclassName}
      {methods : List FunctionDecl}
      {machine middle later : Machine} {parent : Option Class} {cls : Value}
      (resolved : resolveSuperclass superclass machine = .done parent middle)
      (made : makeClass name parent methods middle = .done cls later) :
      Defines bound (.stmt (.classDecl span name superclass methods)) machine
        ⟨later.scope, name, cls, later.heap⟩
  /-- The object of a method or an argument, after those before it. -/
  | binding {called : Activation} {arguments : List Value} {machine : Machine}
      {before after : List (String × Value)} {name : String} {value : Value}
      (checked : checkCall called.decl arguments.length machine = .done () machine)
      (bindings : called.bindings arguments = before ++ (name, value) :: after) :
      Defines bound (.activation called arguments) machine
        ⟨(machine.heap.newScope (some called.scope)).1, name, value,
          (machine.heap.newScope (some called.scope)).2.defineAll
            (machine.heap.newScope (some called.scope)).1 before⟩

variable {bound : Nat} {globals : Nat} {machine later : Machine}

/-! ## New names -/

/-- What a statement that breaks no rule declares, the scope does not have. -/
theorem Stmt.not_mem_of_check {form : Stmt} {context : CodeContext} {names : List String}
    {name : String}
    (declared : form.declared? = some name) (clear : (form.check context (some names)).2 = []) :
    name ∉ names := by
  cases form with
  | letDecl span other initializer =>
    obtain rfl := Option.some.inj declared
    cases initializer with
    | none => exact LocalScope.not_mem_of_declare clear
    | some value => exact LocalScope.not_mem_of_declare (List.append_eq_nil_iff.mp clear).1
  | function span decl =>
    obtain rfl := Option.some.inj declared
    exact LocalScope.not_mem_of_declare (List.append_eq_nil_iff.mp clear).1
  | classDecl span other superclass methods =>
    obtain rfl := Option.some.inj declared
    have itself := (List.append_eq_nil_iff.mp (List.append_eq_nil_iff.mp clear).1).1
    exact LocalScope.not_mem_of_declare itself
  | _ => contradiction

/-- A local scope does not bind what a statement that runs in it declares. -/
theorem Code.Placed.not_binds {form : Stmt} {name : String}
    (placed : (Code.stmt form).Placed globals machine) (declared : form.declared? = some name)
    (adds : machine.AddsNothing later) (inner : later.scope ≠ globals) :
    later.heap.binds later.scope name = false := by
  obtain ⟨neat, context, scope, clear, same⟩ := placed
  refine Bool.eq_false_iff.mpr fun has => ?_
  rcases same.stays adds with outermost | ⟨names, isLocal, -, bound⟩
  · exact inner outermost
  · obtain rfl := isLocal
    rcases bound name has with early | rfl
    · exact Stmt.not_mem_of_check declared clear early
    · exact neat.spares.declared declared

/-- A call that is allowed has an argument for each parameter. -/
theorem length_of_checkCall {decl : FunctionDecl} {count : Nat}
    (checked : checkCall decl count machine = .done () later) : count = decl.parameters.length := by
  unfold checkCall at checked
  split at checked
  · contradiction
  · rename_i same
    exact not_ne_iff.mp same

/-- The bindings that a body starts with have different names. -/
theorem Activation.nodup_bindings {called : Activation} {arguments : List Value}
    (neat : called.decl.Neat) (count : arguments.length = called.decl.parameters.length) :
    ((called.bindings arguments).map Prod.fst).Nodup := by
  obtain ⟨⟨context, clear⟩, others, -⟩ := neat
  obtain ⟨nodup, -⟩ := nodup_of_declareParameters (FunctionDecl.clear_iff.mp clear).1
  have parameters :
    (((called.decl.parameters.map Parameter.name).zip arguments).map Prod.fst).Nodup := by
    rw [List.map_fst_zip (Nat.le_of_eq ((List.length_map _).trans count.symm))]
    exact nodup
  unfold bindings
  cases called.receiver with
  | none => exact parameters
  | some receiver =>
    refine List.nodup_cons.mpr ⟨fun member => ?_, parameters⟩
    obtain ⟨binding, inZip, same⟩ := List.mem_map.mp member
    obtain ⟨parameter, declared, named⟩ := List.mem_map.mp (List.of_mem_zip inZip).1
    exact others parameter declared (named.trans same)

/-- No binding of a body is for a name bound before it. -/
theorem Activation.not_binds {called : Activation} {arguments : List Value}
    (neat : called.decl.Neat)
    (count : arguments.length = called.decl.parameters.length)
    {before after : List (String × Value)} {name : String} {value : Value}
    (bindings : called.bindings arguments = before ++ (name, value) :: after) (heap : Heap) :
    ((heap.newScope (some called.scope)).2.defineAll (heap.newScope (some called.scope)).1
      before).binds (heap.newScope (some called.scope)).1 name = false := by
  have nodup := nodup_bindings neat count
  rw [bindings, List.map_append, List.map_cons] at nodup
  refine Bool.eq_false_iff.mpr fun has => ?_
  rcases Heap.binds_of_defineAll has with early | ⟨-, binding, member, same⟩
  · exact (Heap.binds_of_newScope early).2 rfl
  · have twice :=
      (List.nodup_append.mp nodup).2.2 _ (List.mem_map_of_mem member) _ List.mem_cons_self
    exact twice same

/-- The first entry for a key goes to the end of a map. -/
theorem OrderedMap.entries_insert {κ α : Type} [DecidableEq κ] {map : OrderedMap κ α} {key : κ}
    (absent : map.contains key = false) (value : α) :
    (map.insert key value).entries = map.entries ++ [(key, value)] := by
  have put : ∀ entries : List (κ × α), (findIn key entries).isSome = false →
      insertIn key value entries = entries ++ [(key, value)] := by
    intro entries
    induction entries with
    | nil => exact fun _ => rfl
    | cons first rest ih =>
      intro absent
      unfold findIn at absent
      unfold insertIn
      split at absent
      · contradiction
      · rename_i different
        rw [if_neg different, ih absent]
        rfl
  exact put map.entries absent

/-! ## Sessions -/

/-- Accepted programs may stand at top level. -/
theorem stemDiscipline_admits : (stemDiscipline Program.IsAccepted).Admits := by
  intro source program accepted
  have stem : ∀ form ∈ program, form.Stems Program.IsAccepted := fun _ member =>
    ⟨program, ⟨source, accepted⟩, .top member⟩
  exact ⟨(), fun _ _ => nofun, stem⟩

namespace Session

variable {session : Session}

/-- All functions of a session stem from accepted programs. -/
theorem Reachable.stems (reached : session.Reachable) :
    session.machine.Stems Program.IsAccepted := by
  obtain ⟨past, recorded⟩ := reached.recorded
  exact recorded.good (stemDiscipline_lawful _) stemDiscipline_admits fun _ _ => trivial

/-- All code that a session runs is code of accepted programs, in a scope that matches the one of
the check. -/
theorem Runs.placed {kind : ResultKind} {code : Code kind} (reached : session.Reachable)
    (runs : session.Runs code machine) :
    ((stemDiscipline Program.IsAccepted).contract.and
      (scopeContract session.machine.globals)).before code machine := by
  have valid := scopeContract_validOn session.machine.globals
  cases runs with
  | @body source program _ _ _ _ accepted visits =>
    have neat : (Code.stmts program).Neat := fun form member =>
      Stmt.Stems.neat ⟨program, ⟨source, accepted⟩, .top member⟩
    obtain ⟨-, clear⟩ := Program.accept_iff.mp accepted
    have placed : (Code.stmts program).Placed session.machine.globals session.machine.toTopLevel :=
      ⟨neat, {}, none, clear, .inl rfl⟩
    have stems := stemDiscipline_admits.body reached.stems accepted
    exact (valid _).visited (List.Subset.refl _) ⟨stems, placed⟩ visits
  | task read polled calls visits =>
    have before := (stemDiscipline_lawful _).turn_before reached.stems (.intro read polled calls)
    exact (valid _).visited (List.Subset.refl _) ⟨before, trivial⟩ visits

/-- Every definition that a session makes in a scope other than the global one is for a name that
the scope does not bind yet. The binding goes behind those that the scope has, which stay as they
are. -/
theorem definitions_are_new (session : Session) (reached : session.Reachable) {kind : ResultKind}
    (code : Code kind) (machine : Machine) (runs : session.Runs code machine) (bound : Nat)
    (definition : Definition) (defines : code.Defines bound machine definition)
    (inner : definition.scope ≠ session.machine.globals) :
    definition.heap.binds definition.scope definition.name = false ∧
      ∀ content, definition.heap.scopes.get? definition.scope = some content →
        (content.bindings.insert definition.name definition.value).entries =
          content.bindings.entries ++ [(definition.name, definition.value)] := by
  obtain ⟨stems, placed⟩ := runs.placed reached
  have absent : definition.heap.binds definition.scope definition.name = false := by
    cases defines with
    | @value span name initializer _ later value evaluated =>
      obtain ⟨good, place, hosts, -⟩ := stems
      have before : ((stemDiscipline Program.IsAccepted).contract.and
          (scopeContract session.machine.globals)).before (.expr initializer) machine :=
        ⟨⟨good, place, hosts, trivial⟩, trivial⟩
      have kept := (scopeContract_validOn _ ((Code.expr initializer).trace bound machine)).keeps
        (List.Subset.refl _) before
      have adds : (EventScript.evaluate bound initializer machine).AddsOnly (fun _ => False)
        machine := kept.2
      rw [evaluated] at adds
      exact placed.not_binds rfl adds inner
    | nothing => exact placed.not_binds rfl machine.addsOnly_refl inner
    | function closed =>
      have adds := (close_neverAdds _).quiet closed
      exact placed.not_binds rfl adds inner
    | cls resolved made =>
      have before := (resolveSuperclass_keeps _).quiet resolved
      have adds := (makeClass_neverAdds _ _ _).quiet made
      exact placed.not_binds rfl (before.trans adds) inner
    | binding checked bindings =>
      exact Activation.not_binds stems.2.1.neat (length_of_checkCall checked) bindings machine.heap
  refine ⟨absent, fun content present => OrderedMap.entries_insert ?_ _⟩
  unfold Heap.binds at absent
  rwa [present] at absent

/-- A variable in a block is a new name in the scope of the block, also where an earlier source text
has declared one of that name. -/
theorem definitions_are_new_block :
    ∃ (session : Session) (code : Code .flow) (machine : Machine) (definition : Definition),
      session.Reachable ∧ session.Runs code machine ∧ code.Defines 0 machine definition ∧
      definition.scope ≠ session.machine.globals ∧
      definition.heap.binds definition.scope definition.name = false := by
  let fresh : Session := .new {} (.captured "") {} {} {}
  have ended : (fresh.evaluate 8 "let a;").any (fun ended =>
      (ended.2.trace 8 "\x7blet a;\x7d").any fun occasion =>
        occasion.stmt?.any (· matches .letDecl _ _ none) &&
          occasion.machine.scope != ended.2.machine.globals) = true := by decide +kernel
  obtain ⟨⟨result, session⟩, evaluated, listed⟩ := (Option.any_eq_true _ _).mp ended
  have reached : session.Reachable := evaluate_reachable (.new ..) evaluated
  clear ended evaluated
  obtain ⟨occasion, member, isLocal⟩ := List.any_eq_true.mp listed
  have runs : session.Runs occasion.code occasion.machine := .of_mem_trace member
  clear member listed
  obtain ⟨declares, inner⟩ := Bool.and_eq_true_iff.mp isLocal
  obtain ⟨form, found, isForm⟩ := (Option.any_eq_true _ _).mp declares
  rw [Occasion.eq_of_stmt? found] at runs
  split at isForm
  · have inner := bne_iff_ne.mp inner
    obtain ⟨absent, -⟩ := definitions_are_new session reached _ _ runs 0 _ .nothing inner
    exact ⟨session, _, _, _, reached, runs, .nothing, inner, absent⟩
  · contradiction

end Session

end EventScript
