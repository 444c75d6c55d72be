import EventScript.Proofs.Evaluation.Discipline

/-!
# Evaluation keeps disciplines

The plan of every kind of code meets the contract of every lawful discipline, one lemma for each
kind (`Discipline.Lawful.meets`).
-/

namespace EventScript.Discipline.Lawful

open Run Plan

variable {discipline : Discipline} {machine : Machine} {place : discipline.Place}

/-- An expression comes to expressions that stand in the same place. -/
theorem expr_meets (lawful : discipline.Lawful) {form : Expr} (good : discipline.Good machine)
    (hosts : discipline.Hosts machine place) (stands : discipline.expr place form) :
    discipline.Meets machine (Code.expr form).plan machine := by
  have plain := lawful.plain machine.heap
  have start := lawful.evolves_refl machine
  cases form with
  | literal span value =>
    exact lawful.meets_last start (literal_keeps plain value machine good)
  | «variable» span name =>
    exact lawful.meets_last start (readVariable_keeps span name machine good)
  | this span =>
    exact lawful.meets_last start (readVariable_keeps span "this" machine good)
  | super span name =>
    exact lawful.meets_last start (superMethod_keeps good span name fun identity =>
      lawful.super identity good hosts stands)
  | group span inner =>
    exact lawful.meets_become good start
      ⟨place, hosts, lawful.expr_part stands List.mem_cons_self⟩
  | assign span name value =>
    refine lawful.meets_visit good start
      ⟨place, hosts, lawful.expr_part stands List.mem_cons_self⟩ ?_
    intro value later laterGood evolves holds
    have allowed := lawful.expr_assigned stands rfl
    have leads : discipline.Leads (fun _ => True) later (assignVariable span name value later) := by
      unfold assignVariable
      cases later.heap.binder? later.scope name with
      | none => exact ⟨laterGood, lawful.evolves_refl later⟩
      | some binder => exact lawful.good_define laterGood allowed binder holds
    apply lawful.meets_perform evolves leads
    intro _ last _ lastGood onward _
    exact meets_give lastGood (lawful.evolves_trans evolves onward)
      (lawful.holds_grows holds onward.heap)
  | binary span op left right =>
    refine lawful.meets_visit good start
      ⟨place, hosts, lawful.expr_part stands List.mem_cons_self⟩ ?_
    intro left later laterGood evolves _
    have standsRight := lawful.expr_part stands (List.mem_cons_of_mem _ List.mem_cons_self)
    refine lawful.meets_visit laterGood evolves
      ⟨place, lawful.hosts_evolves hosts evolves, standsRight⟩ ?_
    intro right last lastGood onward _
    have keeps := (binary_keeps (lawful.plain last.heap) op left right).withSpan span
    exact lawful.meets_last (lawful.evolves_trans evolves onward) (keeps last lastGood)
  | logical span op left right =>
    refine lawful.meets_visit good start
      ⟨place, hosts, lawful.expr_part stands List.mem_cons_self⟩ ?_
    intro left later laterGood evolves holds
    have standsRight := lawful.expr_part stands (List.mem_cons_of_mem _ List.mem_cons_self)
    split
    · exact meets_give laterGood evolves holds
    · exact lawful.meets_become laterGood evolves
        ⟨place, lawful.hosts_evolves hosts evolves, standsRight⟩
  | unary span op operand =>
    refine lawful.meets_visit good start
      ⟨place, hosts, lawful.expr_part stands List.mem_cons_self⟩ ?_
    intro operand later laterGood evolves _
    exact lawful.meets_last evolves
      (unary_keeps (lawful.plain later.heap) span op operand later laterGood)
  | call span callee arguments =>
    refine lawful.meets_visit good start
      ⟨place, hosts, lawful.expr_part stands List.mem_cons_self⟩ ?_
    intro callee later laterGood evolves holdsCallee
    have hostsLater := lawful.hosts_evolves hosts evolves
    have standArguments : ∀ argument ∈ arguments, discipline.expr place argument :=
      fun argument member => lawful.expr_part stands (List.mem_cons_of_mem _ member)
    refine lawful.meets_visit laterGood evolves ⟨place, hostsLater, standArguments⟩ ?_
    intro arguments last lastGood onward holdArguments
    have both := lawful.evolves_trans evolves onward
    refine lawful.meets_visit lastGood both
      ⟨lawful.holds_grows holdsCallee onward.heap, holdArguments⟩ ?_
    intro result final finalGood further holds
    exact meets_give finalGood (lawful.evolves_trans both further) holds
  | get span object name =>
    refine lawful.meets_visit good start
      ⟨place, hosts, lawful.expr_part stands List.mem_cons_self⟩ ?_
    intro object later laterGood evolves holds
    have keeps := property_keeps laterGood object name
      (fun identity _ found => lawful.builtin identity holds found)
      fun same stored cls found => same ▸ lawful.method stored cls found
    exact lawful.meets_last evolves (keeps_mapFailure keeps _)
  | set span object name value =>
    refine lawful.meets_visit good start
      ⟨place, hosts, lawful.expr_part stands List.mem_cons_self⟩ ?_
    intro object later laterGood evolves _
    have standsValue := lawful.expr_part stands (List.mem_cons_of_mem _ List.mem_cons_self)
    cases object with
    | object ref =>
      refine lawful.meets_visit laterGood evolves
        ⟨place, lawful.hosts_evolves hosts evolves, standsValue⟩ ?_
      intro value last lastGood onward holds
      have both := lawful.evolves_trans evolves onward
      have leads := lawful.leads_of_keeps (setField_keeps ref name holds last lastGood)
      apply lawful.meets_perform both leads
      intro _ final _ finalGood further _
      exact meets_give finalGood (lawful.evolves_trans both further)
        (lawful.holds_grows holds further.heap)
    | _ => exact lawful.meets_last evolves (Keeps.faultAt _ _ later laterGood)

/-- Expressions in a row come to each of them in the same place. -/
theorem exprs_meets (lawful : discipline.Lawful) {forms : List Expr}
    (good : discipline.Good machine)
    (hosts : discipline.Hosts machine place) (stand : ∀ form ∈ forms, discipline.expr place form) :
    discipline.Meets machine (Code.exprs forms).plan machine := by
  have start := lawful.evolves_refl machine
  cases forms with
  | nil => exact meets_give good start nofun
  | cons first rest =>
    obtain ⟨standsFirst, standRest⟩ := List.forall_mem_cons.mp stand
    refine lawful.meets_visit good start ⟨place, hosts, standsFirst⟩ ?_
    intro value later laterGood evolves holds
    have hostsLater := lawful.hosts_evolves hosts evolves
    refine lawful.meets_visit laterGood evolves ⟨place, hostsLater, standRest⟩ ?_
    intro values last lastGood onward holdOthers
    apply meets_give lastGood (lawful.evolves_trans evolves onward)
    intro each member
    rcases List.mem_cons.mp member with rfl | inRest
    · exact lawful.holds_grows holds onward.heap
    · exact holdOthers each inRest

/-- Declaring a variable in the present scope is a step in order. -/
theorem declare_leads (lawful : discipline.Lawful) (good : discipline.Good machine) {form : Stmt}
    {name : String} (stands : discipline.stmt place form) (declared : form.declared? = some name)
    {value : Value} (holds : discipline.holds machine.heap value) :
    discipline.Leads (fun _ => True) machine (declare name value machine) :=
  lawful.good_define good (lawful.stmt_declared stands declared) machine.scope holds

/-- A plan may end with the declaration of a variable. -/
theorem meets_declare (lawful : discipline.Lawful) {start : Machine}
    (good : discipline.Good machine)
    (evolves : discipline.Evolves start machine) {form : Stmt} {name : String}
    (stands : discipline.stmt place form) (declared : form.declared? = some name)
    {value : Value} (holds : discipline.holds machine.heap value) :
    discipline.Meets start
      (perform (declare name value) fun _ => give .next : Plan (ResultKind.Result .flow))
        machine := by
  apply lawful.meets_perform evolves (lawful.declare_leads good stands declared holds)
  intro _ later _ laterGood onward _
  exact meets_give laterGood (lawful.evolves_trans evolves onward) nofun

/-- A statement comes to expressions and statements that stand in the same place, and makes
functions and classes in order. -/
theorem stmt_meets (lawful : discipline.Lawful) {form : Stmt} (good : discipline.Good machine)
    (hosts : discipline.Hosts machine place) (stands : discipline.stmt place form)
    (occurs : discipline.occurs ⟨.stmt form, machine⟩) :
    discipline.Meets machine (Code.stmt form).plan machine := by
  have plain := lawful.plain machine.heap
  have start := lawful.evolves_refl machine
  cases form with
  | letDecl span name initializer =>
    cases initializer with
    | none => exact lawful.meets_declare good start stands rfl (plain .nil rfl)
    | some value =>
      refine lawful.meets_visit good start
        ⟨place, hosts, lawful.stmt_expr stands List.mem_cons_self⟩ ?_
      intro value later laterGood evolves holds
      exact lawful.meets_declare laterGood evolves stands rfl holds
  | function span decl =>
    have keeps := close_keeps good fun identity => lawful.closure identity hosts stands
    apply lawful.meets_perform start (lawful.leads_of_keeps keeps)
    intro function later _ laterGood evolves holds
    exact lawful.meets_declare laterGood evolves stands rfl (lawful.holds_grows holds evolves.heap)
  | classDecl span name superclass methods =>
    have keeps := resolveSuperclass_keeps superclass machine good
    apply lawful.meets_perform start (lawful.leads_of_keeps keeps)
    intro parent later resolved laterGood evolves holds
    -- The class is made on the machine that its declaration was come to with.
    obtain ⟨rfl, -⟩ := resolveSuperclass_done resolved
    have make := makeClass_keeps good (lawful.made stands occurs resolved holds)
    apply lawful.meets_perform evolves (lawful.leads_of_keeps make)
    intro made last _ lastGood onward holdsClass
    have both := lawful.evolves_trans evolves onward
    have holdsLast := lawful.holds_grows holdsClass onward.heap
    exact lawful.meets_declare lastGood both stands rfl holdsLast
  | expression span value =>
    refine lawful.meets_visit good start
      ⟨place, hosts, lawful.stmt_expr stands List.mem_cons_self⟩ ?_
    intro _ later laterGood evolves _
    exact meets_give laterGood evolves nofun
  | print span value =>
    refine lawful.meets_visit good start
      ⟨place, hosts, lawful.stmt_expr stands List.mem_cons_self⟩ ?_
    intro value later laterGood evolves _
    have leads := lawful.leads_of_keeps (printValue_keeps value later laterGood)
    apply lawful.meets_perform evolves leads
    intro _ last _ lastGood onward _
    exact meets_give lastGood (lawful.evolves_trans evolves onward) nofun
  | block span body =>
    have grows := lawful.grows_newScope machine.heap (some machine.scope)
    have enters : discipline.Leads (fun _ => True) machine (blockScope machine) :=
      ⟨⟨good.heap.newScope _, good.events⟩, ⟨grows, rfl, rfl⟩, trivial⟩
    apply lawful.meets_perform start enters
    intro scope later entered laterGood evolves _
    obtain ⟨rfl, rfl⟩ := Outcome.done.inj entered
    have standBody : ∀ form ∈ body, discipline.stmt place form :=
      fun form member => lawful.stmt_part stands member
    refine lawful.meets_visit laterGood evolves ⟨place, lawful.block hosts, standBody⟩ ?_
    intro ending last lastGood onward holds
    exact meets_give lastGood (lawful.evolves_trans evolves onward) holds
  | conditional span condition thenBranch elseBranch =>
    refine lawful.meets_visit good start
      ⟨place, hosts, lawful.stmt_expr stands List.mem_cons_self⟩ ?_
    intro value later laterGood evolves _
    have hostsLater := lawful.hosts_evolves hosts evolves
    split
    · exact lawful.meets_become laterGood evolves
        ⟨place, hostsLater, lawful.stmt_part stands List.mem_cons_self⟩
    · cases elseBranch with
      | none => exact meets_give laterGood evolves nofun
      | some branch =>
        have standsBranch := lawful.stmt_part stands (List.mem_cons_of_mem _ List.mem_cons_self)
        exact lawful.meets_become laterGood evolves ⟨place, hostsLater, standsBranch⟩
  | «while» span condition body =>
    have standsCondition := lawful.stmt_expr stands List.mem_cons_self
    have standsBody := lawful.stmt_part stands List.mem_cons_self
    exact lawful.meets_become good start ⟨place, hosts, standsCondition, standsBody⟩
  | «return» span value =>
    cases value with
    | none =>
      apply meets_give good start
      intro given returned
      obtain rfl := Flow.returned.inj returned
      exact plain .nil rfl
    | some value =>
      refine lawful.meets_visit good start
        ⟨place, hosts, lawful.stmt_expr stands List.mem_cons_self⟩ ?_
      intro value later laterGood evolves holds
      apply meets_give laterGood evolves
      intro given returned
      obtain rfl := Flow.returned.inj returned
      exact holds
  | «break» span => exact meets_give good start nofun

/-- Statements in a row come to each of them in the same place. -/
theorem stmts_meets (lawful : discipline.Lawful) {forms : List Stmt}
    (good : discipline.Good machine)
    (hosts : discipline.Hosts machine place) (stand : ∀ form ∈ forms, discipline.stmt place form) :
    discipline.Meets machine (Code.stmts forms).plan machine := by
  have start := lawful.evolves_refl machine
  cases forms with
  | nil => exact meets_give good start nofun
  | cons first rest =>
    obtain ⟨standsFirst, standRest⟩ := List.forall_mem_cons.mp stand
    refine lawful.meets_visit good start ⟨place, hosts, standsFirst⟩ ?_
    intro ending later laterGood evolves holds
    cases ending with
    | next =>
      have hostsLater := lawful.hosts_evolves hosts evolves
      exact lawful.meets_become laterGood evolves ⟨place, hostsLater, standRest⟩
    | returned value => exact meets_give laterGood evolves holds
    | broke => exact meets_give laterGood evolves holds

/-- A loop comes to its condition and its body, and to itself, in the same place. -/
theorem loop_meets (lawful : discipline.Lawful) {condition : Expr} {body : Stmt}
    (good : discipline.Good machine) (hosts : discipline.Hosts machine place)
    (standsCondition : discipline.expr place condition) (standsBody : discipline.stmt place body) :
    discipline.Meets machine (Code.loop condition body).plan machine := by
  have start := lawful.evolves_refl machine
  refine lawful.meets_visit good start ⟨place, hosts, standsCondition⟩ ?_
  intro value later laterGood evolves _
  have hostsLater := lawful.hosts_evolves hosts evolves
  split
  · refine lawful.meets_visit laterGood evolves ⟨place, hostsLater, standsBody⟩ ?_
    intro ending last lastGood onward holds
    have both := lawful.evolves_trans evolves onward
    cases ending with
    | next =>
      exact lawful.meets_become lastGood both
        ⟨place, lawful.hosts_evolves hostsLater onward, standsCondition, standsBody⟩
    | broke => exact meets_give lastGood both nofun
    | returned value => exact meets_give lastGood both holds
  · exact meets_give laterGood evolves nofun

/-- A call gives the object or what the body returns. -/
theorem result_holds (lawful : discipline.Lawful) {heap : Heap} {called : Activation}
    (calls : discipline.calls heap called) {ending : Flow}
    (holds : ResultKind.All (discipline.holds heap) .flow ending) :
    discipline.holds heap (called.result ending) := by
  have plain := lawful.plain heap
  unfold Activation.result
  split
  · cases present : called.receiver with
    | none => exact plain .nil rfl
    | some receiver => exact lawful.receiver calls receiver present
  · cases ending with
    | returned value => exact holds value rfl
    | next => exact plain .nil rfl
    | broke => exact plain .nil rfl

/-- The bindings that a body starts with are the object and the arguments. -/
theorem bindings_hold (lawful : discipline.Lawful) {heap : Heap} {called : Activation}
    (calls : discipline.calls heap called) {arguments : List Value}
    (hold : ∀ argument ∈ arguments, discipline.holds heap argument) :
    ∀ binding ∈ called.bindings arguments, discipline.holds heap binding.2 := by
  intro binding member
  unfold Activation.bindings at member
  cases present : called.receiver with
  | none =>
    simp only [present] at member
    exact hold _ (List.of_mem_zip member).2
  | some receiver =>
    simp only [present] at member
    rcases List.mem_cons.mp member with rfl | parameter
    · exact lawful.receiver calls receiver present
    · exact hold _ (List.of_mem_zip parameter).2

/-- A call that is checked leaves the machine as it is. -/
theorem checkCall_done {decl : FunctionDecl} {count : Nat} {later : Machine}
    (checked : checkCall decl count machine = .done () later) : later = machine := by
  unfold checkCall at checked
  split at checked
  · contradiction
  · split at checked
    · contradiction
    · exact (Outcome.done.inj checked).2.symm

/-- An activation comes to the body of the function. -/
theorem activation_meets (lawful : discipline.Lawful) {called : Activation} {arguments : List Value}
    (good : discipline.Good machine) (calls : discipline.calls machine.heap called)
    (hold : ∀ argument ∈ arguments, discipline.holds machine.heap argument)
    (occurs : discipline.occurs ⟨.activation called arguments, machine⟩) :
    discipline.Meets machine (Code.activation called arguments).plan machine := by
  have start := lawful.evolves_refl machine
  have check := lawful.leads_of_keeps (checkCall_keeps called.decl arguments.length machine good)
  apply lawful.meets_perform start check
  intro _ later checked laterGood evolves _
  obtain rfl := checkCall_done checked
  obtain ⟨place, around, stand⟩ := lawful.body calls occurs checked
  have bindings := lawful.bindings_hold calls hold
  have heap := (laterGood.heap.newScope (some called.scope)).defineAll
    (later.heap.newScope (some called.scope)).1 bindings
  have grows := lawful.grows_start called arguments later.heap
  have enter : discipline.Leads (fun _ => True) later (bodyScope called arguments later) :=
    ⟨⟨heap, laterGood.events⟩, ⟨grows, rfl, rfl⟩, trivial⟩
  apply lawful.meets_perform evolves enter
  intro scope last entered lastGood onward _
  obtain ⟨rfl, rfl⟩ := Outcome.done.inj entered
  refine lawful.meets_visit lastGood (lawful.evolves_trans evolves onward) ⟨place, around, stand⟩ ?_
  intro ending final finalGood further holds
  have both := lawful.evolves_trans onward further
  have result := lawful.result_holds (lawful.calls_grows calls both.heap) holds
  exact meets_give finalGood (lawful.evolves_trans evolves both) result

/-- A call comes to the activation of a function, or to making an instance. -/
theorem call_meets (lawful : discipline.Lawful) {callee : Value} {arguments : List Value}
    (span : Span)
    (good : discipline.Good machine) (holds : discipline.holds machine.heap callee)
    (hold : ∀ argument ∈ arguments, discipline.holds machine.heap argument) :
    discipline.Meets machine (Code.call callee arguments span).plan machine := by
  have start := lawful.evolves_refl machine
  cases callee with
  | function identity closure =>
    exact lawful.meets_become good start ⟨lawful.calls_function holds, hold⟩
  | method identity receiver method =>
    exact lawful.meets_become good start ⟨lawful.calls_method holds, hold⟩
  | classObject cls => exact lawful.meets_become good start ⟨holds, hold⟩
  | builtin identity builtin receiver =>
    have keeps := builtin.call_keeps (lawful.plain machine.heap) receiver hold span machine good
    exact lawful.meets_last start keeps
  | _ => exact lawful.meets_last start (Keeps.fault _ machine good)

/-- Making an instance comes to its initializer. -/
theorem instantiation_meets (lawful : discipline.Lawful) {cls : Class} {arguments : List Value}
    (good : discipline.Good machine) (holds : discipline.holds machine.heap (.classObject cls))
    (hold : ∀ argument ∈ arguments, discipline.holds machine.heap argument) :
    discipline.Meets machine (Code.instantiation cls arguments).plan machine := by
  have plain := lawful.plain machine.heap
  have start := lawful.evolves_refl machine
  show @Discipline.Meets discipline machine .value (Class.plan cls arguments) machine
  unfold Class.plan
  split
  · exact lawful.meets_last start (Keeps.fault _ machine good)
  · have make := lawful.leads_of_keeps (newInstance_keeps plain holds machine good)
    apply lawful.meets_perform start make
    intro object later made laterGood evolves holdsObject
    have objectHolds := lawful.holds_grows holdsObject evolves.heap
    cases found : cls.findMethod? FunctionDecl.initializerName with
    | none => exact meets_give laterGood evolves objectHolds
    | some method =>
      obtain ⟨rfl, rfl⟩ := Outcome.done.inj made
      have calls := lawful.calls_initializer holds found
      refine lawful.meets_visit laterGood evolves ⟨calls, ?_⟩ ?_
      · intro argument member
        exact lawful.holds_grows (hold argument member) evolves.heap
      · intro _ last lastGood onward _
        exact meets_give lastGood (lawful.evolves_trans evolves onward)
          (lawful.holds_grows objectHolds onward.heap)

/-- Wherever the contract of a lawful discipline allows to run code that is run at all, the plan of
the code meets the contract. -/
theorem meets (lawful : discipline.Lawful) {kind : ResultKind} (code : Code kind)
    (machine : Machine)
    (occurs : discipline.occurs ⟨code, machine⟩)
    (before : discipline.contract.before code machine) :
    code.plan.Meets discipline.contract (discipline.contract.after code machine) machine := by
  obtain ⟨good, fits⟩ := before
  cases code with
  | expr form =>
    obtain ⟨place, hosts, stands⟩ := fits
    exact lawful.expr_meets good hosts stands
  | exprs forms =>
    obtain ⟨place, hosts, stand⟩ := fits
    exact lawful.exprs_meets good hosts stand
  | stmt form =>
    obtain ⟨place, hosts, stands⟩ := fits
    exact lawful.stmt_meets good hosts stands occurs
  | stmts forms =>
    obtain ⟨place, hosts, stand⟩ := fits
    exact lawful.stmts_meets good hosts stand
  | loop condition body =>
    obtain ⟨place, hosts, standsCondition, standsBody⟩ := fits
    exact lawful.loop_meets good hosts standsCondition standsBody
  | call callee arguments span => exact lawful.call_meets span good fits.1 fits.2
  | instantiation cls arguments => exact lawful.instantiation_meets good fits.1 fits.2
  | activation called arguments => exact lawful.activation_meets good fits.1 fits.2 occurs

end EventScript.Discipline.Lawful
