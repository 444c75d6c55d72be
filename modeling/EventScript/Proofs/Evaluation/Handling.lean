import EventScript.Proofs.Evaluation.Contract
import EventScript.Proofs.Evaluation.Ledger

/-!
# What code handles

Code handles only values that it was given, that its steps got from the heap or made, and that other
code gave it. `Plan.Handles` says so of a plan, and `Run.Handles` of one of its steps: with values
that a ledger vouches for it goes on as `Ledger.Follows` says. The plans of all code but the calls
of built-in functions are of this kind (`Code.plan_handles`).
-/

namespace EventScript

open Run Plan

/-- The values in a result. -/
def ResultKind.hand : (kind : ResultKind) → kind.Result → List Value
  | .value, given => [given]
  | .values, given => given
  | .flow, .returned given => [given]
  | .flow, .next | .flow, .broke => []

/-- The values that code is run with. -/
def Code.hand {kind : ResultKind} : Code kind → List Value
  | .call callee arguments _ => callee :: arguments
  | .instantiation cls arguments => .classObject cls :: arguments
  | .activation called arguments => called.receiver.toList ++ arguments
  | .expr _ | .exprs _ | .stmt _ | .stmts _ | .loop _ _ => []

/-- With values in hand that a ledger vouches for, the computation leaves all maps as they are and
gives values that a later ledger vouches for. -/
def Run.Handles {α : Type} (run : Run α) (hand : List Value) (values : α → List Value) : Prop :=
  ∀ (ledger : Ledger) (machine : Machine), ledger.Balances machine →
    (∀ value ∈ hand, ledger.Vouches value) → ledger.Follows machine values (run machine)

/-- With values in hand, the plan takes its steps, runs code and ends only with these and with
values that steps and code have given it. -/
def Plan.Handles {α : Type} (values : α → List Value) : Plan α → List Value → Prop
  | give result, hand => values result ⊆ hand
  | perform run next, hand =>
    ∃ given results, run.Handles given results ∧ given ⊆ hand ∧
      ∀ result, (next result).Handles values (results result ++ hand)
  | @visit _ kind _ code next, hand =>
    code.hand ⊆ hand ∧ ∀ result, (next result).Handles values (kind.hand result ++ hand)

namespace Run

variable {α β : Type} {hand : List Value} {values : α → List Value}

/-- However the computation ends, the machine is as it was. -/
def Reads (run : Run α) : Prop := ∀ machine, (run machine).Leaves (· = machine)

section Reads

/-- Giving a value only reads. -/
theorem Reads.pure (result : α) : (Pure.pure result : Run α).Reads := fun _ => rfl

/-- Failing with a fault only reads. -/
theorem Reads.fault (fault : Fault) : (Run.fault fault : Run α).Reads := fun _ => rfl

/-- Failing with a fault at a span only reads. -/
theorem Reads.faultAt (fault : Fault) (span : Span) : (Run.faultAt fault span : Run α).Reads :=
  fun _ => rfl

/-- Looking at the heap only reads. -/
theorem Reads.heap : heap.Reads := fun _ => rfl

/-- Looking at the machine only reads. -/
theorem Reads.machine : Run.machine.Reads := fun _ => rfl

variable {first : Run α} {rest : α → Run β} {ledger : Ledger} {machine : Machine}

/-- One reading computation after another only reads. -/
theorem Reads.bind (reads : first.Reads) (onward : ∀ result, (rest result).Reads) :
    (first >>= rest).Reads := by
  intro machine
  have same := reads machine
  cases done : first machine with
  | exhausted =>
    rw [bind_exhausted done]
    trivial
  | failed diagnostic later =>
    rw [done] at same
    rw [bind_failed done]
    exact same
  | done result later =>
    rw [done] at same
    obtain rfl : later = machine := same
    rw [bind_done done]
    exact onward result later

/-- What was read is vouched for if each value that there may be is. -/
theorem Reads.follows (reads : first.Reads) (balances : ledger.Balances machine)
    (vouches : ∀ result, first machine = .done result machine →
      ∀ value ∈ values result, ledger.Vouches value) :
    ledger.Follows machine values (first machine) := by
  have same := reads machine
  cases done : first machine with
  | exhausted => trivial
  | failed diagnostic later =>
    rw [done] at same
    obtain rfl : later = machine := same
    exact Ledger.follows_raise balances diagnostic
  | done result later =>
    rw [done] at same
    obtain rfl : later = machine := same
    exact Ledger.follows_done balances (vouches result done)

/-- What comes after reading starts where reading did. -/
theorem Reads.follows_bind (reads : first.Reads) (balances : ledger.Balances machine)
    {results : β → List Value}
    (onward : ∀ result, first machine = .done result machine →
      ledger.Follows machine results (rest result machine)) :
    ledger.Follows machine results ((first >>= rest) machine) := by
  have same := reads machine
  cases done : first machine with
  | exhausted =>
    rw [bind_exhausted done]
    trivial
  | failed diagnostic later =>
    rw [done] at same
    obtain rfl : later = machine := same
    rw [bind_failed done]
    exact Ledger.follows_raise balances diagnostic
  | done result later =>
    rw [done] at same
    obtain rfl : later = machine := same
    rw [bind_done done]
    exact onward result done

/-- What comes after reading handles the values in hand. -/
theorem Reads.handles_bind (reads : first.Reads) {results : β → List Value}
    (onward : ∀ result, (rest result).Handles hand results) :
    (first >>= rest).Handles hand results :=
  fun ledger machine balances vouches => reads.follows_bind balances fun result _ =>
    onward result ledger machine balances vouches

/-- Reading gives no new values where none are asked for. -/
theorem Reads.handles (reads : first.Reads) : first.Handles hand fun _ => [] :=
  fun _ _ balances _ => reads.follows balances fun _ _ => List.forall_mem_nil _

end Reads

/-- A computation that gives a plain value. -/
theorem handles_pure {result : α} (vouches : ∀ ledger : Ledger, ∀ value ∈ values result,
    ledger.Vouches value) : (pure result : Run α).Handles hand values :=
  fun ledger _ balances _ => Ledger.follows_done balances (vouches ledger)

/-- A fault deals with no values. -/
theorem handles_fault (fault : Fault) : (Run.fault fault : Run α).Handles hand values :=
  fun _ _ balances _ => Ledger.follows_raise balances _

/-- A fault at a span deals with no values. -/
theorem handles_faultAt (fault : Fault) (span : Span) :
    (Run.faultAt fault span : Run α).Handles hand values :=
  fun _ _ balances _ => Ledger.follows_raise balances _

/-- More values in hand do no harm. -/
theorem Handles.mono {run : Run α} {more : List Value} (handles : run.Handles hand values)
    (inHand : hand ⊆ more) : run.Handles more values := fun ledger machine balances vouches =>
  handles ledger machine balances fun value member => vouches value (inHand member)

/-- One computation after another. -/
theorem Handles.bind {first : Run α} {rest : α → Run β} {results : β → List Value}
    (handles : first.Handles hand values)
    (onward : ∀ result, (rest result).Handles (values result ++ hand) results) :
    (first >>= rest).Handles hand results := by
  intro ledger machine balances vouches
  apply (handles ledger machine balances vouches).bind
  intro result after later _ goesOn balances' given
  apply onward result later after balances'
  intro value member
  rcases List.mem_append.mp member with new | old
  · exact given value new
  · exact (vouches value old).extend goesOn

/-- A change that the heap does not notice and that puts only values in hand into the event loop. -/
theorem handles_modify {change : Machine → Machine}
    (heap : ∀ machine, (change machine).heap = machine.heap)
    (events : ∀ (ledger : Ledger) (machine : Machine), machine.events.All ledger.Vouches →
      (∀ value ∈ hand, ledger.Vouches value) → (change machine).events.All ledger.Vouches) :
    (modify change).Handles hand fun _ => [] := by
  intro ledger machine balances vouches
  have describes : ledger.Describes (change machine).heap := by
    rw [heap machine]
    exact balances.heap
  have events := events ledger machine balances.events vouches
  have maps := Heap.keepsMaps_of_same (congrArg Heap.maps (heap machine))
  exact ⟨ledger, ledger.extends_refl, ⟨describes, events⟩, maps, nofun⟩

/-- Pointing failures at a span deals with no further values. -/
theorem Handles.withSpan {run : Run α} (handles : run.Handles hand values) (span : Span) :
    (run.withSpan span).Handles hand values :=
  fun ledger machine balances vouches => (handles ledger machine balances vouches).mapFailure _

/-! ## Steps of expressions -/

/-- Making a string deals only with values that it has in hand. -/
theorem newString_handles (content : Heap → String) :
    (create fun heap => heap.newString (content heap)).Handles hand fun value => [value] :=
  fun _ _ balances _ => Ledger.follows_newString balances content fun _ => rfl

/-- Evaluating a literal deals only with values that it has in hand. -/
theorem literal_handles (value : Literal) : (literal value).Handles hand fun value => [value] := by
  cases value with
  | text content => exact newString_handles fun _ => content
  | number | bool | nil => exact handles_pure (by simp)

/-- Reading a variable only reads. -/
theorem readVariable_reads (span : Span) (name : String) : (readVariable span name).Reads := by
  intro machine
  unfold readVariable
  split <;> rfl

/-- What a variable holds is vouched for. -/
theorem readVariable_vouches {ledger : Ledger} {machine later : Machine} {span : Span}
    {name : String}
    {value : Value} (balances : ledger.Balances machine)
    (read : readVariable span name machine = .done value later) : ledger.Vouches value := by
  unfold readVariable at read
  split at read
  · rename_i found
    obtain ⟨rfl, -⟩ := Outcome.done.inj read
    exact balances.heap.lookup? found
  · contradiction

/-- Reading a variable deals only with values that it has in hand. -/
theorem readVariable_handles (span : Span) (name : String) :
    (readVariable span name).Handles hand fun value => [value] := by
  intro ledger machine balances _
  refine (readVariable_reads span name).follows balances fun value read => ?_
  simpa using readVariable_vouches balances read

/-- A bound method is vouched for if the object is that it is bound to. -/
theorem newMethod_follows {ledger : Ledger} {machine : Machine} (balances : ledger.Balances machine)
    {receiver : Value} (vouches : ledger.Vouches receiver) (method : Method) :
    ledger.Follows machine (fun value => [value])
      (create (fun heap => heap.newMethod receiver method) machine) := by
  refine Ledger.follows_newIdentity balances (fun number => .method number receiver method)
    (fun _ => rfl) ?_ fun _ => rfl
  rintro _ _ ⟨⟩
  exact vouches

/-- Asking for the class of the running method only reads. -/
theorem home_reads : home.Reads := fun _ => rfl

/-- Getting a method of the superclass deals only with values that it has in hand. -/
theorem superMethod_handles (span : Span) (name : String) :
    (superMethod span name).Handles hand fun value => [value] := by
  intro ledger machine balances _
  refine home_reads.follows_bind balances fun home _ => ?_
  cases home.bind Class.superclass? with
  | none => exact Ledger.follows_raise balances _
  | some superclass =>
    refine (readVariable_reads span "this").follows_bind balances fun receiver read => ?_
    cases superclass.findMethod? name with
    | none => exact Ledger.follows_raise balances _
    | some method => exact newMethod_follows balances (readVariable_vouches balances read) method

/-- Assigning to a variable deals only with values that it has in hand. -/
theorem assignVariable_handles (span : Span) (name : String) (value : Value) :
    (assignVariable span name value).Handles [value] fun _ => [] := by
  intro ledger machine balances vouches
  unfold assignVariable
  cases machine.heap.binder? machine.scope name with
  | none => exact Ledger.follows_raise balances _
  | some binder =>
    have describes := balances.heap.define binder name (vouches value List.mem_cons_self)
    exact Ledger.follows_heap balances describes rfl nofun

/-- A numeric operator deals only with values that it has in hand. -/
theorem numeric_handles (op : BinaryOp) (left right : Value) :
    (numeric op left right).Handles hand fun value => [value] := by
  unfold numeric
  split
  · refine handles_pure fun ledger => ?_
    cases op <;> simp [arithmetic]
  · split <;> exact handles_fault _

/-- A binary operator deals only with values that it has in hand. -/
theorem binary_handles (op : BinaryOp) (left right : Value) :
    (binary op left right).Handles hand fun value => [value] := by
  unfold binary
  split
  · exact Reads.heap.handles_bind fun _ => handles_pure (by simp)
  · exact Reads.heap.handles_bind fun _ => handles_pure (by simp)
  · exact newString_handles _
  · exact numeric_handles op left right

/-- A unary operator deals only with values that it has in hand. -/
theorem unary_handles (span : Span) (op : UnaryOp) (operand : Value) :
    (unary span op operand).Handles hand fun value => [value] := by
  unfold unary
  split
  · exact handles_pure (by simp)
  · split
    · exact handles_pure (by simp)
    · exact handles_faultAt _ _

/-- A field of an object is vouched for, and a method is a new value. -/
theorem property_handles (value : Value) (name : String) :
    (property value name).Handles [value] fun found => [found] := by
  intro ledger machine balances vouches
  have vouches := vouches value List.mem_cons_self
  have built : ∀ builtin, ledger.Follows machine (fun found => [found])
      (create (fun heap => heap.newBuiltin builtin (some value)) machine) := fun builtin =>
    Ledger.follows_newIdentity balances (fun number => .builtin number builtin (some value))
      (fun _ => rfl) (fun _ inner member => Option.some.inj member ▸ vouches) fun _ => rfl
  cases value with
  | object ref =>
    refine Reads.heap.follows_bind balances fun _ read => ?_
    obtain ⟨rfl, -⟩ := Outcome.done.inj read
    unfold Heap.object
    cases present : machine.heap.instances.get? ref with
    | none => exact Ledger.follows_raise balances _
    | some object =>
      obtain ⟨-, fields⟩ := balances.heap.others.instances ref object present
      simp only [Option.getD_some]
      cases stored : object.fields.find? name with
      | some field => exact Ledger.follows_done balances (by simpa using fields.find? stored)
      | none =>
        cases object.cls.findMethod? name with
        | none => exact Ledger.follows_raise balances _
        | some method => exact newMethod_follows balances vouches method
  | string ref | list ref | map ref =>
    simp only [property]
    cases Value.builtinMethod? _ name with
    | some method => exact built method
    | none => exact Ledger.follows_raise balances _
  | _ => exact Ledger.follows_raise balances _

/-- Setting a field deals only with values that it has in hand. -/
theorem setField_handles (ref : Nat) (name : String) (value : Value) :
    (modifyHeap fun heap => heap.setField ref name value).Handles [value] fun _ => [] := by
  intro ledger machine balances vouches
  have describes := balances.heap.setField ref name (vouches value List.mem_cons_self)
  exact Ledger.follows_heap balances describes rfl nofun

/-! ## Steps of statements -/

/-- Binding a name deals only with values that it has in hand. -/
theorem declare_handles (name : String) (value : Value) :
    (declare name value).Handles [value] fun _ => [] := by
  intro ledger machine balances vouches
  have describes := balances.heap.define machine.scope name (vouches value List.mem_cons_self)
  exact Ledger.follows_heap balances describes rfl nofun

/-- A function is a new value. -/
theorem close_handles (decl : FunctionDecl) : (close decl).Handles hand fun value => [value] := by
  intro ledger machine balances _
  exact Ledger.follows_newIdentity balances
    (fun number => .function number { decl, scope := machine.scope, home := machine.home })
    (fun _ => rfl) (fun _ _ => nofun) fun _ => rfl

/-- Finding the class that a declaration inherits from only reads. -/
theorem resolveSuperclass_reads (superclass : Option SuperclassName) :
    (resolveSuperclass superclass).Reads := by
  unfold resolveSuperclass
  split
  · exact .pure _
  · refine (readVariable_reads _ _).bind fun value => ?_
    split
    · exact .pure _
    · exact .faultAt _ _

/-- A class is a new value. -/
theorem makeClass_handles (name : String) (superclass : Option Class)
    (methods : List FunctionDecl) :
    (makeClass name superclass methods).Handles hand fun value => [value] := by
  intro ledger machine balances _
  exact Ledger.follows_newIdentity balances
    (fun identity => .classObject
      { identity
        name
        methods := OrderedMap.ofList (methods.map fun decl => (decl.name, decl))
        scope := machine.scope
        ancestors := superclass.elim [] Class.lineage })
    (fun _ => rfl) (fun _ _ => nofun) fun _ => rfl

/-- Printing a value deals only with values that it has in hand. -/
theorem printValue_handles (value : Value) : (printValue value).Handles hand fun _ => [] := by
  intro ledger machine balances _
  have same : (machine.print (value.display machine.heap)).heap = machine.heap ∧
      (machine.print (value.display machine.heap)).events = machine.events := by
    unfold Machine.print
    split <;> exact ⟨rfl, rfl⟩
  obtain ⟨heap, events⟩ := same
  have maps := Heap.keepsMaps_of_same (congrArg Heap.maps heap)
  exact ⟨ledger, ledger.extends_refl, balances.of_same heap events, maps, nofun⟩

/-- Opening the scope of a block deals only with values that it has in hand. -/
theorem blockScope_handles : blockScope.Handles hand fun _ => [] := by
  intro ledger machine balances _
  exact Ledger.follows_heap balances (balances.heap.newScope _) rfl nofun

/-! ## Steps of calls -/

/-- Checking a call only reads. -/
theorem checkCall_reads (decl : FunctionDecl) (count : Nat) : (checkCall decl count).Reads := by
  intro machine
  unfold checkCall
  split
  · rfl
  · split <;> rfl

/-- Making an instance deals only with values that it has in hand. -/
theorem newInstance_handles (cls : Class) :
    (create fun heap => heap.newInstance cls).Handles [.classObject cls] fun value => [value] := by
  intro ledger machine balances vouches
  have made :=
    balances.heap.allocInstance { cls } (vouches _ List.mem_cons_self) OrderedMap.all_empty
  exact Ledger.follows_new balances made (Heap.keepsMaps_of_same rfl)

/-- Binding several names changes only scopes. -/
theorem describes_defineAll {ledger : Ledger} {heap : Heap} (describes : ledger.Describes heap)
    (scope : Nat) {bindings : List (String × Value)}
    (vouches : ∀ binding ∈ bindings, ledger.Vouches binding.2) :
    ledger.Describes (heap.defineAll scope bindings) ∧
      (heap.defineAll scope bindings).maps = heap.maps := by
  induction bindings generalizing heap with
  | nil => exact ⟨describes, rfl⟩
  | cons first rest ih =>
    obtain ⟨vouchesFirst, vouchesRest⟩ := List.forall_mem_cons.mp vouches
    exact ih (describes.define scope first.1 vouchesFirst) vouchesRest

/-- The values that the body of a function starts with are those of the call. -/
theorem mem_hand_of_bindings {called : Activation} {arguments : List Value}
    {binding : String × Value}
    (member : binding ∈ called.bindings arguments) :
    binding.2 ∈ called.receiver.toList ++ arguments := by
  unfold Activation.bindings at member
  have parameter : ∀ names : List String, binding ∈ names.zip arguments → binding.2 ∈ arguments :=
    fun _ inZip => (List.of_mem_zip inZip).2
  cases present : called.receiver with
  | none =>
    rw [present] at member
    exact parameter _ member
  | some receiver =>
    rw [present] at member
    rcases List.mem_cons.mp member with rfl | inZip
    · exact List.mem_cons_self
    · exact List.mem_cons_of_mem _ (parameter _ inZip)

/-- Opening the scope of a body deals only with values that it has in hand. -/
theorem bodyScope_handles (called : Activation) (arguments : List Value) :
    (bodyScope called arguments).Handles (called.receiver.toList ++ arguments) fun _ => [] := by
  intro ledger machine balances vouches
  have bindings : ∀ binding ∈ called.bindings arguments, ledger.Vouches binding.2 :=
    fun binding member => vouches binding.2 (mem_hand_of_bindings member)
  have opened := balances.heap.newScope (some called.scope)
  obtain ⟨describes, maps⟩ :=
    describes_defineAll opened (machine.heap.newScope (some called.scope)).1 bindings
  exact Ledger.follows_heap balances describes maps nofun

end Run

/-! ## Plans -/

namespace Plan

variable {α : Type} {values : α → List Value} {hand given : List Value}

/-- One value in hand is a list of values in hand. -/
theorem alone_inHand {value : Value} (inHand : value ∈ hand) : [value] ⊆ hand :=
  List.cons_subset.mpr ⟨inHand, List.nil_subset _⟩

/-- A plan of one last step deals with what the step deals with. -/
theorem handles_last {run : Run α} (handles : run.Handles given values) (inHand : given ⊆ hand) :
    (last run).Handles values hand :=
  ⟨given, values, handles, inHand, fun _ => List.subset_append_left _ _⟩

/-- A plan that turns into other code deals with what that code has in hand. -/
theorem handles_become {kind : ResultKind} {code : Code kind} (inHand : code.hand ⊆ hand) :
    (become code).Handles kind.hand hand :=
  ⟨inHand, fun _ => List.subset_append_left _ _⟩

/-- A step that gives no values may stand before what handles the values in hand. -/
theorem handles_perform {β : Type} {run : Run β} {next : β → Plan α}
    (handles : run.Handles given fun _ => []) (inHand : given ⊆ hand)
    (onward : ∀ result, (next result).Handles values hand) :
    (perform run next).Handles values hand :=
  ⟨given, fun _ => [], handles, inHand, onward⟩

/-- A plan that binds a name deals with the value that it binds. -/
theorem handles_declare (name : String) {value : Value} (inHand : value ∈ hand) :
    (perform (declare name value) fun _ => give Flow.next).Handles (ResultKind.hand .flow) hand :=
  handles_perform (declare_handles name value) (Plan.alone_inHand inHand) fun _ =>
    List.nil_subset _

end Plan

/-- The plan of an expression deals only with values that it has in hand. -/
theorem Expr.plan_handles (form : Expr) (hand : List Value) :
    form.plan.Handles (ResultKind.hand .value) hand := by
  have none : ([] : List Value) ⊆ hand := List.nil_subset _
  cases form with
  | literal span value => exact handles_last (literal_handles value) none
  | «variable» span name => exact handles_last (readVariable_handles span name) none
  | this span => exact handles_last (readVariable_handles span "this") none
  | super span name => exact handles_last (superMethod_handles span name) none
  | group span inner => exact handles_become none
  | assign span name value =>
    refine ⟨none, fun value => ?_⟩
    refine handles_perform (assignVariable_handles span name value) ?_ fun _ => ?_
    · exact Plan.alone_inHand List.mem_cons_self
    · exact Plan.alone_inHand List.mem_cons_self
  | binary span op left right =>
    refine ⟨none, fun left => ⟨List.nil_subset _, fun right => ?_⟩⟩
    exact handles_last ((binary_handles op left right).withSpan span) (List.nil_subset _)
  | logical span op left right =>
    refine ⟨none, fun left => ?_⟩
    dsimp only
    split
    · exact Plan.alone_inHand List.mem_cons_self
    · exact handles_become (List.nil_subset _)
  | unary span op operand =>
    exact ⟨none, fun operand => handles_last (unary_handles span op operand) (List.nil_subset _)⟩
  | call span callee arguments =>
    refine ⟨none, fun callee => ⟨List.nil_subset _, fun arguments => ⟨?_, fun result => ?_⟩⟩⟩
    · refine List.cons_subset.mpr ⟨?_, List.subset_append_left _ _⟩
      exact List.mem_append_right _ List.mem_cons_self
    · exact List.subset_append_left _ _
  | get span object name =>
    refine ⟨none, fun object => ?_⟩
    apply handles_last ((property_handles object name).withSpan span)
    exact Plan.alone_inHand List.mem_cons_self
  | set span object name value =>
    refine ⟨none, fun object => ?_⟩
    cases object with
    | object ref =>
      refine ⟨List.nil_subset _, fun value => ?_⟩
      refine handles_perform (setField_handles ref name value) ?_ fun _ => ?_
      · exact Plan.alone_inHand List.mem_cons_self
      · exact Plan.alone_inHand List.mem_cons_self
    | _ => exact handles_last (handles_faultAt _ _) (List.nil_subset _)

/-- The plan of a statement deals only with values that it has in hand. -/
theorem Stmt.plan_handles (form : Stmt) {hand : List Value} (nil : .nil ∈ hand) :
    form.plan.Handles (ResultKind.hand .flow) hand := by
  have none : ([] : List Value) ⊆ hand := List.nil_subset _
  cases form with
  | letDecl span name initializer =>
    cases initializer with
    | none => exact handles_declare name nil
    | some value => exact ⟨none, fun value => handles_declare name List.mem_cons_self⟩
  | function span decl =>
    exact ⟨[], _, close_handles decl, none, fun function =>
      handles_declare decl.name List.mem_cons_self⟩
  | classDecl span name superclass methods =>
    refine handles_perform (resolveSuperclass_reads superclass).handles none fun parent => ?_
    exact ⟨[], _, makeClass_handles name parent methods, none, fun cls =>
      handles_declare name List.mem_cons_self⟩
  | expression span value => exact ⟨none, fun _ => List.nil_subset _⟩
  | print span value =>
    exact ⟨none,
      fun value => handles_perform (printValue_handles value) (List.nil_subset _) fun _ =>
      List.nil_subset _⟩
  | block span body =>
    exact handles_perform blockScope_handles none fun _ =>
      ⟨none, fun _ => List.subset_append_left _ _⟩
  | conditional span condition thenBranch elseBranch =>
    refine ⟨none, fun value => ?_⟩
    dsimp only
    split
    · exact handles_become (List.nil_subset _)
    · cases elseBranch with
      | none => exact List.nil_subset _
      | some branch => exact handles_become (List.nil_subset _)
  | «while» span condition body => exact handles_become none
  | «return» span value =>
    cases value with
    | none => exact Plan.alone_inHand nil
    | some value => exact ⟨none, fun value => List.subset_append_left _ _⟩
  | «break» span => exact none

/-- The call of a built-in function is one step of its own. -/
def Code.isBuiltin {kind : ResultKind} : Code kind → Bool
  | .call (.builtin ..) _ _ => true
  | _ => false

/-- With the values come the objects whose methods they are, and `nil`. -/
def Value.reach (hand : List Value) : List Value := .nil :: (hand ++ hand.filterMap Value.receiver?)

/-- What is in hand is within reach. -/
theorem Value.subset_reach (hand : List Value) : hand ⊆ reach hand :=
  List.subset_cons_of_subset _ (List.subset_append_left _ _)

/-- A ledger that vouches for what is in hand vouches for all within reach. -/
theorem Ledger.vouches_reach {ledger : Ledger} {hand : List Value}
    (vouches : ∀ value ∈ hand, ledger.Vouches value) :
    ∀ value ∈ Value.reach hand, ledger.Vouches value := by
  intro value member
  rcases List.mem_cons.mp member with rfl | member
  · exact vouches_nil
  · rcases List.mem_append.mp member with inHand | inReceivers
    · exact vouches value inHand
    · obtain ⟨owner, inHand, has⟩ := List.mem_filterMap.mp inReceivers
      exact (vouches owner inHand).receiver has

/-- The plan of a call deals only with values that it has in hand. -/
theorem Value.callPlan_handles (callee : Value) (arguments : List Value) (span : Span)
    (other : (Code.call callee arguments span).isBuiltin = false) :
    (callee.callPlan arguments span).Handles (ResultKind.hand .value)
      (reach (callee :: arguments)) := by
  have given : arguments ⊆ reach (callee :: arguments) :=
    List.Subset.trans (List.subset_cons_self _ _) (subset_reach _)
  cases callee with
  | function identity closure => exact handles_become given
  | method identity receiver method =>
    refine handles_become (List.cons_subset.mpr ⟨?_, given⟩)
    exact List.mem_cons_of_mem _ (List.mem_append_right _ List.mem_cons_self)
  | classObject cls => exact handles_become (subset_reach _)
  | builtin => contradiction
  | _ => exact handles_last (handles_fault _) (List.nil_subset _)

/-- The plan of an instantiation deals only with values that it has in hand. -/
theorem Class.plan_handles (cls : Class) (arguments : List Value) {hand : List Value}
    (inHand : .classObject cls :: arguments ⊆ hand) :
    (cls.plan arguments).Handles (ResultKind.hand .value) hand := by
  obtain ⟨itself, given⟩ := List.cons_subset.mp inHand
  unfold Class.plan
  split
  · exact handles_last (handles_fault _) (List.nil_subset _)
  · refine ⟨_, _, newInstance_handles cls, Plan.alone_inHand itself, fun object => ?_⟩
    cases cls.findMethod? FunctionDecl.initializerName with
    | none => exact Plan.alone_inHand List.mem_cons_self
    | some method =>
      refine ⟨List.cons_subset.mpr ⟨List.mem_cons_self, ?_⟩, fun _ => ?_⟩
      · exact List.subset_append_of_subset_right _ given
      · exact Plan.alone_inHand (List.mem_append_right _ List.mem_cons_self)

/-- The plan of an activation deals only with values that it has in hand. -/
theorem Activation.plan_handles (called : Activation) (arguments : List Value) {hand : List Value}
    (nil : .nil ∈ hand) (inHand : called.receiver.toList ++ arguments ⊆ hand) :
    (called.plan arguments).Handles (ResultKind.hand .value) hand := by
  refine handles_perform (checkCall_reads _ _).handles (List.nil_subset _) fun _ => ?_
  refine handles_perform (bodyScope_handles called arguments) inHand fun scope => ?_
  refine ⟨List.nil_subset _, fun ending => Plan.alone_inHand ?_⟩
  -- A call gives the object, what the body returns, or `nil`.
  unfold Activation.result
  split
  · cases present : called.receiver with
    | none => exact List.mem_append_right _ nil
    | some receiver =>
      refine List.mem_append_right _ (inHand ?_)
      rw [present]
      exact List.mem_cons_self
  · cases ending with
    | returned value => exact List.mem_append_left _ List.mem_cons_self
    | next | broke => exact List.mem_append_right _ nil

/-- All code but the calls of built-in functions handles only what it gets. -/
theorem Code.plan_handles {kind : ResultKind} (code : Code kind) (other : code.isBuiltin = false) :
    code.plan.Handles kind.hand (Value.reach code.hand) := by
  have none : ∀ hand : List Value, [] ⊆ hand := List.nil_subset
  have nil : .nil ∈ Value.reach code.hand := List.mem_cons_self
  cases code with
  | expr form => exact form.plan_handles _
  | exprs forms =>
    cases forms with
    | nil => exact none _
    | cons first rest =>
      refine ⟨none _, fun value => ⟨none _, fun others => List.cons_subset.mpr ⟨?_, ?_⟩⟩⟩
      · exact List.mem_append_right _ List.mem_cons_self
      · exact List.subset_append_left _ _
  | stmt form => exact form.plan_handles nil
  | stmts forms =>
    cases forms with
    | nil => exact none _
    | cons first rest =>
      refine ⟨none _, fun ending => ?_⟩
      cases ending with
      | next => exact handles_become (none _)
      | returned value => exact Plan.alone_inHand List.mem_cons_self
      | broke => exact none _
  | loop condition body =>
    refine ⟨none _, fun value => ?_⟩
    dsimp only
    split
    · refine ⟨none _, fun ending => ?_⟩
      cases ending with
      | next => exact handles_become (none _)
      | returned value => exact Plan.alone_inHand List.mem_cons_self
      | broke => exact none _
    · exact none _
  | call callee arguments span => exact callee.callPlan_handles arguments span other
  | instantiation cls arguments => exact cls.plan_handles arguments (Value.subset_reach _)
  | activation called arguments => exact called.plan_handles arguments nil (Value.subset_reach _)

end EventScript
