import EventScript.Proofs.Evaluation.Contract
import EventScript.Proofs.Mirroring.Builtins
import EventScript.Proofs.Syntax.Plain

/-!
# Evaluation does not tell scopes apart

Code does the same on machines that mirror each other (`Code.run_parallels`). It may stand in scopes
that only meet, so also in a blank scope, as long as it declares nothing there itself
(`Code.Plain`). On the way both runs add scopes, and the pairing grows.
-/

namespace EventScript

open Run Plan

/-- The code declares nothing in the scope that it is run in. -/
def Code.Plain {kind : ResultKind} : Code kind → Prop
  | .stmt form => form.Plain
  | .stmts forms => ∀ form ∈ forms, form.Plain
  | .loop _ body => body.Plain
  | _ => True

/-- The statements end in the same way, with values that mirror each other. -/
inductive Flow.Mirrors (pairing : Pairing) : Flow → Flow → Prop where
  | next : Mirrors pairing .next .next
  | returned {value value' : Value} (values : value.Mirrors pairing value') :
      Mirrors pairing (.returned value) (.returned value')
  | broke : Mirrors pairing .broke .broke

/-- The results mirror each other. -/
def ResultKind.Mirrors (pairing : Pairing) : (kind : ResultKind) → kind.Result → kind.Result → Prop
  | .value => Value.Mirrors pairing
  | .values => List.Forall₂ (Value.Mirrors pairing)
  | .flow => Flow.Mirrors pairing

/-- The activations are of one declaration, over paired scopes. -/
structure Activation.Mirrors (pairing : Pairing) (called called' : Activation) : Prop where
  decl : called'.decl = called.decl
  scope : pairing.paired called.scope called'.scope
  home : Option.Rel (Class.Mirrors pairing) called.home called'.home
  receiver : Option.Rel (Value.Mirrors pairing) called.receiver called'.receiver
  initializes : called'.initializes = called.initializes

/-- Activations go on mirroring each other when the pairing grows. -/
theorem Activation.Mirrors.grows {pairing later : Pairing} {called called' : Activation}
    (mirrors : called.Mirrors pairing called') (grown : pairing.Grows later) :
    called.Mirrors later called' :=
  { mirrors with
    scope := grown.paired mirrors.scope
    home := mirrors.home.imp fun _ _ classes => classes.grows grown
    receiver := mirrors.receiver.imp fun _ _ values => values.grows grown }

/-- Calling closures that mirror each other is alike. -/
theorem Activation.Mirrors.ofClosure {pairing : Pairing} {closure closure' : Closure}
    (closures : closure.Mirrors pairing closure') :
    (Activation.ofClosure closure).Mirrors pairing (.ofClosure closure') :=
  ⟨closures.decl, closures.scope, closures.home, .none, rfl⟩

/-- Calling methods that mirror each other on such objects is alike. -/
theorem Activation.Mirrors.ofMethod {pairing : Pairing} {receiver receiver' : Value}
    {method method' : Method} (receivers : receiver.Mirrors pairing receiver')
    (methods : method.Mirrors pairing method') :
    (Activation.ofMethod receiver method).Mirrors pairing (.ofMethod receiver' method') where
  decl := methods.decl
  scope := methods.owner.body.scope
  home := .some methods.owner
  receiver := .some receivers
  initializes := congrArg FunctionDecl.isInitializer methods.decl

/-- What calls give mirrors each other. -/
theorem Activation.Mirrors.result {pairing : Pairing} {called called' : Activation}
    (mirrors : called.Mirrors pairing called') {flow flow' : Flow}
    (flows : flow.Mirrors pairing flow') :
    (called.result flow).Mirrors pairing (called'.result flow') := by
  unfold Activation.result
  rw [mirrors.initializes]
  split
  · exact mirrors.receiver.getD .nil
  · cases flows with
    | returned values => exact values
    | next | broke => exact .nil

/-- The code is the same but for values that mirror each other. -/
inductive Code.Mirrors (pairing : Pairing) :
    {kind : ResultKind} → Code kind → Code kind → Prop where
  | expr (form : Expr) : Mirrors pairing (.expr form) (.expr form)
  | exprs (forms : List Expr) : Mirrors pairing (.exprs forms) (.exprs forms)
  | stmt (form : Stmt) : Mirrors pairing (.stmt form) (.stmt form)
  | stmts (forms : List Stmt) : Mirrors pairing (.stmts forms) (.stmts forms)
  | loop (condition : Expr) (body : Stmt) :
      Mirrors pairing (.loop condition body) (.loop condition body)
  | call {callee callee' : Value} {arguments arguments' : List Value}
      (callees : callee.Mirrors pairing callee')
      (all : List.Forall₂ (Value.Mirrors pairing) arguments arguments') (span : Span) :
      Mirrors pairing (.call callee arguments span) (.call callee' arguments' span)
  | instantiation {cls cls' : Class} {arguments arguments' : List Value}
      (classes : cls.Mirrors pairing cls')
      (all : List.Forall₂ (Value.Mirrors pairing) arguments arguments') :
      Mirrors pairing (.instantiation cls arguments) (.instantiation cls' arguments')
  | activation {called called' : Activation} {arguments arguments' : List Value}
      (activations : called.Mirrors pairing called')
      (all : List.Forall₂ (Value.Mirrors pairing) arguments arguments') :
      Mirrors pairing (.activation called arguments) (.activation called' arguments')

/-- The bodies of functions start with the same names bound, to values that mirror each other. -/
theorem Activation.Mirrors.bindings {pairing : Pairing} {called called' : Activation}
    (mirrors : called.Mirrors pairing called') {arguments arguments' : List Value}
    (all : List.Forall₂ (Value.Mirrors pairing) arguments arguments') :
    List.Forall₂ (fun binding binding' => binding'.1 = binding.1 ∧
      binding.2.Mirrors pairing binding'.2)
      (called.bindings arguments) (called'.bindings arguments') := by
  have zipped : ∀ names : List String,
      List.Forall₂ (fun binding binding' => binding'.1 = binding.1 ∧
        binding.2.Mirrors pairing binding'.2)
        (names.zip arguments) (names.zip arguments') := by
    induction all with
    | nil =>
      intro names
      rw [List.zip_nil_right]
      exact .nil
    | cons values _ ih =>
      intro names
      cases names with
      | nil => exact .nil
      | cons name names => exact .cons ⟨rfl, values⟩ (ih names)
  unfold Activation.bindings
  rw [mirrors.decl]
  rcases mirrors.receiver.cases with ⟨first, second⟩ | ⟨receiver, receiver', first, second,
    receivers⟩
  · rw [first, second]
    exact zipped _
  · rw [first, second]
    exact .cons ⟨rfl, receivers⟩ (zipped _)

/-- On machines that mirror each other the computations have outcomes that do when the pairing has
grown. -/
def Run.Parallels {α β : Type} (pairing : Pairing) (scope scope' : Nat)
    (same : Pairing → α → β → Prop)
    (run : Run α) (run' : Run β) : Prop :=
  ∀ machine machine', machine.Mirrors pairing scope scope' machine' →
    ∃ later, pairing.Grows later ∧
    (run machine).Mirrors later scope scope' (same later) (run' machine')

/-! ## The evaluator's own steps -/

/-- The same text may be printed by both machines. -/
theorem Machine.Mirrors.print {pairing : Pairing} {scope scope' : Nat} {machine machine' : Machine}
    (mirrors : machine.Mirrors pairing scope scope' machine') (text : String) :
    (machine.print text).Mirrors pairing scope scope' (machine'.print text) := by
  obtain ⟨_, _, _, _, _, _, _, _, sink, _, _⟩ := machine
  obtain ⟨_, _, _, _, _, _, _, _, sink', _, _⟩ := machine'
  obtain rfl : sink' = sink := mirrors.sink
  cases sink' with
  | console =>
    exact { mirrors with
      console := congrArg (fun console => console.write (text ++ "\n")) mirrors.console }
  | captured before => exact { mirrors with sink := rfl }

namespace Run

variable {pairing : Pairing} {scope scope' : Nat}

section Variables

variable (meets : pairing.Meets scope scope')
include meets

/-- Reading a variable is the same on machines that mirror each other. -/
theorem readVariable_mirrors (span : Span) (name : String) :
    (readVariable span name).Mirrors pairing scope scope' (Value.Mirrors pairing)
      (readVariable span name) := by
  intro machine machine' machines
  obtain rfl := machines.scope
  obtain rfl := machines.scope'
  unfold readVariable
  rcases (machines.heap.lookup? name meets).cases with
    ⟨first, second⟩ | ⟨value, value', first, second, values⟩
  · rw [first, second]
    exact .failed _ machines
  · rw [first, second]
    exact .done values machines

/-- Assigning to a variable is the same on machines that mirror each other. -/
theorem assignVariable_mirrors (span : Span) (name : String) {value value' : Value}
    (values : value.Mirrors pairing value') :
    (assignVariable span name value).Mirrors pairing scope scope' Eq
      (assignVariable span name value') := by
  intro machine machine' machines
  obtain rfl := machines.scope
  obtain rfl := machines.scope'
  unfold assignVariable
  rcases (machines.heap.binder? name meets).cases with
    ⟨first, second⟩ | ⟨binder, binder', first, second, paired⟩
  · rw [first, second]
    exact .failed _ machines
  · rw [first, second]
    exact .done rfl (machines.grows (.refl pairing) (machines.heap.define paired name values))

omit meets in
/-- Asking for the class of the running method is the same on machines that mirror each other. -/
theorem home_mirrors :
    home.Mirrors pairing scope scope' (Option.Rel (Class.Mirrors pairing)) home := by
  intro machine machine' machines
  unfold home
  cases frame : machine.frames <;> cases frame' : machine'.frames <;> have frames :=
    machines.frames <;>
    rw [frame, frame'] at frames <;> cases frames
  case nil.nil => exact .done .none machines
  case cons.cons frames rest => exact .done frames machines

/-- Getting a method of the superclass is the same on machines that mirror each other. -/
theorem superMethod_mirrors (span : Span) (name : String) :
    (superMethod span name).Mirrors pairing scope scope' (Value.Mirrors pairing)
      (superMethod span name) := by
  refine home_mirrors.bind fun {home home'} homes => ?_
  have superclasses : Option.Rel (Class.Mirrors pairing) (home.bind Class.superclass?)
      (home'.bind Class.superclass?) := by
    cases homes with
    | none => exact .none
    | some classes => exact classes.superclass?
  rcases superclasses.cases with ⟨first, second⟩ | ⟨parent, parent', first, second, parents⟩
  · rw [first, second]
    exact .faultAt _ _
  · rw [first, second]
    refine (readVariable_mirrors meets span "this").bind fun receivers => ?_
    rcases (parents.findMethod? name).cases with
      ⟨first, second⟩ | ⟨method, method', first, second, methods⟩
    · rw [first, second]
      exact .faultAt _ _
    · rw [first, second]
      exact .create fun heaps => heaps.newMethod receivers methods

/-- Finding the class that a declaration inherits from is the same on machines that mirror each
other. -/
theorem resolveSuperclass_mirrors (superclass : Option SuperclassName) :
    (resolveSuperclass superclass).Mirrors pairing scope scope' (Option.Rel (Class.Mirrors pairing))
      (resolveSuperclass superclass) := by
  unfold resolveSuperclass
  cases superclass with
  | none => exact .pure .none
  | some named =>
    refine (readVariable_mirrors meets named.span named.name).bind fun values => ?_
    cases values with
    | classObject classes => exact .pure (.some classes)
    | _ => exact .faultAt _ _

end Variables

section Declarations

variable (paired : pairing.paired scope scope')
include paired

/-- Binding a name is the same on machines that mirror each other. -/
theorem declare_mirrors (name : String) {value value' : Value}
    (values : value.Mirrors pairing value') :
    (declare name value).Mirrors pairing scope scope' Eq (declare name value') := by
  intro machine machine' machines
  obtain rfl := machines.scope
  obtain rfl := machines.scope'
  exact .done rfl (machines.grows (.refl pairing) (machines.heap.define paired name values))

/-- Closing a declaration is the same on machines that mirror each other. -/
theorem close_mirrors (decl : FunctionDecl) :
    (close decl).Mirrors pairing scope scope' (Value.Mirrors pairing) (close decl) := by
  refine home_mirrors.bind fun homes => Run.Mirrors.machine.bind fun machines => ?_
  dsimp only
  rw [machines.scope, machines.scope']
  exact .create fun heaps => heaps.newFunction ⟨rfl, paired, homes⟩

/-- Making a class is the same on machines that mirror each other. -/
theorem makeClass_mirrors (name : String) {parent parent' : Option Class}
    (parents : Option.Rel (Class.Mirrors pairing) parent parent') (methods : List FunctionDecl) :
    (makeClass name parent methods).Mirrors pairing scope scope' (Value.Mirrors pairing)
      (makeClass name parent' methods) := by
  have ancestors : List.Forall₂ (ClassBody.Mirrors pairing) (parent.elim [] Class.lineage)
      (parent'.elim [] Class.lineage) := by
    cases parents with
    | none => exact .nil
    | some classes => exact classes.lineage
  refine Run.Mirrors.machine.bind fun machines => ?_
  dsimp only
  rw [machines.scope, machines.scope']
  refine Run.Mirrors.bindSame (.create fun heaps => ⟨heaps.newIdentity.1.symm, heaps.newIdentity.2⟩)
    fun identity => ?_
  exact .pure (.classObject ⟨⟨rfl, rfl, rfl, paired⟩, ancestors⟩)

end Declarations

/-- Evaluating a literal is the same on machines that mirror each other. -/
theorem literal_mirrors (value : Literal) :
    (literal value).Mirrors pairing scope scope' (Value.Mirrors pairing) (literal value) := by
  cases value with
  | number value => exact .pure (.number value)
  | text content => exact .create fun heaps => heaps.newString content
  | bool value => exact .pure (.bool value)
  | nil => exact .pure .nil

/-- Arithmetic is the same on machines that mirror each other. -/
theorem arithmetic_mirrors (op : BinaryOp) (left right : Float) :
    (arithmetic op left right).Mirrors pairing (arithmetic op left right) := by
  cases op with
  | add | subtract | multiply | divide => exact .number _
  | _ => exact .bool _

section Binary

variable {left left' right right' : Value} (lefts : left.Mirrors pairing left')
variable (rights : right.Mirrors pairing right')
include lefts rights

/-- A numeric operator is the same on machines that mirror each other. -/
theorem numeric_mirrors (op : BinaryOp) :
    (numeric op left right).Mirrors pairing scope scope' (Value.Mirrors pairing)
      (numeric op left' right') := by
  unfold numeric
  rw [lefts.number?, rights.number?, lefts.typeName, rights.typeName]
  split
  · exact .pure (arithmetic_mirrors op _ _)
  · split <;> exact .fault _

/-- A test for equality is the same on machines that mirror each other. -/
theorem equal_mirrors (change : Bool → Bool) :
    Run.Mirrors pairing scope scope' (Value.Mirrors pairing)
      (do return .bool (change ((← heap).equal left right)))
      (do return .bool (change ((← heap).equal left' right'))) := by
  refine Run.Mirrors.heap.bind fun heaps => ?_
  rw [heaps.equal lefts rights]
  exact .pure (.bool _)

omit lefts rights in
/-- Joining two values is the same on machines that mirror each other. -/
theorem concat_mirrors (left right : Nat) :
    Run.Mirrors pairing scope scope' (Value.Mirrors pairing)
      (create fun heap => heap.newString (heap.text left ++ heap.text right))
      (create fun heap => heap.newString (heap.text left ++ heap.text right)) := by
  refine .create fun {heap heap'} heaps => ?_
  rw [heaps.text, heaps.text]
  exact heaps.newString _

/-- A binary operator is the same on machines that mirror each other. -/
theorem binary_mirrors (op : BinaryOp) :
    (Run.binary op left right).Mirrors pairing scope scope' (Value.Mirrors pairing)
      (Run.binary op left' right') := by
  have numbers := @numeric_mirrors pairing scope scope' _ _ _ _ lefts rights op
  cases op with
  | equal => exact equal_mirrors lefts rights id
  | notEqual => exact equal_mirrors lefts rights not
  | add =>
    cases lefts with
    | string ref =>
      cases rights with
      | string other => exact concat_mirrors ref other
      | _ => exact numbers
    | _ => exact numbers
  | _ => exact numbers

end Binary

/-- A unary operator is the same on machines that mirror each other. -/
theorem unary_mirrors (span : Span) (op : UnaryOp) {operand operand' : Value}
    (operands : operand.Mirrors pairing operand') :
    (Run.unary span op operand).Mirrors pairing scope scope' (Value.Mirrors pairing)
      (Run.unary span op operand') := by
  cases op with
  | not =>
    unfold Run.unary
    rw [operands.isTruthy]
    exact .pure (.bool _)
  | negate =>
    unfold Run.unary
    rw [operands.number?]
    dsimp only
    split
    · exact .pure (.number _)
    · exact .faultAt _ _

/-- Operands that mirror each other decide a logical operator alike. -/
theorem decides_mirrors (op : LogicalOp) {left left' : Value} (lefts : left.Mirrors pairing left') :
    decides op left' = decides op left := by
  cases op <;> simp only [decides, lefts.isTruthy]

/-- A field of an instance, or a method of its class. -/
theorem member_mirrors (name : String) (ref : Nat) {object object' : Instance}
    (fields : object.fields.Rel (Value.Mirrors pairing) object'.fields)
    (methods : Option.Rel (Method.Mirrors pairing) (object.cls.findMethod? name)
      (object'.cls.findMethod? name)) :
    Run.Mirrors pairing scope scope' (Value.Mirrors pairing)
      (match object.fields.find? name with
        | some field => return field
        | none =>
          match object.cls.findMethod? name with
          | some method => create fun heap => heap.newMethod (.object ref) method
          | none => fault (.undefinedProperty name))
      (match object'.fields.find? name with
        | some field => return field
        | none =>
          match object'.cls.findMethod? name with
          | some method => create fun heap => heap.newMethod (.object ref) method
          | none => fault (.undefinedProperty name)) := by
  rcases (fields.find? name).cases with ⟨first, second⟩ | ⟨field, field', first, second, values⟩
  · rw [first, second]
    rcases methods.cases with ⟨first, second⟩ | ⟨method, method', first, second, methods⟩
    · rw [first, second]
      exact .fault _
    · rw [first, second]
      exact .create fun heaps => heaps.newMethod (.object ref) methods
  · rw [first, second]
    exact .pure values

/-- A method of a string, a list or a map. -/
theorem builtinMethod_mirrors (name : String) {value value' : Value}
    (values : value.Mirrors pairing value') :
    Run.Mirrors pairing scope scope' (Value.Mirrors pairing)
      (match value.builtinMethod? name with
        | some method => create fun heap => heap.newBuiltin method (some value)
        | none => fault (.unknownMethod name value.typeName))
      (match value'.builtinMethod? name with
        | some method => create fun heap => heap.newBuiltin method (some value')
        | none => fault (.unknownMethod name value'.typeName)) := by
  rw [values.builtinMethod?, values.typeName]
  split
  · exact .create fun heaps => heaps.newBuiltin _ values
  · exact .fault _

/-- Getting a property is the same on machines that mirror each other. -/
theorem property_mirrors (name : String) {value value' : Value}
    (values : value.Mirrors pairing value') :
    (property value name).Mirrors pairing scope scope' (Value.Mirrors pairing)
      (property value' name) := by
  cases values with
  | object ref =>
    refine Run.Mirrors.heap.bind fun heaps => ?_
    rcases heaps.object ref with objects | ⟨same, missing⟩
    · exact member_mirrors name ref objects.fields (objects.cls.findMethod? name)
    · rw [same, missing]
      exact @member_mirrors _ _ _ name ref default default OrderedMap.rel_empty .none
  | string ref => exact builtinMethod_mirrors name (.string ref)
  | list ref => exact builtinMethod_mirrors name (.list ref)
  | map ref => exact builtinMethod_mirrors name (.map ref)
  | _ => exact .fault _

/-- Printing a value is the same on machines that mirror each other. -/
theorem printValue_mirrors {value value' : Value} (values : value.Mirrors pairing value') :
    (printValue value).Mirrors pairing scope scope' Eq (printValue value') := by
  intro machine machine' machines
  unfold printValue
  rw [values.display machines.heap]
  exact .done rfl (machines.print _)

/-- Checking a call is the same on machines that mirror each other. -/
theorem checkCall_mirrors (decl : FunctionDecl) (count : Nat) :
    (checkCall decl count).Mirrors pairing scope scope' Eq (checkCall decl count) := by
  intro machine machine' machines
  unfold checkCall
  rw [machines.settings, ← machines.frames.length_eq]
  split
  · exact .failed _ machines
  · split
    · exact .failed _ machines
    · exact .done rfl machines

/-- A block that runs in scopes that meet gets scopes that stand for each other. -/
theorem blockScope_parallels (meets : pairing.Meets scope scope') :
    blockScope.Parallels pairing scope scope' Pairing.paired blockScope := by
  intro machine machine' machines
  obtain rfl := machines.scope
  obtain rfl := machines.scope'
  have heaps := machines.heap.newScope (.some meets)
  have grown := pairing.grows_pair machine.heap.scopes.size machine'.heap.scopes.size
  have paired := pairing.pair_paired machine.heap.scopes.size machine'.heap.scopes.size
  exact ⟨_, grown, .done paired (machines.grows grown heaps)⟩

/-- The bodies of functions that mirror each other start in scopes that stand for each other. -/
theorem bodyScope_parallels {called called' : Activation}
    (activations : called.Mirrors pairing called')
    {arguments arguments' : List Value}
    (all : List.Forall₂ (Value.Mirrors pairing) arguments arguments') :
    (bodyScope called arguments).Parallels pairing scope scope' Pairing.paired
      (bodyScope called' arguments') := by
  intro machine machine' machines
  have grown := pairing.grows_pair machine.heap.scopes.size machine'.heap.scopes.size
  have started := machines.heap.newScope (.some (.paired activations.scope))
  have bound := started.defineAll (pairing.pair_paired _ _) ((activations.bindings all).imp
    fun _ _ binding => ⟨binding.1, binding.2.grows grown⟩)
  exact ⟨_, grown, .done (pairing.pair_paired _ _) (machines.grows grown bound)⟩

/-! ## One thing after the other -/

section Rules

variable {α β γ δ : Type} {same : Pairing → α → β → Prop} {other : Pairing → γ → δ → Prop}
variable {run : Run α} {run' : Run β}

/-- A step that does the same at once. -/
theorem Mirrors.parallels {same : α → β → Prop}
    (mirrors : run.Mirrors pairing scope scope' same run') :
    run.Parallels pairing scope scope'
      (fun later value value' => pairing = later ∧ same value value') run' := by
  intro machine machine' machines
  have ends := mirrors machine machine' machines
  exact ⟨pairing, .refl pairing, ends.imp fun _ _ values => ⟨rfl, values⟩⟩

/-- What follows goes on where the pairing has grown. -/
theorem Parallels.bind {rest : α → Run γ} {rest' : β → Run δ}
    (parallels : run.Parallels pairing scope scope' same run')
    (onward : ∀ {later : Pairing} {value : α} {value' : β}, pairing.Grows later →
      same later value value' →
      (rest value).Parallels later scope scope' other (rest' value')) :
    (run >>= rest).Parallels pairing scope scope' other (run' >>= rest') := by
  intro machine machine' machines
  obtain ⟨later, grown, early⟩ := parallels machine machine' machines
  cases ended : run machine <;> cases ended' : run' machine' <;> rw [ended, ended'] at early <;>
    cases early
  case done.done values laters =>
    rw [bind_done ended, bind_done ended']
    obtain ⟨last, grown', outcomes⟩ := onward grown values _ _ laters
    exact ⟨last, grown.trans grown', outcomes⟩
  case failed.failed laters =>
    rw [bind_failed ended, bind_failed ended']
    exact ⟨later, grown, .failed _ laters⟩
  case exhausted.exhausted =>
    rw [bind_exhausted ended, bind_exhausted ended']
    exact ⟨later, grown, .exhausted⟩

end Rules

end Run

/-- The settings lead from scopes to others that stand in the same relation to them. -/
inductive Setting.Mirrors (pairing : Pairing) (scope scope' : Nat) :
    Setting → Setting → Nat → Nat → Prop where
  | here : Mirrors pairing scope scope' .here .here scope scope'
  | at (span : Span) : Mirrors pairing scope scope' (.at span) (.at span) scope scope'
  | inScope (inner inner' : Nat) :
      Mirrors pairing scope scope' (.inScope inner) (.inScope inner') inner inner'
  | inCall {frame frame' : Frame} (frames : frame.Mirrors pairing frame') (inner inner' : Nat) :
      Mirrors pairing scope scope' (.inCall frame inner) (.inCall frame' inner') inner inner'

namespace Setting.Mirrors

variable {pairing later : Pairing} {scope scope' inner inner' : Nat} {setting setting' : Setting}
variable {machine machine' last last' : Machine}

/-- Inner code starts on machines that mirror each other. -/
theorem enter (mirrors : setting.Mirrors pairing scope scope' setting' inner inner')
    (machines : machine.Mirrors pairing scope scope' machine') :
    (setting.enter machine).Mirrors pairing inner inner' (setting'.enter machine') := by
  cases mirrors with
  | here | «at» => exact machines
  | inScope => exact { machines with scope := rfl, scope' := rfl }
  | inCall frames =>
    exact { machines with scope := rfl, scope' := rfl, frames := .cons frames machines.frames }

/-- Going back, the code is where it was, and the calls that are open are those that were open. -/
theorem leave (mirrors : setting.Mirrors pairing scope scope' setting' inner inner')
    (machines : machine.Mirrors pairing scope scope' machine')
    (lasts : last.Mirrors later inner inner' last') :
    (setting.leave machine last).Mirrors later scope scope' (setting'.leave machine' last') := by
  cases mirrors with
  | here | «at» => exact lasts
  | inScope => exact { lasts with scope := machines.scope, scope' := machines.scope' }
  | inCall =>
    have frames : List.Forall₂ (Frame.Mirrors later) last.frames.tail last'.frames.tail := by
      rw [← List.drop_one, ← List.drop_one]
      exact List.forall₂_drop 1 lasts.frames
    exact { lasts with scope := machines.scope, scope' := machines.scope', frames }

/-- Settings that mirror each other point failures alike. -/
theorem point (mirrors : setting.Mirrors pairing scope scope' setting' inner inner')
    (diagnostic : Diagnostic) : setting'.point diagnostic = setting.point diagnostic := by
  cases mirrors <;> rfl

/-- Code that does the same inside a setting does the same seen from outside. -/
theorem around (mirrors : setting.Mirrors pairing scope scope' setting' inner inner') {α β : Type}
    {same : Pairing → α → β → Prop} {run : Run α} {run' : Run β}
    (parallels : run.Parallels pairing inner inner' same run') :
    (setting.around run).Parallels pairing scope scope' same (setting'.around run') := by
  intro machine machine' machines
  obtain ⟨later, grown, early⟩ := parallels _ _ (mirrors.enter machines)
  refine ⟨later, grown, ?_⟩
  unfold Setting.around
  cases ended : run (setting.enter machine) <;> cases ended' : run' (setting'.enter machine') <;>
    rw [ended, ended'] at early <;> cases early
  case done.done values lasts => exact .done values (mirrors.leave machines lasts)
  case failed.failed diagnostic last last' lasts =>
    show Outcome.Mirrors later scope scope' (same later) (.failed (setting.point diagnostic) _)
      (.failed (setting'.point diagnostic) _)
    rw [mirrors.point]
    exact .failed _ (mirrors.leave machines lasts)
  case exhausted.exhausted => exact .exhausted

end Setting.Mirrors

/-- Where code may run: in scopes that stand for each other, or in scopes that meet if it declares
nothing there. -/
structure Code.Stands (pairing : Pairing) (scope scope' : Nat) {kind : ResultKind}
    (code : Code kind) :
    Prop where
  meets : pairing.Meets scope scope'
  declares : code.Plain ∨ pairing.paired scope scope'

namespace Plan

variable {α β : Type} {pairing : Pairing} {scope scope' : Nat} {same : Pairing → α → β → Prop}

/-- The plans take steps and come to code that do the same on machines that mirror each other, and
end with what is related. On the way the pairing may grow. -/
inductive Mirrors (scope scope' : Nat) (same : Pairing → α → β → Prop) :
    Pairing → Plan α → Plan β → Prop where
  | give {pairing : Pairing} {value : α} {value' : β} (values : same pairing value value') :
      Mirrors scope scope' same pairing (give value) (give value')
  | perform {pairing : Pairing} {γ δ : Type} {other : Pairing → γ → δ → Prop} {run : Run γ}
      {run' : Run δ}
      {next : γ → Plan α} {next' : δ → Plan β}
      (parallels : run.Parallels pairing scope scope' other run')
      (onward : ∀ {later : Pairing} {value : γ} {value' : δ}, pairing.Grows later →
        other later value value' → Mirrors scope scope' same later (next value) (next' value')) :
      Mirrors scope scope' same pairing (perform run next) (perform run' next')
  | visit {pairing : Pairing} {kind : ResultKind} {setting setting' : Setting} {inner inner' : Nat}
      {code code' : Code kind} {next : kind.Result → Plan α} {next' : kind.Result → Plan β}
      (settings : setting.Mirrors pairing scope scope' setting' inner inner')
      (codes : code.Mirrors pairing code') (stands : code.Stands pairing inner inner')
      (onward : ∀ {later : Pairing} {result result' : kind.Result}, pairing.Grows later →
        kind.Mirrors later result result' →
        Mirrors scope scope' same later (next result) (next' result')) :
      Mirrors scope scope' same pairing (visit setting code next) (visit setting' code' next')

/-- Plans with first steps that mirror each other mirror each other if the rests do. -/
theorem mirrors_step {γ δ : Type} {other : γ → δ → Prop} {run : Run γ} {run' : Run δ}
    {next : γ → Plan α} {next' : δ → Plan β} (mirrors : run.Mirrors pairing scope scope' other run')
    (onward : ∀ {value value'}, other value value' →
      Mirrors scope scope' same pairing (next value) (next' value')) :
    Mirrors scope scope' same pairing (perform run next) (perform run' next') :=
  .perform mirrors.parallels fun {_ _ _} _ ⟨now, values⟩ => now ▸ onward values

/-- Plans of one last step mirror each other if the steps do. -/
theorem mirrors_last {run : Run α} {run' : Run β}
    (mirrors : run.Mirrors pairing scope scope' (same pairing) run') :
    Mirrors scope scope' same pairing (last run) (last run') := mirrors_step mirrors .give

/-- Plans that turn into code that is alike mirror each other. -/
theorem mirrors_become {kind : ResultKind} {code code' : Code kind}
    (codes : code.Mirrors pairing code')
    (stands : code.Stands pairing scope scope') :
    Mirrors scope scope' kind.Mirrors pairing (become code) (become code') :=
  .visit .here codes stands fun _ results => .give results

/-- An expression may be evaluated in scopes that meet. -/
theorem mirrors_expr (meets : pairing.Meets scope scope') (form : Expr) {next : Value → Plan α}
    {next' : Value → Plan β}
    (onward : ∀ {later : Pairing} {value value' : Value}, pairing.Grows later →
      value.Mirrors later value' → Mirrors scope scope' same later (next value) (next' value')) :
    Mirrors scope scope' same pairing (visit .here (.expr form) next)
      (visit .here (.expr form) next') :=
  .visit .here (.expr form) ⟨meets, .inl trivial⟩ onward

/-- A declaration may be made in scopes that stand for each other. -/
theorem mirrors_declare (paired : pairing.paired scope scope') (name : String)
    {value value' : Value}
    (values : value.Mirrors pairing value') :
    Mirrors scope scope' Flow.Mirrors pairing (perform (declare name value) fun _ => give .next)
      (perform (declare name value') fun _ => give .next) :=
  mirrors_step (declare_mirrors paired name values) fun _ => .give .next

end Plan

section Plans

variable {pairing : Pairing} {scope scope' : Nat}

/-- The plan of an expression is carried out alike on machines that mirror each other. -/
theorem Expr.plan_mirrors (meets : pairing.Meets scope scope') (form : Expr) :
    form.plan.Mirrors scope scope' Value.Mirrors pairing form.plan := by
  cases form with
  | literal span value => exact mirrors_last (literal_mirrors value)
  | «variable» span name => exact mirrors_last (readVariable_mirrors meets span name)
  | this span => exact mirrors_last (readVariable_mirrors meets span "this")
  | super span name => exact mirrors_last (superMethod_mirrors meets span name)
  | group span form => exact mirrors_become (.expr form) ⟨meets, .inl trivial⟩
  | assign span name form =>
    apply mirrors_expr meets form
    intro later value value' grown values
    have assigned := assignVariable_mirrors (meets.grows grown) span name values
    exact mirrors_step assigned fun _ => .give values
  | binary span op left right =>
    apply mirrors_expr meets left
    intro later value value' grown lefts
    apply mirrors_expr (meets.grows grown) right
    intro latest other other' grown' rights
    exact mirrors_last ((binary_mirrors (lefts.grows grown') rights op).withSpan span)
  | logical span op left right =>
    refine mirrors_expr meets left fun grown values => ?_
    rw [decides_mirrors op values]
    split
    · exact .give values
    · exact mirrors_become (.expr right) ⟨meets.grows grown, .inl trivial⟩
  | unary span op operand =>
    exact mirrors_expr meets operand fun _ values => mirrors_last (unary_mirrors span op values)
  | call span callee arguments =>
    apply mirrors_expr meets callee
    intro later called called' grown callees
    have meets := meets.grows grown
    refine .visit .here (.exprs arguments) ⟨meets, .inl trivial⟩ fun grown' all => ?_
    have calls := Code.Mirrors.call (callees.grows grown') all span
    exact .visit (.at span) calls ⟨meets.grows grown', .inl trivial⟩ fun _ values => .give values
  | get span object name =>
    exact mirrors_expr meets object fun _ objects =>
      mirrors_last ((property_mirrors name objects).withSpan span)
  | set span object name form =>
    refine mirrors_expr meets object fun grown objects => ?_
    cases objects with
    | object ref =>
      apply mirrors_expr (meets.grows grown) form
      intro later value value' _ values
      apply mirrors_step (.modifyHeap fun heaps => heaps.setField ref name values)
      exact fun _ => .give values
    | _ => exact mirrors_last (.faultAt _ _)

/-- The plan of a statement is carried out alike on machines that mirror each other. -/
theorem Stmt.plan_mirrors (form : Stmt) (stands : (Code.stmt form).Stands pairing scope scope') :
    form.plan.Mirrors scope scope' Flow.Mirrors pairing form.plan := by
  obtain ⟨meets, declares⟩ := stands
  -- A declaration stands where scopes are paired, and a branch declares nothing if the statement
  -- does not.
  have here : form.declared? ≠ none → pairing.paired scope scope' := fun declared =>
    declares.resolve_left fun plain => declared plain.declared?
  have branch : ∀ part ∈ form.branches, ∀ {later : Pairing}, pairing.Grows later →
      (Code.stmt part).Stands later scope scope' := by
    intro part member later grown
    exact ⟨meets.grows grown, declares.imp (fun plain => plain.branch member) grown.paired⟩
  cases form with
  | letDecl span name initializer =>
    have paired := here nofun
    cases initializer with
    | none => exact mirrors_declare paired name .nil
    | some form =>
      exact mirrors_expr meets form fun grown values =>
        mirrors_declare (grown.paired paired) name values
  | function span decl =>
    have paired := here nofun
    exact mirrors_step (close_mirrors paired decl) fun functions =>
      mirrors_declare paired decl.name functions
  | classDecl span name superclass methods =>
    have paired := here nofun
    apply mirrors_step (resolveSuperclass_mirrors meets superclass)
    intro parent parent' parents
    apply mirrors_step (makeClass_mirrors paired name parents methods)
    intro cls cls' classes
    exact mirrors_declare paired name classes
  | expression span form =>
    exact mirrors_expr meets form fun _ _ => .give .next
  | print span form =>
    exact mirrors_expr meets form fun _ values =>
      mirrors_step (printValue_mirrors values) fun _ => .give .next
  | block span body =>
    refine .perform (blockScope_parallels meets) fun {later inner inner'} _ paired => ?_
    have stands : (Code.stmts body).Stands later inner inner' := ⟨.paired paired, .inr paired⟩
    exact .visit (.inScope _ _) (.stmts body) stands fun _ flows => .give flows
  | conditional span condition thenBranch elseBranch =>
    refine mirrors_expr meets condition fun grown values => ?_
    rw [values.isTruthy]
    split
    · exact mirrors_become (.stmt thenBranch) (branch thenBranch List.mem_cons_self grown)
    · cases elseBranch with
      | none => exact .give .next
      | some other =>
        exact mirrors_become (.stmt other)
          (branch other (List.mem_cons_of_mem _ List.mem_cons_self) grown)
  | «while» span condition body =>
    have round := branch body List.mem_cons_self (.refl pairing)
    exact mirrors_become (.loop condition body) ⟨meets, round.declares⟩
  | «return» span form =>
    cases form with
    | none => exact .give (.returned .nil)
    | some form =>
      exact mirrors_expr meets form fun _ values => .give (.returned values)
  | «break» => exact .give .broke

/-- The plan of a call is carried out alike on machines that mirror each other. -/
theorem Value.callPlan_mirrors (meets : pairing.Meets scope scope') {callee callee' : Value}
    (callees : callee.Mirrors pairing callee') {arguments arguments' : List Value}
    (all : List.Forall₂ (Value.Mirrors pairing) arguments arguments') (span : Span) :
    (callee.callPlan arguments span).Mirrors scope scope' Value.Mirrors pairing
      (callee'.callPlan arguments' span) := by
  cases callees with
  | function identity closures =>
    exact mirrors_become (.activation (.ofClosure closures) all) ⟨meets, .inl trivial⟩
  | method identity receivers methods =>
    exact mirrors_become (.activation (.ofMethod receivers methods) all) ⟨meets, .inl trivial⟩
  | classObject classes =>
    exact mirrors_become (.instantiation classes all) ⟨meets, .inl trivial⟩
  | builtin identity called => exact mirrors_last (called.call_mirrors .none all span)
  | builtinMethod identity called receivers =>
    exact mirrors_last (called.call_mirrors (.some receivers) all span)
  | _ => exact mirrors_last (.fault _)

/-- The plan of an instantiation is carried out alike on machines that mirror each other. -/
theorem Class.plan_mirrors (meets : pairing.Meets scope scope') {cls cls' : Class}
    (classes : cls.Mirrors pairing cls') {arguments arguments' : List Value}
    (all : List.Forall₂ (Value.Mirrors pairing) arguments arguments') :
    (cls.plan arguments).Mirrors scope scope' Value.Mirrors pairing (cls'.plan arguments') := by
  unfold Class.plan
  rw [classes.arity, ← all.length_eq]
  split
  · exact mirrors_last (.fault _)
  · refine mirrors_step (.create fun heaps => heaps.newInstance classes) fun objects => ?_
    rcases (classes.findMethod? FunctionDecl.initializerName).cases with
      ⟨first, second⟩ | ⟨method, method', first, second, methods⟩
    · rw [first, second]
      exact .give objects
    · rw [first, second]
      have codes := Code.Mirrors.activation (.ofMethod objects methods) all
      exact .visit .here codes ⟨meets, .inl trivial⟩ fun grown _ => .give (objects.grows grown)

/-- The plan of an activation is carried out alike on machines that mirror each other. -/
theorem Activation.plan_mirrors {called called' : Activation}
    (activations : called.Mirrors pairing called') {arguments arguments' : List Value}
    (all : List.Forall₂ (Value.Mirrors pairing) arguments arguments') :
    (called.plan arguments).Mirrors scope scope' Value.Mirrors pairing
      (called'.plan arguments') := by
  unfold Activation.plan
  rw [activations.decl, ← all.length_eq]
  refine mirrors_step (checkCall_mirrors _ _) fun _ => ?_
  refine .perform (bodyScope_parallels activations all) fun {later _ _} grown paired => ?_
  have frames : Frame.Mirrors later ⟨called.home⟩ ⟨called'.home⟩ :=
    activations.home.imp fun _ _ classes => classes.grows grown
  refine .visit (.inCall frames _ _) (.stmts _) ⟨.paired paired, .inr paired⟩ fun grown' flows => ?_
  have activations := activations.grows (grown.trans grown')
  exact .give (activations.result flows)

/-- The plan of any code is carried out alike on machines that mirror each other. -/
theorem Code.plan_mirrors {kind : ResultKind} {code code' : Code kind}
    (codes : code.Mirrors pairing code')
    (stands : code.Stands pairing scope scope') :
    code.plan.Mirrors scope scope' kind.Mirrors pairing code'.plan := by
  have meets := stands.meets
  cases codes with
  | expr form => exact form.plan_mirrors meets
  | exprs forms =>
    cases forms with
    | nil => exact .give .nil
    | cons first rest =>
      apply mirrors_expr meets first
      intro later value value' grown values
      refine .visit .here (.exprs rest) ⟨meets.grows grown, .inl trivial⟩ fun grown' all => ?_
      exact .give (.cons (values.grows grown') all)
  | stmt form => exact form.plan_mirrors stands
  | stmts forms =>
    cases forms with
    | nil => exact .give .next
    | cons first rest =>
      have head : (Code.stmt first).Stands pairing scope scope' :=
        ⟨meets, stands.declares.imp_left fun plain => plain first List.mem_cons_self⟩
      refine .visit .here (.stmt first) head fun grown flows => ?_
      cases flows with
      | next =>
        refine mirrors_become (.stmts rest) ⟨meets.grows grown, ?_⟩
        exact stands.declares.imp (fun plain form member =>
          plain form (List.mem_cons_of_mem _ member))
          grown.paired
      | returned values => exact .give (.returned values)
      | broke => exact .give .broke
  | loop condition body =>
    refine mirrors_expr meets condition fun grown values => ?_
    rw [values.isTruthy]
    split
    · have round : (Code.stmt body).Stands _ scope scope' :=
        ⟨meets.grows grown, stands.declares.imp_right grown.paired⟩
      refine .visit .here (.stmt body) round fun grown' flows => ?_
      cases flows with
      | next =>
        exact mirrors_become (.loop condition body)
          ⟨round.meets.grows grown', round.declares.imp_right grown'.paired⟩
      | returned values => exact .give (.returned values)
      | broke => exact .give .next
    · exact .give .next
  | call callees all span => exact Value.callPlan_mirrors meets callees all span
  | instantiation classes all => exact Class.plan_mirrors meets classes all
  | activation activations all => exact Activation.plan_mirrors activations all

end Plans

/-- All inner code does the same on machines that mirror each other. -/
def Runner.Mirrors (runner : Runner) : Prop :=
  ∀ {kind : ResultKind} {code code' : Code kind} {pairing : Pairing} {scope scope' : Nat},
    code.Mirrors pairing code' → code.Stands pairing scope scope' →
    (runner kind code).Parallels pairing scope scope' kind.Mirrors (runner kind code')

/-- Plans that mirror each other do the same if the code that they come to does. -/
theorem Plan.Mirrors.carryOut {α β : Type} {pairing : Pairing} {scope scope' : Nat}
    {same : Pairing → α → β → Prop} {plan : Plan α} {plan' : Plan β}
    (plans : plan.Mirrors scope scope' same pairing plan') {runner : Runner}
    (mirrors : runner.Mirrors) :
    (plan.carryOut runner).Parallels pairing scope scope' same (plan'.carryOut runner) := by
  induction plans with
  | give values => exact fun _ _ machines => ⟨_, .refl _, .done values machines⟩
  | perform parallels _ ih => exact parallels.bind ih
  | visit settings codes stands _ ih => exact (settings.around (mirrors codes stands)).bind ih

/-- On machines that mirror each other code does the same. -/
theorem Code.run_parallels (bound : Nat) : Runner.Mirrors (.within bound) := by
  induction bound with
  | zero =>
    intro kind code code' pairing scope scope' _ _ machine machine' _
    refine ⟨pairing, .refl pairing, ?_⟩
    show Outcome.Mirrors pairing scope scope' _ (code.run 0 machine) (code'.run 0 machine')
    rw [code.run_zero, code'.run_zero]
    exact .exhausted
  | succ bound ih =>
    intro kind code code' pairing scope scope' codes stands
    show (code.run (bound + 1)).Parallels pairing scope scope' kind.Mirrors (code'.run (bound + 1))
    rw [code.run_succ, code'.run_succ]
    exact (Code.plan_mirrors codes stands).carryOut ih

/-- On machines that mirror each other plans that do come to code that does. -/
theorem Plan.Mirrors.visits {α β : Type} {pairing : Pairing} {scope scope' : Nat}
    {same : Pairing → α → β → Prop} {plan : Plan α} {plan' : Plan β}
    (plans : plan.Mirrors scope scope' same pairing plan') {runner : Runner}
    (mirrors : runner.Mirrors)
    {machine machine' reached : Machine} {kind : ResultKind} {code : Code kind}
    (machines : machine.Mirrors pairing scope scope' machine')
    (visits : Plan.Visits runner plan machine code reached) :
    ∃ later inner inner' code' reached', Plan.Visits runner plan' machine' code' reached' ∧
      code.Mirrors later code' ∧ code.Stands later inner inner' ∧
      reached.Mirrors later inner inner' reached' := by
  induction visits generalizing plan' pairing machine' with
  | perform done _ ih =>
    cases plans with
    | perform parallels onward =>
      obtain ⟨later, grown, outcomes⟩ := parallels _ _ machines
      rw [done] at outcomes
      obtain ⟨value', later', done', values, laters⟩ := outcomes.exists_done
      obtain ⟨last, inner, inner', code', reached', further, rest⟩ :=
        ih (onward grown values) laters
      exact ⟨last, inner, inner', code', reached', .perform done' further, rest⟩
  | here =>
    cases plans with
    | visit settings codes stands =>
      exact ⟨pairing, _, _, _, _, .here, codes, stands, settings.enter machines⟩
  | onward done _ ih =>
    cases plans with
    | visit settings codes stands onward =>
      obtain ⟨later, grown, outcomes⟩ := mirrors codes stands _ _ (settings.enter machines)
      rw [done] at outcomes
      obtain ⟨result', later', done', results, laters⟩ := outcomes.exists_done
      obtain ⟨last, inner, inner', code', reached', further, rest⟩ :=
        ih (onward grown results) (settings.leave machines laters)
      exact ⟨last, inner, inner', code', reached', .onward done' further, rest⟩

/-- On machines that mirror each other evaluation comes to code that does the same. -/
theorem Code.Visits.mirrors {bound : Nat} {kind kind' : ResultKind} {code other : Code kind}
    {code' : Code kind'} {machine machine' reached : Machine} {pairing : Pairing}
    {scope scope' : Nat}
    (visits : Code.Visits bound code machine code' reached) (codes : code.Mirrors pairing other)
    (stands : code.Stands pairing scope scope')
    (machines : machine.Mirrors pairing scope scope' machine') :
    ∃ later inner inner' other' reached', Code.Visits bound other machine' other' reached' ∧
      code'.Mirrors later other' ∧ code'.Stands later inner inner' ∧
      reached.Mirrors later inner inner' reached' := by
  induction visits generalizing pairing scope scope' machine' with
  | here => exact ⟨pairing, scope, scope', other, machine', .here, codes, stands, machines⟩
  | @inner bound _ _ _ _ _ _ _ _ _ visits _ ih =>
    obtain ⟨_, _, _, _, _, further, codes, stands, machines⟩ :=
      (Code.plan_mirrors codes stands).visits (Code.run_parallels bound) machines visits
    obtain ⟨last, inner, inner', code', reached', onward, rest⟩ := ih codes stands machines
    exact ⟨last, inner, inner', code', reached', .inner further onward, rest⟩

end EventScript
