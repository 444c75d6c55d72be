import EventScript.Proofs.Evaluation.Acts
import EventScript.Proofs.Evaluation.Record

/-!
# What evaluation keeps

A property of machines is stable when every act keeps it and it does not depend on where the code
is. All evaluation keeps stable properties (`Machine.Stable.leaves`), and they hold on every machine
that evaluation comes to on its way (`Machine.Stable.visited`). However it ends, evaluation comes
back to the scope and the open calls it started with (`Code.restores`).
-/

namespace EventScript

open Run Plan

/-- What has one property has another. -/
theorem Outcome.Leaves.imp {α : Type} {outcome : Outcome α} {property other : Machine → Prop}
    (leaves : outcome.Leaves property) (le : ∀ machine, property machine → other machine) :
    outcome.Leaves other := by
  cases outcome with
  | exhausted => trivial
  | failed diagnostic later | done value later => exact le _ leaves

/-- What one computation leaves and the next one keeps is left by both. -/
theorem Run.bind_leaves {α β : Type} {first : Run α} {next : α → Run β} {machine : Machine}
    {property : Machine → Prop} (leaves : (first machine).Leaves property)
    (onward : ∀ value later, property later → (next value later).Leaves property) :
    ((first >>= next) machine).Leaves property := by
  cases ended : first machine with
  | exhausted =>
    rw [bind_exhausted ended]
    trivial
  | failed diagnostic later =>
    rw [ended] at leaves
    rw [bind_failed ended]
    exact leaves
  | done value later =>
    rw [ended] at leaves
    rw [bind_done ended]
    exact onward value later leaves

/-- Every step of the plan is a series of acts. -/
def Plan.Acts {α : Type} (sites : Span → Prop) (points : Option Span → Prop) : Plan α → Prop
  | give _ => True
  | perform run next => run.Acts sites points ∧ ∀ value, (next value).Acts sites points
  | visit _ _ next => ∀ result, (next result).Acts sites points

namespace Plan

variable {α : Type} {sites : Span → Prop} {points : Option Span → Prop}

/-- A plan of one last step is a series of acts if the step is. -/
theorem acts_last {run : Run α} (acts : run.Acts sites points) : (last run).Acts sites points :=
  ⟨acts, fun _ => trivial⟩

/-- A plan that binds a name is a series of acts. -/
theorem acts_declare (name : String) (value : Value) :
    (perform (declare name value) fun _ => give Flow.next).Acts sites points :=
  ⟨declare_acts name value, fun _ => trivial⟩

end Plan

/-- Where the code itself begins operations, if it does. -/
def Code.sites {kind : ResultKind} : Code kind → Span → Prop
  | .call _ arguments span, site => 2 ≤ arguments.length ∧ site = span
  | _, _ => False

/-- Where failures of the code's own steps point. -/
def Code.points {kind : ResultKind} : Code kind → Option Span → Prop
  | .expr form, place => place = some form.span
  | .stmt (.classDecl _ _ superclass _), place => ∃ named ∈ superclass, place = some named.span
  | .call _ _ span, place => place = none ∨ place = some span
  | .instantiation .., place | .activation .., place => place = none
  | _, _ => False

/-- The plan of an expression takes only steps that are series of acts. -/
theorem Expr.plan_acts {sites : Span → Prop} {points : Option Span → Prop} {form : Expr}
    (there : points (some form.span)) : form.plan.Acts sites points := by
  cases form with
  | literal span value => exact acts_last (literal_acts value)
  | «variable» span name => exact acts_last (readVariable_acts there name)
  | this span => exact acts_last (readVariable_acts there "this")
  | super span name => exact acts_last (superMethod_acts there name)
  | group => exact fun _ => trivial
  | assign span name value =>
    exact fun value => ⟨assignVariable_acts there name value, fun _ => trivial⟩
  | binary span op left right =>
    intro left right
    have nowhere : (Run.binary op left right).Acts sites (· = none) := by
      apply binary_acts
      rfl
    dsimp only
    rw [withSpan_binary]
    exact acts_last (nowhere.orSpan there)
  | logical span op left right =>
    intro left
    dsimp only
    split
    · trivial
    · exact fun _ => trivial
  | unary span op operand => exact fun operand => acts_last (unary_acts there op operand)
  | call => exact fun _ _ _ => trivial
  | get span object name =>
    intro object
    have nowhere : (property object name).Acts sites (· = none) := by
      apply property_acts
      rfl
    dsimp only
    rw [withSpan_property]
    exact acts_last (nowhere.orSpan there)
  | set span object name value =>
    intro object
    cases object with
    | object ref => exact fun value => ⟨.modifyHeap _, fun _ => trivial⟩
    | _ => exact acts_last (.faultAt there _)

/-- The plan of a statement takes only steps that are series of acts. -/
theorem Stmt.plan_acts {sites : Span → Prop} (form : Stmt) :
    form.plan.Acts sites (Code.stmt form).points := by
  cases form with
  | letDecl span name initializer =>
    cases initializer with
    | none => exact acts_declare name .nil
    | some value => exact fun value => acts_declare name value
  | function span decl => exact ⟨close_acts decl, fun function => acts_declare decl.name function⟩
  | classDecl span name superclass methods =>
    refine ⟨resolveSuperclass_acts fun named member => ⟨named, member, rfl⟩, fun parent => ?_⟩
    exact ⟨makeClass_acts name parent methods, fun cls => acts_declare name cls⟩
  | expression | «while» => exact fun _ => trivial
  | print span value => exact fun value => ⟨printValue_acts value, fun _ => trivial⟩
  | block span body => exact ⟨blockScope_acts, fun _ _ => trivial⟩
  | conditional span condition thenBranch elseBranch =>
    intro value
    dsimp only
    split
    · exact fun _ => trivial
    · cases elseBranch with
      | none => trivial
      | some branch => exact fun _ => trivial
  | «return» span value =>
    cases value with
    | none => trivial
    | some value => exact fun _ => trivial
  | «break» => trivial

/-- The plan of an instantiation takes only steps that are series of acts. -/
theorem Class.plan_acts {sites : Span → Prop} {points : Option Span → Prop} (nowhere : points none)
    (cls : Class) (arguments : List Value) : (cls.plan arguments).Acts sites points := by
  unfold Class.plan
  split
  · exact acts_last (.fault nowhere _)
  · refine ⟨.create _, fun object => ?_⟩
    cases cls.findMethod? FunctionDecl.initializerName with
    | none => trivial
    | some method => exact fun _ => trivial

/-- Whatever is run, its own steps are acts. It begins operations at its own site only, and fails
where its own failures point. -/
theorem Code.plan_acts {kind : ResultKind} (code : Code kind) :
    code.plan.Acts code.sites code.points := by
  cases code with
  | expr form => exact Expr.plan_acts rfl
  | exprs forms =>
    cases forms with
    | nil => trivial
    | cons first rest => exact fun _ _ => trivial
  | stmt form => exact form.plan_acts
  | stmts forms =>
    cases forms with
    | nil => trivial
    | cons first rest =>
      intro ending
      cases ending with
      | next => exact fun _ => trivial
      | returned | broke => trivial
  | loop condition body =>
    intro value
    dsimp only
    split
    · intro ending
      cases ending with
      | next => exact fun _ => trivial
      | returned | broke => trivial
    · trivial
  | call callee arguments span =>
    cases callee with
    | function | method | classObject => exact fun _ => trivial
    | builtin identity builtin receiver =>
      exact acts_last (builtin.call_acts (.inl rfl) receiver arguments (.inr rfl)
        fun enough => ⟨enough, rfl⟩)
    | _ => exact acts_last (.fault (.inl rfl) _)
  | instantiation cls arguments => exact @Class.plan_acts _ (· = none) rfl cls arguments
  | activation called arguments =>
    exact ⟨@checkCall_acts _ (· = none) rfl _ _, fun _ => ⟨bodyScope_acts _ _, fun _ _ => trivial⟩⟩

/-- Operations may be begun at more sites. -/
theorem Machine.Act.mono {sites wider : Span → Prop} {machine later : Machine}
    (act : machine.Act sites later) (le : ∀ span, sites span → wider span) :
    machine.Act wider later := by
  cases act with
  | heap heap => exact .heap heap
  | print text => exact .print text
  | prompt text => exact .prompt text
  | takeLine => exact .takeLine
  | tick => exact .tick
  | schedule wait callback => exact .schedule wait callback
  | launch label site callback job => exact .launch label (le _ site) callback job

/-- Acts that begin operations at some sites begin them at some of more sites. -/
theorem Machine.Acts.mono {sites wider : Span → Prop} {machine later : Machine}
    (acts : machine.Acts sites later) (le : ∀ span, sites span → wider span) :
    machine.Acts wider later := by
  induction acts with
  | refl => exact .refl
  | tail _ act ih => exact ih.tail (act.mono le)

/-- What holds where code starts, and how the machine where it ends stands to that, if acts and
inner code carry both on. Operations are begun at the sites only. -/
structure Machine.Passage (sites : Span → Prop) (starts : Machine → Prop)
    (ends : Machine → Machine → Prop) : Prop where
  refl : ∀ {machine : Machine}, starts machine → ends machine machine
  act : ∀ {start machine later : Machine}, ends start machine → machine.Act sites later →
    ends start later
  enter : ∀ {start machine : Machine} (setting : Setting), ends start machine →
    starts (setting.enter machine)
  leave : ∀ {start machine later : Machine} (setting : Setting), ends start machine →
    ends (setting.enter machine) later → ends start (setting.leave machine later)

/-- All code of the record begins operations only at the sites. -/
def BeginsAt (sites : Span → Prop) (record : List Occasion) : Prop :=
  ∀ occasion ∈ record, ∀ span, occasion.code.sites span → sites span

/-- Where operations may be begun anywhere, all code begins them there. -/
theorem beginsAt_anywhere (record : List Occasion) : BeginsAt (fun _ => True) record :=
  fun _ _ _ _ => trivial

namespace Machine.Passage

variable {sites : Span → Prop} {starts : Machine → Prop} {ends : Machine → Machine → Prop}
    {bound : Nat}
variable {kind : ResultKind} {code : Code kind} {start machine : Machine}

/-- The passage as all that is asked of code. -/
def contract (starts : Machine → Prop) (ends : Machine → Machine → Prop) : Contract where
  before _ machine := starts machine
  after _ machine outcome := outcome.Leaves (ends machine)
  exhausted _ _ := trivial

/-- A passage goes through every series of acts. -/
theorem acts (passage : Passage sites starts ends) {later : Machine}
    (acts : machine.Acts sites later)
    (onward : ends start machine) : ends start later := by
  induction acts with
  | refl => exact onward
  | tail _ act ih => exact passage.act ih act

/-- A plan whose steps are acts carries on what holds. -/
theorem meets (passage : Passage sites starts ends) {α : Type} {own : Span → Prop}
    {points : Option Span → Prop} {plan : Plan α} (planned : plan.Acts own points)
    (begins : ∀ span, own span → sites span) (onward : ends start machine) :
    plan.Meets (contract starts ends) (Outcome.Leaves (ends start)) machine := by
  induction plan generalizing machine with
  | give value => exact onward
  | perform run next ih =>
    obtain ⟨first, rest⟩ := planned
    have done := first machine
    unfold Plan.Meets
    cases ended : run machine with
    | exhausted => trivial
    | failed diagnostic later =>
      rw [ended] at done
      exact passage.acts (Acts.mono done.1 begins) onward
    | done value later =>
      rw [ended] at done
      exact ih value (rest value) (passage.acts (Acts.mono done begins) onward)
  | visit setting code next ih =>
    refine ⟨passage.enter setting onward, fun outcome after => ?_⟩
    cases outcome with
    | exhausted => trivial
    | failed diagnostic later => exact passage.leave setting onward after
    | done result later => exact ih result (planned result) (passage.leave setting onward after)

/-- A passage is a contract on code that begins operations at the sites only. -/
theorem validOn (passage : Passage sites starts ends) {record : List Occasion}
    (begins : BeginsAt sites record) : (contract starts ends).ValidOn record :=
  fun _ code _ member holds => passage.meets code.plan_acts (begins _ member) (passage.refl holds)

/-- Evaluation ends as the passage says. -/
theorem leaves (passage : Passage sites starts ends)
    (begins : BeginsAt sites (code.trace bound machine))
    (holds : starts machine) : (code.run bound machine).Leaves (ends machine) :=
  (passage.validOn begins).keeps (List.Subset.refl _) holds

/-- What holds where code starts holds on every machine that evaluation comes to. -/
theorem visited (passage : Passage sites starts ends)
    (begins : BeginsAt sites (code.trace bound machine)) (holds : starts machine)
    {kind' : ResultKind}
    {code' : Code kind'} {reached : Machine}
    (visits : Code.Visits bound code machine code' reached) :
    starts reached :=
  (passage.validOn begins).visited (List.Subset.refl _) holds visits

end Machine.Passage

/-- Acts keep the property, and it does not depend on where the code is. -/
structure Machine.Stable (property : Machine → Prop) : Prop where
  act : ∀ {machine later : Machine}, property machine → machine.Act (fun _ => True) later →
    property later
  moved : ∀ {machine : Machine} (scope : Nat) (frames : List Frame), property machine →
    property { machine with scope, frames }

namespace Machine.Stable

variable {property : Machine → Prop} {bound : Nat} {kind : ResultKind} {code : Code kind}
variable {machine : Machine}

/-- To hold in the end is how a stable property passes. -/
theorem passage (stable : Stable property) :
    Passage (fun _ => True) property fun _ later => property later where
  refl holds := holds
  act holds act := stable.act holds act
  enter := by
    intro _ machine setting holds
    cases setting with
    | here | «at» => exact holds
    | inScope scope => exact stable.moved scope machine.frames holds
    | inCall frame scope => exact stable.moved scope (frame :: machine.frames) holds
  leave := by
    intro _ machine later setting _ holds
    cases setting with
    | here | «at» => exact holds
    | inScope scope => exact stable.moved machine.scope later.frames holds
    | inCall frame scope => exact stable.moved machine.scope later.frames.tail holds

/-- A series of acts keeps a stable property. -/
theorem acts (stable : Stable property) {sites : Span → Prop} {later : Machine}
    (acts : machine.Acts sites later) (holds : property machine) : property later :=
  @Passage.acts _ _ _ machine machine stable.passage _ (Acts.mono acts fun _ _ => trivial) holds

/-- Evaluation keeps a stable property. -/
theorem leaves (stable : Stable property) (bound : Nat) {kind : ResultKind} (code : Code kind)
    (holds : property machine) : (code.run bound machine).Leaves property :=
  stable.passage.leaves (beginsAt_anywhere _) holds

/-- A stable property holds on every machine that evaluation comes to. -/
theorem visited (stable : Stable property) (holds : property machine) {kind' : ResultKind}
    {code' : Code kind'} {reached : Machine}
    (visits : Code.Visits bound code machine code' reached) :
    property reached :=
  stable.passage.visited (beginsAt_anywhere _) holds visits

end Machine.Stable

/-- The code is at the same place in both machines: in the same scope, with the same calls open, and
with the same global scope. -/
structure Machine.SamePlace (before after : Machine) : Prop where
  scope : after.scope = before.scope
  frames : after.frames = before.frames
  globals : after.globals = before.globals

namespace Machine.SamePlace

variable {start machine later : Machine}

/-- The same place twice is the same place. -/
theorem trans (first : start.SamePlace machine) (second : machine.SamePlace later) :
    start.SamePlace later :=
  ⟨second.scope.trans first.scope, second.frames.trans first.frames,
    second.globals.trans first.globals⟩

/-- No act changes where the code is. -/
theorem of_act {sites : Span → Prop} (act : machine.Act sites later) : machine.SamePlace later := by
  cases act with
  | print text =>
    unfold Machine.print
    split <;> exact ⟨rfl, rfl, rfl⟩
  | schedule wait callback =>
    unfold Machine.readTime
    split <;> exact ⟨rfl, rfl, rfl⟩
  | heap | prompt | takeLine | tick | launch => exact ⟨rfl, rfl, rfl⟩

/-- Inner code that comes back lets the outer code go on where it was. -/
theorem leave (setting : Setting) (same : start.SamePlace machine)
    (back : (setting.enter machine).SamePlace later) :
    start.SamePlace (setting.leave machine later) := by
  cases setting with
  | here | «at» => exact same.trans back
  | inScope scope =>
    exact ⟨same.scope, back.frames.trans same.frames, back.globals.trans same.globals⟩
  | inCall frame scope =>
    exact ⟨same.scope, (congrArg List.tail back.frames).trans same.frames,
      back.globals.trans same.globals⟩

/-- To come back is a passage from any machine. -/
theorem passage : Machine.Passage (fun _ => True) (fun _ => True) Machine.SamePlace where
  refl _ := ⟨rfl, rfl, rfl⟩
  act same act := same.trans (.of_act act)
  enter _ _ := trivial
  leave := SamePlace.leave

end Machine.SamePlace

/-- However evaluation ends, the machine is in the scope and has the calls open that it had. -/
theorem Code.restores (bound : Nat) {kind : ResultKind} (code : Code kind) (machine : Machine) :
    (code.run bound machine).Leaves machine.SamePlace :=
  Machine.SamePlace.passage.leaves (beginsAt_anywhere _) trivial

end EventScript
