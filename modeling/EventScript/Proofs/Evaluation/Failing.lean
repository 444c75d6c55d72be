import EventScript.Proofs.Evaluation.Spans

/-!
# Where failures point

A call fails where it stands, or nowhere, until it gets into the body of the function that is
called: with the wrong number of arguments, with too many calls open, and in a built-in function.
Every other failure points at an expression, or at the name of a superclass. So the failures of all
code but calls point at spans of code that was read, as call expressions say where they stand, and
those of a call do if the call gets that far (`Code.run_raised`).
-/

namespace EventScript

open Run Plan

variable {property : Span → Prop}

/-- The function can be called now with that many arguments. -/
def FunctionDecl.Admits (machine : Machine) (count : Nat) (decl : FunctionDecl) : Prop :=
  count = decl.parameters.length ∧ machine.frames.length < machine.settings.maxCallDepth

/-- The class can be called now with that many arguments, and so can its initializer, if it has
one. -/
def Class.Admits (machine : Machine) (count : Nat) (cls : Class) : Prop :=
  count = cls.arity ∧
    ∀ method ∈ cls.findMethod? FunctionDecl.initializerName, method.decl.Admits machine count

/-- A call with that many arguments gets as far as the body of a function of the program, if there
is one to run. Built-in functions are none of the program. -/
def Value.Enters (machine : Machine) (count : Nat) : Value → Prop
  | .function _ closure => closure.decl.Admits machine count
  | .method _ _ found => found.decl.Admits machine count
  | .classObject cls => cls.Admits machine count
  | _ => False

/-- A stage of a call gets as far as the body of a function. All other code is in one already. -/
def Code.Enters {kind : ResultKind} : Code kind → Machine → Prop
  | .call callee arguments _, machine => callee.Enters machine arguments.length
  | .instantiation cls arguments, machine => cls.Admits machine arguments.length
  | .activation called arguments, machine => called.decl.Admits machine arguments.length
  | _, _ => True

/-- The place is a span with the property. -/
def Pointed (property : Span → Prop) (place : Option Span) : Prop := ∃ span ∈ place, property span

/-- Where the failures of code point that is run on a machine: at a span with the property, but if
the code is a call that gets nowhere, where calls themselves fail. -/
def Code.Reports (property : Span → Prop) {kind : ResultKind} (code : Code kind) (machine : Machine)
    (place : Option Span) : Prop :=
  code.Enters machine ∧ Pointed property place ∨ ¬code.Enters machine ∧ code.points place

/-- A failure points where it may. -/
def Outcome.Fails {α : Type} (points : Option Span → Prop) : Outcome α → Prop
  | .failed diagnostic _ => diagnostic.Raised points
  | _ => True

/-- All code may be run, and its failures point where they may. -/
def failureContract (property : Span → Prop) : Contract where
  before _ _ := True
  after code machine outcome := outcome.Fails (code.Reports property machine)
  exhausted _ _ := trivial

/-- The plan of the code fails only where failures of the code may point. -/
abbrev Code.Complies (property : Span → Prop) {kind : ResultKind} (code : Code kind)
    (machine : Machine) : Prop :=
  code.plan.Meets (failureContract property) (Outcome.Fails (code.Reports property machine)) machine

/-- A diagnostic that points where it may points where more is allowed. -/
theorem Diagnostic.Raised.mono {points wider : Option Span → Prop} {diagnostic : Diagnostic}
    (raised : diagnostic.Raised points) (le : ∀ place, points place → wider place) :
    diagnostic.Raised wider :=
  { raised with points := le _ raised.points }

section Plans

variable {α : Type} {machine : Machine} {sites : Span → Prop} {points goal : Option Span → Prop}
variable {allowed : Setting → {kind : ResultKind} → Code kind → Prop} {kind : ResultKind}

/-- A plan fails where its own steps do and where the failures of inner code come out. -/
theorem Plan.Acts.meets {plan : Plan α} (planned : plan.Acts sites points)
    (comes : plan.Comes allowed)
    (own : ∀ place, points place → goal place)
    (inner : ∀ {setting : Setting} {kind : ResultKind} {code : Code kind} {machine : Machine}
      {diagnostic : Diagnostic}, allowed setting code →
        diagnostic.Raised (code.Reports property machine) →
          (setting.point diagnostic).Raised goal) :
    plan.Meets (failureContract property) (Outcome.Fails goal) machine := by
  induction plan generalizing machine with
  | give value => trivial
  | perform run next ih =>
    obtain ⟨first, rest⟩ := planned
    have acts := first machine
    unfold Plan.Meets
    cases ended : run machine with
    | exhausted => trivial
    | failed diagnostic later =>
      rw [ended] at acts
      exact acts.2.mono own
    | done value later => exact ih value (rest value) (comes value)
  | visit setting code next ih =>
    obtain ⟨first, rest⟩ := comes
    refine ⟨trivial, fun outcome after => ?_⟩
    cases outcome with
    | exhausted => trivial
    | failed diagnostic later => exact inner first after
    | done result later => exact ih result (planned result) (rest result)

/-- A plan of one step fails where the step does. -/
theorem Plan.meets_last {run : Run α} (acts : run.Acts (fun _ => True) points)
    (own : ∀ place, points place → goal place) :
    (last run).Meets (failureContract property) (Outcome.Fails goal) machine := by
  have acts := acts machine
  unfold last Plan.Meets
  cases ended : run machine with
  | exhausted | done => trivial
  | failed diagnostic later =>
    rw [ended] at acts
    exact acts.2.mono own

/-- A plan that becomes other code fails where that does. -/
theorem Plan.meets_become {code : Code kind}
    (le : ∀ place, code.Reports property machine place → goal place) :
    (become code).Meets (failureContract property) (Outcome.Fails goal) machine := by
  refine ⟨trivial, fun outcome after => ?_⟩
  cases outcome with
  | exhausted | done => trivial
  | failed diagnostic later => exact Diagnostic.Raised.mono after le

end Plans

section Calls

variable {machine : Machine} {count : Nat} {decl : FunctionDecl}

/-- A call that is admitted passes the check. -/
theorem checkCall_of_admits (admits : decl.Admits machine count) :
    checkCall decl count machine = .done () machine := by
  obtain ⟨rfl, depth⟩ := admits
  unfold checkCall
  rw [if_neg fun different => different rfl, if_neg (Nat.not_le_of_lt depth)]

/-- A call that is not admitted fails the check with a fault that points nowhere. -/
theorem checkCall_of_not_admits (refuses : ¬decl.Admits machine count) :
    ∃ fault : Fault, checkCall decl count machine = .failed fault.diagnostic machine := by
  unfold checkCall
  by_cases same : count = decl.parameters.length
  · rw [if_neg fun different => different same,
      if_pos (Nat.not_lt.mp fun depth => refuses ⟨same, depth⟩)]
    exact ⟨_, rfl⟩
  · rw [if_pos same]
    exact ⟨_, rfl⟩

/-- An activation fails nowhere before its body, and where the body does. -/
theorem Activation.complies (called : Activation) (arguments : List Value) :
    (Code.activation called arguments).Complies property machine := by
  show Plan.Meets _ _ (perform (checkCall called.decl arguments.length) _) machine
  unfold Plan.Meets
  by_cases admits : called.decl.Admits machine arguments.length
  · rw [checkCall_of_admits admits]
    refine ⟨trivial, fun outcome after => ?_⟩
    cases outcome with
    | exhausted | done => trivial
    | failed diagnostic later =>
      apply Diagnostic.Raised.mono after
      rintro place (⟨-, pointed⟩ | ⟨outside, -⟩)
      · exact .inl ⟨admits, pointed⟩
      · exact absurd trivial outside
  · obtain ⟨fault, failed⟩ := checkCall_of_not_admits admits
    rw [failed]
    exact ⟨⟨fault.kind, rfl⟩, rfl, .inr ⟨admits, rfl⟩⟩

/-- Making an instance fails nowhere before the initializer, and where that does. -/
theorem Class.complies (cls : Class) (arguments : List Value) :
    (Code.instantiation cls arguments).Complies property machine := by
  show (cls.plan arguments).Meets _ _ machine
  unfold Class.plan
  split
  · rename_i different
    have acts : (Run.fault (.arity cls.arity arguments.length) : Run Value).Acts (fun _ => True)
        fun place => place = none := @Run.Acts.fault _ _ (· = none) rfl _
    exact meets_last acts fun place nowhere => .inr ⟨fun admits => different admits.1, nowhere⟩
  · rename_i same
    have arity := Decidable.not_not.mp same
    unfold Plan.Meets create
    dsimp only
    cases found : cls.findMethod? FunctionDecl.initializerName with
    | none => trivial
    | some method =>
      have admits : cls.Admits machine arguments.length ↔
          method.decl.Admits machine arguments.length := by
        constructor
        · exact fun admits => admits.2 method found
        · exact fun admits => ⟨arity, fun other member =>
            Option.some.inj (found.symm.trans member) ▸ admits⟩
      refine ⟨trivial, fun outcome after => ?_⟩
      cases outcome with
      | exhausted | done => trivial
      | failed diagnostic later =>
        refine Diagnostic.Raised.mono after fun place reports => ?_
        rcases reports with ⟨enters, pointed⟩ | ⟨refuses, nowhere⟩
        · exact .inl ⟨admits.mpr enters, pointed⟩
        · exact .inr ⟨fun enters => refuses (admits.mp enters), nowhere⟩

/-- A call fails where it stands, or nowhere, unless it gets into the body of a function. -/
theorem Value.complies (callee : Value) (arguments : List Value) (span : Span) :
    (Code.call callee arguments span).Complies property machine := by
  have itself : ∀ {inner : Code .value},
      (inner.Enters machine ↔ callee.Enters machine arguments.length) → inner.points = (· = none) →
      (become inner).Meets (failureContract property)
        (Outcome.Fails ((Code.call callee arguments span).Reports property machine)) machine := by
    intro inner same nowhere
    refine meets_become fun place reports => ?_
    rcases reports with ⟨enters, pointed⟩ | ⟨refuses, unpointed⟩
    · exact .inl ⟨same.mp enters, pointed⟩
    · rw [nowhere] at unpointed
      exact .inr ⟨fun enters => refuses (same.mpr enters), .inl unpointed⟩
  cases callee with
  | function | method | classObject => exact itself Iff.rfl rfl
  | builtin identity builtin receiver =>
    have acts : (builtin.call receiver arguments span).Acts (fun _ => True)
        fun place => place = none ∨ place = some span :=
      builtin.call_acts (.inl rfl) receiver arguments (.inr rfl) fun _ => trivial
    exact meets_last acts fun place points => .inr ⟨id, points⟩
  | _ =>
    have acts : ∀ fault : Fault, (Run.fault fault : Run Value).Acts (fun _ => True) fun place =>
        place = none ∨ place = some span := fun fault => .fault (.inl rfl) fault
    exact meets_last (acts _) fun place points => .inr ⟨id, points⟩

end Calls

/-- A diagnostic that is offered a span points where it did, or at that. -/
theorem Diagnostic.Raised.orSpan {points wider : Option Span → Prop} {diagnostic : Diagnostic}
    {span : Span} (raised : diagnostic.Raised points)
    (le : ∀ place, points place → wider (some (place.getD span))) :
    (diagnostic.orSpan span).Raised wider := by
  have there := le _ raised.points
  rw [← orSpan_span] at there
  refine ⟨?_, ?_, there⟩
  · unfold Diagnostic.orSpan
    split <;> exact raised.running
  · unfold Diagnostic.orSpan
    split <;> exact raised.notes

section Code

variable {kind kind' : ResultKind} {code : Code kind} {inner : Code kind'} {machine : Machine}
variable {diagnostic : Diagnostic} {setting : Setting} {span : Span}

/-- The span of a call is one of the code's own. -/
theorem Code.OwnSpans.callSpan (own : code.OwnSpans property) (calls : code.callSpan? = some span) :
    property span := by
  cases code with
  | expr form =>
    cases form with
    | call => exact Option.some.inj calls ▸ own
    | _ => cases calls
  | _ => cases calls

/-- Where code that is no stage of a call fails because inner code does, it points at a span with
the property. -/
theorem Code.MayRun.pointed (runs : code.MayRun setting inner) (plain : code.isCalling = false)
    (own : code.OwnSpans property) (raised : diagnostic.Raised (inner.Reports property machine)) :
    (setting.point diagnostic).Raised (Pointed property) := by
  cases inner with
  | call callee arguments span =>
    obtain ⟨calls, rfl⟩ := runs
    have here := own.callSpan calls
    refine raised.orSpan fun place reports => ?_
    rcases reports with ⟨-, found, rfl, holds⟩ | ⟨-, rfl | rfl⟩
    · exact ⟨found, rfl, holds⟩
    · exact ⟨span, rfl, here⟩
    · exact ⟨span, rfl, here⟩
  | instantiation | activation => exact absurd (plain.symm.trans runs.1) Bool.false_ne_true
  | _ =>
    rw [show setting.point = id from runs]
    exact raised.mono fun place reports => reports.elim And.right fun outside =>
      absurd trivial outside.1

/-- Where code that is no stage of a call fails itself, it points at a span that it goes by. -/
theorem Code.OwnSpans.pointed (own : code.OwnSpans property) (plain : code.isCalling = false)
    {place : Option Span} (points : code.points place) : Pointed property place := by
  cases code with
  | expr form => exact ⟨form.span, points, own⟩
  | stmt form =>
    cases form with
    | classDecl =>
      obtain ⟨named, member, rfl⟩ := points
      exact ⟨named.span, rfl, own named member⟩
    | _ => cases points
  | call | instantiation | activation => cases plain
  | _ => cases points

/-- Code that is no stage of a call points at spans with the property when it fails. -/
theorem Code.OwnSpans.complies (own : code.OwnSpans property) (plain : code.isCalling = false) :
    code.Complies property machine := by
  have enters : code.Enters machine := by
    cases code with
    | call | instantiation | activation => cases plain
    | _ => trivial
  refine code.plan_acts.meets code.plan_comes ?_ ?_
  · intro place points
    exact .inl ⟨enters, own.pointed plain points⟩
  · intro _ setting _ _ _ runs raised
    have pointed := runs.pointed plain own raised
    exact pointed.mono fun _ pointed => .inl ⟨enters, pointed⟩

/-- If the spans that all recorded code goes by have the property, it fails where it may. -/
theorem failureContract_validOn {record : List Occasion}
    (own : ∀ occasion ∈ record, occasion.code.OwnSpans property) :
    (failureContract property).ValidOn record := by
  intro kind code machine member _
  have spans : code.OwnSpans property := own _ member
  cases code with
  | call callee arguments span => exact callee.complies arguments span
  | instantiation cls arguments => exact cls.complies arguments
  | activation called arguments => exact called.complies arguments
  | _ => exact spans.complies rfl

/-- Code fails where it may, if the spans that all code goes by which it comes to have the
property. -/
theorem Code.run_raised {bound : Nat} {later : Machine}
    (own : ∀ occasion ∈ code.trace bound machine, occasion.code.OwnSpans property)
    (failed : code.run bound machine = .failed diagnostic later) :
    diagnostic.Raised (code.Reports property machine) := by
  have fails := (failureContract_validOn own).keeps (List.Subset.refl _) (trivial : True)
  rw [failed] at fails
  exact fails

end Code

end EventScript
