import EventScript.Proofs.Evaluation.Failing
import EventScript.Proofs.Evaluation.Nesting

/-!
# How deep calls get

An evaluation goes through one machine after the other (`Code.Through`): those where it starts and
where inner code starts, those that its steps lead to, and those where it goes on after inner code
or passes on a failure. On none of them are more calls open than may be, and those open at the start
always are (`Code.Through.above`), since a call is opened only after `checkCall` has let it pass.
All others that are open were opened by activations on the way (`Code.Visits.opened`). However the
evaluation ends, its scope and the open calls are in the end what they were (`Code.depth_bounded`).
-/

namespace EventScript

open Run Plan

namespace Plan

variable {α : Type}

/-- The machines that carrying out a plan goes through, where `inner` says which those are for inner
code. -/
inductive Through (runner : Runner)
    (inner : (kind : ResultKind) → Code kind → Machine → Machine → Prop) :
    Plan α → Machine → Machine → Prop where
  | start {plan : Plan α} {machine : Machine} : Through runner inner plan machine machine
  | fails {β : Type} {run : Run β} {next : β → Plan α} {machine later : Machine}
      {diagnostic : Diagnostic} (failed : run machine = .failed diagnostic later) :
      Through runner inner (.perform run next) machine later
  | goesOn {β : Type} {run : Run β} {next : β → Plan α} {machine later reached : Machine}
      {value : β}
      (done : run machine = .done value later)
      (onward : Through runner inner (next value) later reached) :
      Through runner inner (.perform run next) machine reached
  | inside {kind : ResultKind} {setting : Setting} {code : Code kind} {next : kind.Result → Plan α}
      {machine reached : Machine} (through : inner kind code (setting.enter machine) reached) :
      Through runner inner (.visit setting code next) machine reached
  | passesOn {kind : ResultKind} {setting : Setting} {code : Code kind}
      {next : kind.Result → Plan α}
      {machine later : Machine} {diagnostic : Diagnostic}
      (failed : runner kind code (setting.enter machine) = .failed diagnostic later) :
      Through runner inner (.visit setting code next) machine (setting.leave machine later)
  | comesBack {kind : ResultKind} {setting : Setting} {code : Code kind}
      {next : kind.Result → Plan α}
      {machine later reached : Machine} {result : kind.Result}
      (done : runner kind code (setting.enter machine) = .done result later)
      (onward : Through runner inner (next result) (setting.leave machine later) reached) :
      Through runner inner (.visit setting code next) machine reached

end Plan

/-- The machines that an evaluation within a bound goes through. -/
def Code.Through : Nat → {kind : ResultKind} → Code kind → Machine → Machine → Prop
  | 0, _, _, machine, reached => reached = machine
  | bound + 1, _, code, machine, reached =>
    code.plan.Through (.within bound) (fun _ code => Code.Through bound code) machine reached

namespace Plan

variable {α : Type} {runner : Runner} {machine : Machine}
variable {inner : (kind : ResultKind) → Code kind → Machine → Machine → Prop}

/-- The last machine is one that the plan goes through. -/
theorem leaves_through (plan : Plan α) (machine : Machine) :
    (plan.carryOut runner machine).Leaves (plan.Through runner inner machine) := by
  induction plan generalizing machine with
  | give value => exact .start
  | perform run next ih =>
    cases ended : run machine with
    | exhausted =>
      rw [carryOut, bind_exhausted ended]
      trivial
    | failed diagnostic later =>
      rw [carryOut, bind_failed ended]
      exact .fails ended
    | done value later =>
      rw [carryOut_perform ended]
      exact (ih value later).imp fun _ onward => .goesOn ended onward
  | @visit kind setting code next ih =>
    cases ended : runner kind code (setting.enter machine) with
    | exhausted =>
      rw [carryOut, bind_exhausted (by rw [Setting.around, ended, Setting.outward])]
      trivial
    | failed diagnostic later =>
      rw [carryOut, bind_failed (by rw [Setting.around, ended, Setting.outward])]
      exact .passesOn ended
    | done result later =>
      rw [carryOut_visit ended]
      exact (ih result _).imp fun _ onward => .comesBack ended onward

/-- A plan goes through the machines that inner code it visits goes through. -/
theorem Visits.through {plan : Plan α} {kind : ResultKind} {code : Code kind}
    {start reached : Machine}
    (visits : plan.Visits runner machine code start) (within : inner kind code start reached) :
    plan.Through runner inner machine reached := by
  induction visits with
  | perform done _ ih => exact .goesOn done (ih within)
  | here => exact .inside within
  | onward done _ ih => exact .comesBack done (ih within)

end Plan

namespace Code

variable {kind kind' : ResultKind} {code : Code kind} {code' : Code kind'}
    {machine reached : Machine}
variable {bound : Nat}

/-- An evaluation goes through the machine that it starts on. -/
theorem Through.start : code.Through bound machine machine := by
  cases bound with
  | zero => rfl
  | succ bound => exact Plan.Through.start

/-- The last machine is one that the evaluation goes through. -/
theorem leaves_through (bound : Nat) (code : Code kind) (machine : Machine) :
    (code.run bound machine).Leaves (code.Through bound machine) := by
  cases bound with
  | zero =>
    rw [code.run_zero]
    trivial
  | succ bound =>
    rw [code.run_succ]
    exact code.plan.leaves_through machine

/-- The machines on which the evaluation comes to code are among those it goes through. -/
theorem Visits.through (visits : Code.Visits bound code machine code' reached) :
    code.Through bound machine reached := by
  induction visits with
  | here => exact .start
  | inner visits _ ih => exact Plan.Visits.through visits ih

end Code

/-- Whether inner code runs in a call of its own. -/
def Setting.opensCall : Setting → Bool
  | inCall _ _ => true
  | _ => false

/-- What a plan comes to is among more that it may come to. -/
theorem Plan.Comes.mono {α : Type}
    {allowed wider : Setting → {kind : ResultKind} → Code kind → Prop}
    {plan : Plan α} (comes : plan.Comes allowed)
    (le : ∀ (setting : Setting) {kind : ResultKind} (code : Code kind), allowed setting code →
      wider setting code) : plan.Comes wider := by
  induction plan with
  | give value => trivial
  | perform run next ih => exact fun value => ih value (comes value)
  | visit setting code next ih => exact ⟨le _ _ comes.1, fun result => ih result (comes.2 result)⟩

/-- A statement runs nothing in a call of its own. -/
theorem Stmt.plan_comes_uncalled (form : Stmt) :
    form.plan.Comes fun setting {_} _ => setting.opensCall = false := by
  cases form with
  | letDecl span name initializer =>
    cases initializer with
    | none => exact fun _ => trivial
    | some value => exact ⟨rfl, fun _ _ => trivial⟩
  | function => exact fun _ _ => trivial
  | classDecl => exact fun _ _ _ => trivial
  | expression | «while» => exact ⟨rfl, fun _ => trivial⟩
  | print => exact ⟨rfl, fun _ _ => trivial⟩
  | block => exact fun _ => ⟨rfl, fun _ => trivial⟩
  | conditional span condition thenBranch elseBranch =>
    refine ⟨rfl, fun value => ?_⟩
    dsimp only
    split
    · exact ⟨rfl, fun _ => trivial⟩
    · cases elseBranch with
      | none => trivial
      | some branch => exact ⟨rfl, fun _ => trivial⟩
  | «return» span value =>
    cases value with
    | none => trivial
    | some value => exact ⟨rfl, fun _ => trivial⟩
  | «break» => trivial

/-- Only activations run code in a call of its own. -/
theorem Code.plan_comes_uncalled {kind : ResultKind} {code : Code kind}
    (inactive : code.isActivation = false) :
    code.plan.Comes fun setting {_} _ => setting.opensCall = false := by
  have unflowing : ∀ {kind : ResultKind} (code : Code kind), kind ≠ .flow →
    code.isActivation = false →
      code.plan.Comes fun setting {_} _ => setting.opensCall = false :=
        fun code unflowing inactive =>
    (plan_comes_unflowing unflowing inactive).mono fun setting _ _ stays => by
      cases setting with
      | here | «at» => rfl
      | inScope | inCall => exact absurd stays.2 nofun
  cases code with
  | expr | exprs | call | instantiation => exact unflowing _ nofun rfl
  | activation => contradiction
  | stmt form => exact form.plan_comes_uncalled
  | stmts forms =>
    cases forms with
    | nil => trivial
    | cons first rest =>
      refine ⟨rfl, fun flow => ?_⟩
      cases flow with
      | next => exact ⟨rfl, fun _ => trivial⟩
      | returned | broke => trivial
  | loop condition body =>
    refine ⟨rfl, fun value => ?_⟩
    dsimp only
    split
    · refine ⟨rfl, fun flow => ?_⟩
      cases flow with
      | next => exact ⟨rfl, fun _ => trivial⟩
      | returned | broke => trivial
    · trivial

namespace Machine

/-- The same calls are open in both machines, and as many may be. -/
structure SameCalls (before after : Machine) : Prop where
  frames : after.frames = before.frames
  settings : after.settings = before.settings

/-- The calls open at the start are still open, and not more than may be. -/
structure Above (start reached : Machine) : Prop where
  suffix : start.frames <:+ reached.frames
  depth : reached.frames.length ≤ start.settings.maxCallDepth
  settings : reached.settings = start.settings

variable {start machine reached later : Machine}

namespace SameCalls

/-- A machine that nothing happens to has the same calls open. -/
theorem refl : machine.SameCalls machine := ⟨rfl, rfl⟩

/-- Calls that are the same twice are the same. -/
theorem trans (first : start.SameCalls machine) (second : machine.SameCalls later) :
    start.SameCalls later :=
  ⟨second.frames.trans first.frames, second.settings.trans first.settings⟩

/-- No act opens or closes calls. -/
theorem of_act {sites : Span → Prop} (act : machine.Act sites later) : machine.SameCalls later := by
  refine ⟨(SamePlace.of_act act).frames, ?_⟩
  cases act with
  | print text =>
    unfold Machine.print
    split <;> rfl
  | schedule wait callback =>
    unfold Machine.readTime
    split <;> rfl
  | heap | prompt | takeLine | tick | launch => rfl

/-- No series of acts opens or closes calls. -/
theorem of_acts {sites : Span → Prop} (acts : machine.Acts sites later) :
    machine.SameCalls later := by
  induction acts with
  | refl => exact refl
  | tail _ act ih => exact ih.trans (of_act act)

/-- Code that closes the calls it opens lets the code around it go on with those it had. -/
theorem leave {setting : Setting} (same : (setting.enter machine).SameCalls later) :
    machine.SameCalls (setting.leave machine later) := by
  cases setting with
  | here | «at» | inScope => exact ⟨same.frames, same.settings⟩
  | inCall => exact ⟨congrArg List.tail same.frames, same.settings⟩

/-- As many calls may be open as before. -/
theorem within (same : start.SameCalls machine)
    (depth : start.frames.length ≤ start.settings.maxCallDepth) :
    machine.frames.length ≤ machine.settings.maxCallDepth := by
  rw [same.frames, same.settings]
  exact depth

end SameCalls

/-- With the same calls open, those at the start are, and not more than may be. -/
theorem Above.of_same (same : start.SameCalls machine)
    (depth : start.frames.length ≤ start.settings.maxCallDepth) : start.Above machine where
  suffix := same.frames ▸ List.suffix_refl _
  depth := same.frames ▸ depth
  settings := same.settings

/-- Calls that are open above others that are open above the first are above these. -/
theorem Above.trans (above : start.Above machine) (onward : machine.Above reached) :
    start.Above reached where
  suffix := above.suffix.trans onward.suffix
  depth := above.settings ▸ onward.depth
  settings := onward.settings.trans above.settings

/-- Inner code has at most one call more open. -/
theorem Above.enter {setting : Setting}
    (depth : machine.frames.length ≤ machine.settings.maxCallDepth)
    (room : setting.opensCall = true → machine.frames.length < machine.settings.maxCallDepth) :
    machine.Above (setting.enter machine) := by
  cases setting with
  | here | «at» | inScope => exact .of_same ⟨rfl, rfl⟩ depth
  | inCall frame scope => exact ⟨List.suffix_cons _ _, room rfl, rfl⟩

end Machine

/-- No evaluation changes how many calls may be open, and it closes those it opens. -/
theorem Code.sameCalls (bound : Nat) {kind : ResultKind} (code : Code kind) (machine : Machine) :
    (code.run bound machine).Leaves machine.SameCalls := by
  have stable : Machine.Stable fun later => later.settings = machine.settings :=
    { act := fun same act => (Machine.SameCalls.of_act act).settings.trans same
      moved := fun _ _ same => same }
  have settings := stable.leaves bound code rfl
  have place := code.restores bound machine
  cases ended : code.run bound machine with
  | exhausted => trivial
  | failed diagnostic later | done value later =>
    rw [ended] at settings place
    exact ⟨place.frames, settings⟩

/-! ## Which calls are open -/

/-- The call that the code opens for what it runs. -/
def Code.opened? {kind : ResultKind} : Code kind → Option Frame
  | .activation called _ => some ⟨called.home⟩
  | _ => none

/-- The calls that a plan lets inner code have open, besides those that were open. -/
def Plan.Opens {α : Type} (frame? : Option Frame) (plan : Plan α) : Prop :=
  plan.Comes fun setting {_} _ => ∀ machine : Machine, ∀ frame ∈ (setting.enter machine).frames,
    frame ∈ machine.frames ∨ frame ∈ frame?

/-- Only activations open a call, and it is their own. -/
theorem Code.plan_opens {kind : ResultKind} (code : Code kind) : code.plan.Opens code.opened? := by
  cases active : code.isActivation with
  | true =>
    cases code with
    | activation called arguments =>
      refine fun _ _ => ⟨fun machine frame entered => ?_, fun _ => trivial⟩
      rcases List.mem_cons.mp entered with rfl | before
      · exact .inr rfl
      · exact .inl before
    | _ => contradiction
  | false =>
    refine (plan_comes_uncalled active).mono fun setting _ _ uncalled machine frame entered => ?_
    cases setting with
    | here | «at» | inScope => exact .inl entered
    | inCall => contradiction

/-- Inner code has only those calls open that the plan found open and the one that it opens. -/
theorem Plan.Opens.visits {α : Type} {plan : Plan α} {frame? : Option Frame} {sites : Span → Prop}
    {points : Option Span → Prop} {bound : Nat} {kind : ResultKind} {code : Code kind}
    {machine reached : Machine} (opens : plan.Opens frame?) (planned : plan.Acts sites points)
    (visits : plan.Visits (.within bound) machine code reached) :
    ∀ frame ∈ reached.frames, frame ∈ machine.frames ∨ frame ∈ frame? := by
  induction visits with
  | @perform _ run _ machine later _ _ _ _ done _ ih =>
    have acts := planned.1 machine
    rw [done] at acts
    rw [← (Machine.SameCalls.of_acts acts).frames]
    exact ih (opens _) (planned.2 _)
  | here => exact opens.1 _
  | @onward kind setting code _ machine later _ result _ _ done _ ih =>
    have back := code.sameCalls bound (setting.enter machine)
    rw [show code.run bound (setting.enter machine) = _ from done] at back
    rw [← back.leave.frames]
    exact ih (opens.2 result) (planned result)

/-- A call that is open was open at the start, or code that the evaluation came to has opened it. -/
theorem Code.Visits.opened {bound : Nat} {kind kind' : ResultKind} {code : Code kind}
    {code' : Code kind'} {machine reached : Machine}
    (visits : Code.Visits bound code machine code' reached) :
    ∀ frame ∈ reached.frames, frame ∈ machine.frames ∨
      ∃ occasion ∈ code.trace bound machine, frame ∈ occasion.code.opened? := by
  induction visits with
  | here => exact fun _ => .inl
  | @inner _ _ _ _ code inner _ machine _ _ visits _ ih =>
    intro frame there
    rcases ih frame there with early | ⟨occasion, member, opens⟩
    · have opens := code.plan_opens.visits code.plan_acts visits frame early
      exact opens.imp_right fun opens => ⟨⟨code, machine⟩, mem_trace.mpr .here, opens⟩
    · have deeper := mem_trace.mpr (.inner visits (mem_trace.mp member))
      exact .inr ⟨occasion, deeper, opens⟩

section Through

variable {bound : Nat} {inner : (kind : ResultKind) → Code kind → Machine → Machine → Prop}
variable {start machine reached : Machine}

/-- Inner code goes only through machines on which not more calls are open than may be. -/
def KeepsDepth (inner : (kind : ResultKind) → Code kind → Machine → Machine → Prop) : Prop :=
  ∀ {kind : ResultKind} (code : Code kind) (machine reached : Machine),
    machine.frames.length ≤ machine.settings.maxCallDepth → inner kind code machine reached →
      machine.Above reached

/-- A plan that opens calls only where there is room for one more keeps the depth if inner code
does. -/
theorem Plan.Through.above {α : Type} {plan : Plan α} {sites : Span → Prop}
    {points : Option Span → Prop} (keeps : KeepsDepth inner)
    (depth : start.frames.length ≤ start.settings.maxCallDepth) (planned : plan.Acts sites points)
    (comes : plan.Comes fun setting {_} _ =>
      setting.opensCall = true → start.frames.length < start.settings.maxCallDepth)
    (through : plan.Through (.within bound) inner machine reached)
    (same : start.SameCalls machine) :
    start.Above reached := by
  -- Between its steps the plan has the calls open that it started with: steps are acts, and inner
  -- code closes what it opens. So only the inner code has to be looked into.
  induction through with
  | start => exact .of_same same depth
  | @fails _ run _ machine later _ failed =>
    have acts := planned.1 machine
    rw [failed] at acts
    exact .of_same (same.trans (.of_acts acts.1)) depth
  | @goesOn _ run _ machine later _ value done _ ih =>
    have acts := planned.1 machine
    rw [done] at acts
    exact ih (planned.2 value) (comes value) (same.trans (.of_acts acts))
  | @inside _ setting code _ machine _ within =>
    have entered : machine.Above (setting.enter machine) :=
      .enter (same.within depth) fun opens => by
      rw [same.frames, same.settings]
      exact comes.1 opens
    have within := keeps code _ _ (entered.settings ▸ entered.depth) within
    exact (Machine.Above.of_same same depth).trans (entered.trans within)
  | @passesOn _ setting code _ machine later _ failed =>
    have back := code.sameCalls bound (setting.enter machine)
    rw [show code.run bound (setting.enter machine) = _ from failed] at back
    exact .of_same (same.trans (.leave back)) depth
  | @comesBack _ setting code _ machine later _ result done _ ih =>
    have back := code.sameCalls bound (setting.enter machine)
    rw [show code.run bound (setting.enter machine) = _ from done] at back
    exact ih (planned result) (comes.2 result) (same.trans (.leave back))

/-- An activation opens a call only after it has made sure that there is room for it. -/
theorem Activation.above {called : Activation} {arguments : List Value} (keeps : KeepsDepth inner)
    (depth : machine.frames.length ≤ machine.settings.maxCallDepth)
    (through : (called.plan arguments).Through (.within bound) inner machine reached) :
    machine.Above reached := by
  have planned : (called.plan arguments).Acts _ _ := (Code.activation called arguments).plan_acts
  by_cases admits : called.decl.Admits machine arguments.length
  · exact through.above keeps depth planned (fun _ _ => ⟨fun _ => admits.2, fun _ => trivial⟩) .refl
  · obtain ⟨fault, refused⟩ := checkCall_of_not_admits admits
    cases through with
    | start => exact .of_same .refl depth
    | fails failed =>
      obtain ⟨-, rfl⟩ := Outcome.failed.inj (refused.symm.trans failed)
      exact .of_same .refl depth
    | goesOn done => exact absurd (refused.symm.trans done) nofun

end Through

/-- An evaluation goes only through machines on which those calls are open that were open at its
start and not more than may be. -/
theorem Code.Through.above {bound : Nat} {kind : ResultKind} {code : Code kind}
    {machine reached : Machine} (depth : machine.frames.length ≤ machine.settings.maxCallDepth)
    (through : code.Through bound machine reached) : machine.Above reached := by
  induction bound generalizing kind machine reached with
  | zero =>
    obtain rfl := through
    exact .of_same .refl depth
  | succ bound ih =>
    have keeps : KeepsDepth fun _ code => Code.Through bound code := fun _ _ _ => ih
    cases active : code.isActivation with
    | true =>
      cases code with
      | activation called arguments => exact Activation.above keeps depth through
      | _ => contradiction
    | false =>
      refine Plan.Through.above keeps depth code.plan_acts ?_ through .refl
      exact (plan_comes_uncalled active).mono fun _ _ _ uncalled opens =>
        absurd (uncalled.symm.trans opens) Bool.false_ne_true

/-- However an evaluation ends, it is in the scope and has the calls open that it started with, and
if not too many calls were open at the start, not too many are open on its way. -/
theorem Code.depth_bounded (bound : Nat) {kind : ResultKind} (code : Code kind)
    (machine : Machine) :
    (code.run bound machine).Leaves (fun later =>
      later.scope = machine.scope ∧ later.frames = machine.frames) ∧
    (machine.frames.length ≤ machine.settings.maxCallDepth →
      ∀ reached, code.Through bound machine reached → machine.frames <:+ reached.frames ∧
        reached.frames.length ≤ machine.settings.maxCallDepth) := by
  constructor
  · have restores := code.restores bound machine
    exact restores.imp fun _ same => ⟨same.scope, same.frames⟩
  · intro depth reached through
    have above := through.above depth
    exact ⟨above.suffix, above.depth⟩

/-- An outcome that is seen to be a failure with a diagnostic of some sort is one. -/
theorem Outcome.exists_failed {α : Type} {outcome : Outcome α} {sort : Diagnostic → Bool}
    (seen : (match outcome with
      | .failed diagnostic _ => sort diagnostic
      | _ => false) = true) :
    ∃ diagnostic later, outcome = .failed diagnostic later ∧ sort diagnostic = true := by
  cases outcome with
  | failed diagnostic later => exact ⟨diagnostic, later, rfl, seen⟩
  | done | exhausted => contradiction

/-- Where two calls may be open, a function that calls itself without end gets two calls deep and no
deeper, fails, and leaves no call open. -/
theorem Code.depth_bounded_recursion :
    ∃ (code : Code .flow) (machine : Machine), machine.settings.maxCallDepth = 2 ∧
      (∃ diagnostic later, code.run 32 machine = .failed diagnostic later ∧
        diagnostic.kind = .runtime .stackOverflow ∧ later.frames = []) ∧
      (∃ reached, code.Through 32 machine reached ∧ reached.frames.length = 2) ∧
      ∀ reached, code.Through 32 machine reached → reached.frames.length ≤ 2 := by
  let call : Stmt := .expression default (.call default (.variable default "f") [])
  let code : Code .flow := .stmts [.function default ⟨"f", [], [call], default⟩, call]
  let machine : Machine := .new { maxCallDepth := 2 } (.captured "") {} {}
  have listed : (code.trace 32 machine).any (fun occasion => occasion.machine.frames.length == 2) =
      true := by decide +kernel
  obtain ⟨occasion, member, deep⟩ := List.any_eq_true.mp listed
  obtain ⟨diagnostic, later, ended, overflow⟩ :=
    @Outcome.exists_failed _ (code.run 32 machine) (·.kind == .runtime .stackOverflow)
      (by decide +kernel)
  have disciplined := Code.depth_bounded 32 code machine
  rw [ended] at disciplined
  obtain ⟨⟨-, closed⟩, bounded⟩ := disciplined
  have through := (Code.mem_trace.mp member).through
  refine ⟨code, machine, rfl, ⟨diagnostic, later, ended, eq_of_beq overflow, closed⟩,
    ⟨occasion.machine, through, eq_of_beq deep⟩, ?_⟩
  intro reached through
  obtain ⟨-, depth⟩ := bounded (Nat.zero_le 2) reached through
  exact depth

end EventScript
