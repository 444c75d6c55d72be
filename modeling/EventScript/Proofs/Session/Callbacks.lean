import EventScript.Proofs.Evaluation.Failing
import EventScript.Proofs.Evaluation.Fitted
import EventScript.Proofs.Session.Chronicle

/-!
# Callbacks can be called

A built-in function refuses a callback that cannot be called before it queues anything. So whatever
programs a session runs, the tasks in the event loop call values that can be called, and the
operations have callbacks that can be called, or none. The values that there are have fitting
built-in functions only, so none of them ever lacks its object or an argument
(`Session.callbacks_can_be_called`).
-/

namespace EventScript

open Run

/-- The action calls a value that can be called, or reports an error. -/
def Action.CallsCallable : Action Value → Prop
  | .call callee _ | .deliver callee _ => callee.isCallable = true
  | .fail _ => True

/-- The callback of the operation can be called, if it has one. -/
def PendingOperation.HasCallable (operation : PendingOperation Value) : Prop :=
  ∀ callback ∈ operation.callback, callback.isCallable = true

/-- All that the event loop will ever call can be called. -/
abbrev EventLoop.CallsCallables (events : EventLoop Value) : Prop :=
  events.Holds Action.CallsCallable PendingOperation.HasCallable

/-- An operation whose callback can be called gives rise to tasks that call it. -/
theorem EventLoop.continues_callable :
    Continues Action.CallsCallable PendingOperation.HasCallable := by
  intro operation outcome action has consequence
  unfold EventLoop.consequence at consequence
  split at consequence
  · obtain ⟨callback, callsBack, rfl⟩ := Option.map_eq_some_iff.mp consequence
    exact has callback callsBack
  · obtain rfl := Option.some.inj consequence
    trivial

namespace Builtin

variable {function : Builtin} {receiver : Option Value} {arguments : List Value} {span : Span}
variable {machine later : Machine} {value : Value}

/-- A task is queued and an operation is begun only with a value that can be called. -/
theorem Effect.callsCallables (effect : function.Effect receiver arguments span machine value later)
    (calls : machine.events.CallsCallables) : later.events.CallsCallables := by
  cases effect with
  | timer _ callable => exact calls.push _ callable
  | operation _ given => exact calls.begin _ _ _ fun callee member => (given callee member).2
  | data => exact calls

/-- A built-in function queues only calls of what can be called. -/
theorem call_callsCallables (calls : machine.events.CallsCallables) :
    (function.call receiver arguments span machine).Leaves (·.events.CallsCallables) := by
  refine (call_is (fun _ _ => calls) fun accepts => perform_cases accepts ?line ?time ?other).leaves
  case line =>
    intro prompt
    refine (callInput_is receiver prompt machine).imp ?_ ?_
    · rintro _ _ ⟨-, same⟩
      exact same ▸ calls
    · rintro _ _ ⟨⟨-, same⟩, -⟩
      exact same ▸ calls
  case time =>
    refine (callClock_is receiver machine).imp ?_ fun _ _ => False.elim
    rintro _ _ ⟨-, same⟩
    exact same ▸ calls
  case other =>
    refine fun does => (does machine).imp (fun _ _ effect => effect.callsCallables calls) ?_
    rintro _ _ ⟨rfl, -⟩
    exact calls

end Builtin

/-- The event loop goes on calling what can be called. -/
theorem Session.chronicle_callsCallables :
    Session.Chronicle fun _ machine => machine.events.CallsCallables where
  alone calls alone := alone.events ▸ calls
  note _ _ calls := calls
  call _ _ _ _ _ calls := Builtin.call_callsCallables calls
  new _ _ _ _ := ⟨nofun, nofun⟩
  poll calls polled := (calls.poll EventLoop.continues_callable polled).1
  report calls reported := calls.report? reported

/-- What is called at a turn can be called. -/
theorem Machine.TurnCalls.callable {machine started : Machine} {callee : Value}
    {arguments : List Value}
    (turn : machine.TurnCalls callee arguments started) (calls : machine.events.CallsCallables) :
    callee.isCallable = true := by
  cases turn with
  | intro read polled made =>
    rw [← (Machine.readTime_same read).2] at calls
    obtain ⟨-, ready⟩ := calls.poll EventLoop.continues_callable polled
    have callable := ready _ rfl
    generalize Task.action _ = action at made callable
    cases made <;> exact callable

/-! ## What a call of a callable value does not report -/

/-- A refusal is of the kind of its fault, whoever complains. -/
theorem Value.complaint_kind (callee : Value) (fault : Fault) (span : Span) :
    (callee.complaint fault span).kind = .runtime fault.kind := by
  cases callee <;> rfl

/-- A refusal of a value that can be called is for another reason. -/
theorem Value.Refusal.complaint_ne {machine : Machine} {count : Nat} {callee : Value}
    {fault : Fault}
    (refusal : callee.Refusal machine count fault) (callable : callee.isCallable = true)
    (span : Span)
    (type : String) : callee.complaint fault span ≠ (Fault.notCallable type).diagnostic := by
  intro same
  have kinds : fault.kind = .type := DiagnosticKind.runtime.inj
    ((callee.complaint_kind fault span).symm.trans (congrArg Diagnostic.kind same))
  cases refusal with
  | type never => cases callee <;> contradiction
  | arity | depth => contradiction

/-- A call of a fitting built-in function fails in other words. -/
theorem Builtin.Fits.call_ne_notCallable {identity : Nat} {function : Builtin}
    {receiver : Option Value}
    (fits : function.Fits identity receiver) (arguments : List Value) (span : Span)
    (machine : Machine)
    (type : String) (later : Machine) :
    function.call receiver arguments span machine ≠ .failed (Fault.notCallable type).diagnostic
      later := by
  intro failed
  rcases fits.call_finds arguments span machine with ⟨expected, -, -, refused⟩ | ⟨runs, noMisuse⟩
  · have same := (Outcome.failed.inj (refused.symm.trans failed)).1
    have kinds : RuntimeKind.arity = .type :=
      DiagnosticKind.runtime.inj (congrArg Diagnostic.kind same)
    contradiction
  · rw [← runs, failed] at noMisuse
    exact noMisuse (.notCallable type) rfl rfl

/-- A call that does not get to the body of a function does not report that the callee cannot be
called, if it can be. -/
theorem callValue_ne_of_stops {callee : Value} {arguments : List Value} {machine : Machine}
    (callable : callee.isCallable = true) (fitted : callee.Fitted)
    (stops : ¬callee.Enters machine arguments.length) (bound : Nat) (span : Span) (type : String)
    (later : Machine) :
    callValue (bound + 3) callee arguments span machine ≠
      .failed (Fault.notCallable type).diagnostic later := by
  intro failed
  by_cases refusal : ∃ fault, callee.Refusal machine arguments.length fault
  · obtain ⟨fault, refusal⟩ := refusal
    obtain ⟨left, refused⟩ : ∃ left,
        callee.Refused (bound + 3) arguments span machine (callee.complaint fault span) left :=
      refusal.refused
    exact refusal.complaint_ne callable span type
      (Outcome.failed.inj (refused.failed.symm.trans failed)).1
  · have proceeds : callee.Proceeds (bound + 3) arguments span machine :=
      Value.proceeds_of_not_refusal fun fault holds => refusal ⟨fault, holds⟩
    cases proceeds with
    | body _ visits =>
      have calls : (Code.call callee arguments span).isCalling = true := rfl
      have calling := Code.visits_calling calls stops visits
      contradiction
    | builtin called =>
      subst called
      exact fitted.fits.call_ne_notCallable arguments span machine type later failed
    | plain _ _ gives => exact absurd (gives.symm.trans failed) nofun

/-- A call of a value that can be called never reports that it cannot be. A failure in a body points
to where it is, which this report does not. -/
theorem callValue_ne_notCallable {callee : Value} (callable : callee.isCallable = true)
    (fitted : callee.Fitted) (bound : Nat) (arguments : List Value) (span : Span)
    (machine : Machine)
    (type : String) (later : Machine) :
    callValue bound callee arguments span machine ≠ .failed (Fault.notCallable type).diagnostic
      later := by
  intro failed
  have spans : ∀ occasion : Occasion, occasion.code.OwnSpans fun _ => True := by
    rintro ⟨code, -⟩
    cases code <;> simp [Code.OwnSpans]
  have failed : (Code.call callee arguments span).run bound machine =
      .failed (Fault.notCallable type).diagnostic later := failed
  have raised := Code.run_raised (fun occasion _ => spans occasion) failed
  have stops : ¬callee.Enters machine arguments.length := by
    rcases raised.points with ⟨-, span, nowhere, -⟩ | ⟨stops, -⟩
    · contradiction
    · exact stops
  have ends : (Code.call callee arguments span).run bound machine ≠ .exhausted := by
    rw [failed]
    nofun
  have goesOn : (Code.call callee arguments span).run (bound + 3) machine =
      .failed (Fault.notCallable type).diagnostic later :=
    (Code.run_mono (Nat.le_add_right bound 3) ends).trans failed
  exact callValue_ne_of_stops callable fitted stops bound span type later goesOn

namespace Session

variable {admitted : Program → Prop} {session : Session} {past episode more : List Occasion}
variable {machine : Machine}

/-- All values on the machines that a session comes through are fitted. -/
theorem Passes.fitted (passes : session.Passes episode more machine)
    (logged : session.Logged admitted past) (running : session.Stretch admitted episode) :
    machine.All Value.Fitted :=
  passes.good fittedDiscipline_lawful (fun program _ => fittedDiscipline_allows program)
    logged running
    fun _ _ => trivial

/-- All values that code is run with are fitted. -/
theorem Stretch.hand_fitted (logged : session.Logged admitted past)
    (running : session.Stretch admitted episode) {occasion : Occasion}
    (member : occasion ∈ episode) :
    ∀ value ∈ occasion.code.hand, value.Fitted := by
  have allows : ∀ program, admitted program → fittedDiscipline.Allows program := fun program _ =>
    fittedDiscipline_allows program
  have good := logged.good fittedDiscipline_lawful allows fun _ _ => trivial
  obtain ⟨-, fits⟩ :=
    running.fits fittedDiscipline_lawful allows good (fun _ _ => trivial) occasion member
  exact fittedDiscipline_lawful.hand fits

/-- What a turn calls is fitted. -/
theorem turnCalls_fitted {callee : Value} {arguments : List Value} {started : Machine}
    (logged : session.Logged admitted past)
    (calls : session.machine.TurnCalls callee arguments started) :
    callee.Fitted := by
  have good :=
    logged.good fittedDiscipline_lawful (fun program _ => fittedDiscipline_allows program)
    fun _ _ => trivial
  obtain ⟨-, fitted, -⟩ := fittedDiscipline_lawful.turn_before good calls
  exact fitted

/-- On every machine that a session comes through, whatever programs it runs, the heap and the event
loop hold only values whose built-in functions fit their objects, and the event loop will call only
values that can be called. So are the values that code is run with. A built-in function that fits
its object is one of those that are bound from the start, or it is a method and its object is of the
type of the method. Called with any arguments, it fails because of their number at the call, before
anything is done, or it runs and finds its object and all arguments that it reads. What a turn calls
can be called, and the call never reports that it cannot be. -/
theorem callbacks_can_be_called (admitted : Program → Prop) (session : Session)
    (past episode : List Occasion)
    (logged : session.Logged admitted past) (running : session.Stretch admitted episode) :
    (∀ more machine, session.Passes episode more machine →
      machine.All Value.Fitted ∧ machine.events.CallsCallables) ∧
    (∀ occasion ∈ episode, ∀ value ∈ occasion.code.hand, value.Fitted) ∧
    (∀ identity function receiver, (Value.builtin identity function receiver).Fitted →
      ((receiver = none ∧ ∀ settings sink console clock,
          let machine := Machine.new settings sink console clock
          machine.heap.lookup? machine.globals function.name =
            some (.builtin identity function none)) ∨
        ∃ object, receiver = some object ∧ object.Fitted ∧ function.owner? = some object.typeName) ∧
      ∀ arguments span machine,
        (∃ expected, function.arity = .exactly expected ∧ arguments.length ≠ expected ∧
          function.call receiver arguments span machine =
            .failed ((Fault.arity expected arguments.length).diagnosticAt span) machine) ∨
        function.call receiver arguments span = function.perform receiver arguments span ∧
          Builtin.NoMisuse (function.perform receiver arguments span machine)) ∧
    ∀ callee arguments started, session.machine.TurnCalls callee arguments started →
      callee.isCallable = true ∧ callee.Fitted ∧
        ∀ bound type later, (Code.call callee arguments default).run bound started ≠
          .failed (Fault.notCallable type).diagnostic later := by
  refine ⟨?machines, fun occasion member => running.hand_fitted logged member, ?builtins, ?turns⟩
  case machines =>
    intro more machine passes
    obtain ⟨-, calls⟩ := chronicle_callsCallables.passes logged running passes
    exact ⟨passes.fitted logged running, calls⟩
  case builtins =>
    intro identity function receiver fitted
    refine ⟨?_, fitted.fits.call_finds⟩
    cases fitted with
    | data plain => contradiction
    | builtin fits receives =>
      cases receiver with
      | none =>
        exact .inl ⟨rfl, fun settings sink console clock => Machine.lookup?_new _ _ _ _ fits⟩
      | some object => exact .inr ⟨object, rfl, receives object rfl, fits⟩
  case turns =>
    intro callee arguments started calls
    have callable := calls.callable (chronicle_callsCallables.logged logged)
    have fitted := turnCalls_fitted logged calls
    have neverRefused : ∀ bound type later, (Code.call callee arguments default).run bound started ≠
        .failed (Fault.notCallable type).diagnostic later := by
      intro bound type later
      exact callValue_ne_notCallable callable fitted bound arguments default started type later
    exact ⟨callable, fitted, neverRefused⟩

/-- A method of a list is the callback of a request. When the answer has come, it is called with it
at the next turn. -/
theorem callbacks_can_be_called_method :
    ∃ (session : Session) (past episode : List Occasion) (callee object : Value)
      (arguments : List Value)
      (started : Machine),
      session.Logged (fun _ => True) past ∧ session.Stretch (fun _ => True) episode ∧
        session.machine.All Value.Fitted ∧ session.machine.TurnCalls callee arguments started ∧
        callee.isCallable = true ∧ callee.receiver? = some object ∧ object.typeName = "list" ∧
        arguments.map (Value.display started.heap) = ["<Response instance>"] := by
  let fresh : Session := .new { clock := .virtual } (.captured "") {} {} {}
  let source := "let l=list();request(\"u\",nil,nil,\"get\",l.push);"
  let response : OperationOutcome := .ok (.response 200 [("x-test", "yes")] "hello")
  have answered : (Program.accept source).toOption.any (fun program =>
      (fresh.machine.runBody 16 program).any fun machine =>
        (machine.events.report? 0 response).any fun events =>
          (({ machine with events } : Machine).turnTrace 2).head?.any fun first =>
            first.code.hand.head?.any (fun callee =>
              callee.receiver?.any fun object => object.typeName == "list") &&
              first.code.hand.tail.map (Value.display first.machine.heap) ==
                ["<Response instance>"]) = true := by
    decide +kernel
  have logged : fresh.Logged (fun _ => True) [] := .new ..
  clear_value fresh source response
  obtain ⟨program, -, ends⟩ := (Option.any_eq_true _ _).mp answered
  obtain ⟨machine, ran, comes⟩ := (Option.any_eq_true _ _).mp ends
  obtain ⟨events, reported, turns⟩ := (Option.any_eq_true _ _).mp comes
  obtain ⟨first, begins, found⟩ := (Option.any_eq_true _ _).mp turns
  obtain ⟨isMethod, given⟩ := Bool.and_eq_true_iff.mp found
  let session : Session := { machine := { machine with events }, host := fresh.host }
  have logged : session.Logged (fun _ => True) _ :=
    .outside (.body logged trivial ran) (.report reported)
  have running : session.Stretch (fun _ => True) _ := .turn 2
  obtain nothing | ⟨callee, arguments, started, calls⟩ := session.machine.turnTrace_cases 2
  · rw [nothing] at begins
    contradiction
  rw [calls.trace_eq] at begins
  obtain rfl := Option.some.inj begins
  obtain ⟨_, same, isBound⟩ := (Option.any_eq_true _ _).mp isMethod
  obtain rfl : callee = _ := Option.some.inj same
  obtain ⟨object, method, isList⟩ := (Option.any_eq_true _ _).mp isBound
  obtain ⟨machines, -, -, turns⟩ := callbacks_can_be_called _ session _ _ logged running
  obtain ⟨fitted, -⟩ := machines _ _ .first
  obtain ⟨callable, -⟩ := turns _ _ _ calls
  have onList : object.typeName = "list" := beq_iff_eq.mp isList
  have answer : arguments.map (Value.display started.heap) = ["<Response instance>"] :=
    beq_iff_eq.mp given
  exact ⟨session, _, _, callee, object, arguments, started, logged, running, fitted, calls,
    callable, method, onList, answer⟩

end Session

end EventScript
