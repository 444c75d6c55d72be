import EventScript.Proofs.Resolution.Properties
import EventScript.Proofs.Session.Maps

/-!
# Properties in sessions

On every machine that a session comes through, an instance gives the field of a name that it has,
and else the last method of the name that the declaration of the nearest class lists, bound to the
instance. What an expression gives as an instance is there, and an assignment to a property changes
what this property of the one instance is, and nothing else (`Session.fields_shadow_methods`).
-/

namespace EventScript

open Run

namespace Session

/-- A machine that a session comes through in an episode: at first, where it comes to code, and
where this code ends. What the code comes to is listed. -/
inductive Passes (session : Session) (episode : List Occasion) :
    List Occasion → Machine → Prop where
  | first : Passes session episode [] session.machine
  | comes {occasion : Occasion} (member : occasion ∈ episode) :
      Passes session episode [] occasion.machine
  | gives {kind : ResultKind} {code : Code kind} {start machine : Machine} {bound : Nat}
      {result : kind.Result} (member : ⟨code, start⟩ ∈ episode)
      (ended : code.run bound start = .done result machine) :
      Passes session episode (code.trace bound start) machine
  | fails {kind : ResultKind} {code : Code kind} {start machine : Machine} {bound : Nat}
      {diagnostic : Diagnostic} (member : ⟨code, start⟩ ∈ episode)
      (ended : code.run bound start = .failed diagnostic machine) :
      Passes session episode (code.trace bound start) machine

variable {admitted : Program → Prop} {session : Session} {past episode more : List Occasion}
variable {machine : Machine}

/-- What a lawful discipline says is so on all machines that a session comes through. -/
theorem Passes.good {discipline : Discipline} (passes : session.Passes episode more machine)
    (lawful : discipline.Lawful) (allows : ∀ program, admitted program → discipline.Allows program)
    (logged : session.Logged admitted past) (running : session.Stretch admitted episode)
    (occurs : ∀ occasion ∈ past ++ episode ++ more, discipline.occurs occasion) :
    discipline.Good machine := by
  have good := logged.good lawful allows fun _ early =>
    occurs _ (List.mem_append_left _ (List.mem_append_left _ early))
  have fits := running.fits lawful allows good fun _ late =>
    occurs _ (List.mem_append_left _ (List.mem_append_right _ late))
  cases passes with
  | first => exact good
  | comes member => exact (fits _ member).1
  | gives member ended | fails member ended =>
    have keeps :=
      lawful.keeps (fun _ inside => occurs _ (List.mem_append_right _ inside)) (fits _ member)
    rw [ended] at keeps
    exact keeps.1

/-- Instances on the machines that a session comes through are of classes that were declared. -/
theorem Passes.declared (passes : session.Passes episode more machine)
    (logged : session.Logged admitted past) (running : session.Stretch admitted episode) :
    machine.heap.instances.All fun object => object.cls.Declared (past ++ episode ++ more) := by
  have good :=
    passes.good (classDiscipline_lawful (Class.declared_passed (past ++ episode ++ more)))
    (fun program _ => classDiscipline_allows program) logged running fun _ member => member
  have all : machine.All (Value.OfClasses (Class.Declared (past ++ episode ++ more))) := good
  exact fun ref object present => (all.heap.instances ref object present).1.cls

/-- The accounts are in order wherever a session comes to code. -/
theorem Stretch.exists_accounts {occasion : Occasion} (logged : session.Logged admitted past)
    (running : session.Stretch admitted episode) (member : occasion ∈ episode) :
    ∃ (ledger : Ledger) (history : List Occasion), ledger.Accounts history occasion.machine ∧
      ∀ value ∈ occasion.code.hand, ledger.Vouches value := by
  obtain ⟨history, ledger, accounts, vouches⟩ := (running.accounted logged).exists_of_mem member
  exact ⟨ledger, history, accounts, vouches⟩

end Session

/-- A property is looked up on what the expression before it gives. -/
theorem Expr.run_get {form : Expr} {bound : Nat} {start machine : Machine} {owner : Value}
    (ended : (Code.expr form).run bound start = .done owner machine) (span : Span) (name : String) :
    (Code.expr (.get span form name)).run (bound + 1) start =
      (property owner name).withSpan span machine := by
  have ended : evaluate bound form start = .done owner machine := ended
  show evaluate (bound + 1) (.get span form name) start = _
  rw [evaluate, bind_done ended]

/-- An assignment to a property that gives a value has found an instance, and a value for its
field. -/
theorem Expr.exists_of_set {span : Span} {target given : Expr} {name : String} {bound : Nat}
    {start later : Machine} {value : Value}
    (ran : (Code.expr (.set span target name given)).run bound start = .done value later) :
    ∃ inner ref middle stored, bound = inner + 1 ∧
      (Code.expr target).run inner start = .done (.object ref) middle ∧
      (Code.expr given).run inner middle = .done value stored ∧
      later = { stored with heap := stored.heap.setField ref name value } := by
  cases bound with
  | zero =>
    rw [Code.run_zero] at ran
    contradiction
  | succ inner =>
    have ran : evaluate (inner + 1) (.set span target name given) start = .done value later := ran
    rw [evaluate] at ran
    obtain ⟨owner, middle, found, ran⟩ := exists_of_bind ran
    cases owner with
    | object ref =>
      obtain ⟨content, stored, evaluated, ran⟩ := exists_of_bind ran
      obtain ⟨_, after, stores, ran⟩ := exists_of_bind ran
      obtain ⟨-, rfl⟩ := Outcome.done.inj stores
      obtain ⟨rfl, rfl⟩ := Outcome.done.inj ran
      exact ⟨inner, ref, middle, stored, rfl, found, evaluated, rfl⟩
    | _ => contradiction

namespace Session

variable {admitted : Program → Prop} {session : Session} {past episode : List Occasion}
variable {machine : Machine}

/-- What an expression gives as an instance is there. -/
theorem Stretch.exists_object {form : Expr} {start : Machine} {bound ref : Nat}
    (logged : session.Logged admitted past) (running : session.Stretch admitted episode)
    (member : ⟨.expr form, start⟩ ∈ episode)
    (ended : (Code.expr form).run bound start = .done (.object ref) machine) :
    ∃ object, machine.heap.instances.get? ref = some object := by
  obtain ⟨ledger, history, accounts, vouches⟩ := running.exists_accounts logged member
  obtain ⟨more, -, accounts, given⟩ := accounts.of_done vouches ended
  exact accounts.balances.exists_object (given _ List.mem_cons_self)

/-- The instance whose property is assigned to is there when the field is stored. -/
theorem Stretch.exists_target {span : Span} {target given : Expr} {name : String} {inner ref : Nat}
    {start middle stored : Machine} {value : Value} (logged : session.Logged admitted past)
    (running : session.Stretch admitted episode)
    (member : ⟨.expr (.set span target name given), start⟩ ∈ episode)
    (found : (Code.expr target).run inner start = .done (.object ref) middle)
    (evaluated : (Code.expr given).run inner middle = .done value stored) :
    ∃ object, stored.heap.instances.get? ref = some object := by
  obtain ⟨ledger, history, accounts, -⟩ := running.exists_accounts logged member
  obtain ⟨early, -, accounts, owner⟩ := accounts.of_done (List.forall_mem_nil _) found
  obtain ⟨late, goesOn, accounts, -⟩ := accounts.of_done (List.forall_mem_nil _) evaluated
  exact accounts.balances.exists_object ((owner _ List.mem_cons_self).extend goesOn)

/-- On all machines that a session comes through, whatever programs it runs, a property of an
instance is its field or else the method of its class. What an expression gives as an instance is
one, and its property is looked up there. An assignment that gives a value makes it what the
property of the instance is, and leaves all other properties, also those of other instances, what
they were just before the field was stored. -/
theorem fields_shadow_methods (admitted : Program → Prop) (session : Session)
    (past episode : List Occasion)
    (logged : session.Logged admitted past) (running : session.Stretch admitted episode) :
    (∀ more machine, session.Passes episode more machine →
      ∀ ref object name, machine.heap.instances.get? ref = some object →
        object.Looked (past ++ episode ++ more) ref name machine
          (property (.object ref) name machine)) ∧
    (∀ form start, ⟨.expr form, start⟩ ∈ episode → ∀ bound owner machine,
      (Code.expr form).run bound start = .done owner machine →
        (∀ ref, owner = .object ref → ∃ object, machine.heap.instances.get? ref = some object) ∧
        ∀ span name, (Code.expr (.get span form name)).run (bound + 1) start =
          (property owner name).withSpan span machine) ∧
    (∀ span target name given start, ⟨.expr (.set span target name given), start⟩ ∈ episode →
      ∀ bound value later,
        (Code.expr (.set span target name given)).run bound start = .done value later →
          ∃ inner ref object middle stored, bound = inner + 1 ∧
            (Code.expr target).run inner start = .done (.object ref) middle ∧
            (Code.expr given).run inner middle = .done value stored ∧
            stored.heap.instances.get? ref = some object ∧
            property (.object ref) name later = .done value later ∧
            ∀ owner other, owner ≠ .object ref ∨ other ≠ name →
              (property owner other later).answer = (property owner other stored).answer) := by
  refine ⟨?looked, ?expression, ?assigned⟩
  case looked =>
    intro more machine passes ref object name present
    have declared := passes.declared logged running ref object present
    exact property_looked present declared name
  case expression =>
    intro form start member bound owner machine ended
    refine ⟨fun ref same => ?_, Expr.run_get ended⟩
    subst same
    exact running.exists_object logged member ended
  case assigned =>
    intro span target name given start member bound value later ran
    obtain ⟨inner, ref, middle, stored, rfl, found, evaluated, rfl⟩ := Expr.exists_of_set ran
    obtain ⟨object, present⟩ := running.exists_target logged member found evaluated
    refine ⟨inner, ref, object, middle, stored, rfl, found, evaluated, present, ?_, ?_⟩
    · exact property_setField_self present name value
    · intro owner other different
      exact property_setField different value

/-- Of two instances of a class that inherits a method declared twice, one gets a field of the
name. -/
theorem fields_shadow_methods_inherited :
    ∃ (session : Session) (episode : List Occasion) (span : Span) (target given : Expr)
      (name : String)
      (start later : Machine) (bound ref : Nat) (value : Value),
      session.Logged (fun _ => True) [] ∧ session.Stretch (fun _ => True) episode ∧
        ⟨.expr (.set span target name given), start⟩ ∈ episode ∧
        (Code.expr (.set span target name given)).run bound start = .done value later ∧
        property (.object ref) name later = .done value later ∧
        ∃ other object more, other ≠ ref ∧ later.heap.instances.get? other = some object ∧
          object.Looked (episode ++ more) other name later
            (property (.object other) name later) := by
  let session : Session := .new {} (.captured "") {} {} {}
  let source := "class A{m(){}m(){return m;}}class B<A{}let a=B();let b=B();a.m=true;"
  have logged : session.Logged (fun _ => True) [] := .new ..
  have listed : (session.trace 12 source).any (fun occasion => occasion.expr?.any fun form =>
      form matches .set .. && ((Code.expr form).run 8 occasion.machine).done?.any fun given =>
        given.2.heap.instances.size == 2) = true := by
    decide +kernel
  obtain ⟨occasion, member, wanted⟩ := List.any_eq_true.mp listed
  obtain ⟨form, found, wanted⟩ := (Option.any_eq_true _ _).mp wanted
  rw [Occasion.eq_of_expr? found] at member
  have running := (Episode.of_source session 12 source (List.ne_nil_of_mem member)).stretch
  have running : session.Stretch (fun _ => True) (session.trace 12 source) :=
    running.mono fun _ _ => trivial
  clear_value session source
  obtain ⟨isSet, ends⟩ := Bool.and_eq_true_iff.mp wanted
  generalize occasion.machine = start at member ends
  split at isSet
  case h_2 => contradiction
  rename_i span target name given
  obtain ⟨⟨value, later⟩, done, two⟩ := (Option.any_eq_true _ _).mp ends
  have ran : (Code.expr (.set span target name given)).run 8 start = .done value later :=
    Outcome.eq_of_done? done
  have two : later.heap.instances.size = 2 := beq_iff_eq.mp two
  obtain ⟨looked, -, assigned⟩ := fields_shadow_methods _ session [] _ logged running
  obtain ⟨-, ref, -, -, -, -, -, -, -, gives, -⟩ :=
    assigned span target name given start member 8 value later ran
  have passes : session.Passes (session.trace 12 source) _ later := .gives member ran
  -- One of the two instances is another one than that whose field is set.
  obtain ⟨other, inside, different⟩ : ∃ other < later.heap.instances.size, other ≠ ref := by
    rw [two]
    by_cases first : ref = 0
    · exact ⟨1, by omega, by omega⟩
    · exact ⟨0, by omega, by omega⟩
  have present : later.heap.instances.get? other = some later.heap.instances.cells[other] :=
    Array.getElem?_eq_getElem inside
  have lookedUp := looked _ _ passes other _ name present
  exact ⟨session, _, span, target, given, name, start, later, 8, ref, value, logged, running,
    member, ran, gives, other, _, _, different, present, lookedUp⟩

end Session

end EventScript
