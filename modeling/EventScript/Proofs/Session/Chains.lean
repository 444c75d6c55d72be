import EventScript.Proofs.Evaluation.CallDepth
import EventScript.Proofs.Evaluation.Chains
import EventScript.Proofs.Resolution.Classes
import EventScript.Proofs.Session.Properties
import EventScript.Proofs.Session.ScopeTree

/-!
# Chains in sessions

A class declaration finds the superclass among the values that there are, and gives the new class a
number that no other value has borne. So every class is younger than those above it, whatever
programs a session runs and however often they declare classes of one name
(`Class.descends_passed`). Scopes are inside older ones. Hence all ways outward from scopes and
upward from classes come to an end, wherever a session comes to (`Session.chains_end`).
-/

namespace EventScript

open Run

/-! ## The age of classes -/

namespace Occasion.Makes

variable {occasion : Occasion} {decls : List FunctionDecl} {cls parent : Class}
    {history : List Occasion}

/-- A class that is made has the next identity that is free. -/
theorem identity (makes : occasion.Makes decls cls) :
    cls.identity = occasion.machine.heap.nextIdentity := by
  cases makes with
  | intro _ made =>
    obtain rfl := Value.classObject.inj (Outcome.done.inj made).1
    rfl

/-- The superclass of a class that is made is what some variable holds then. -/
theorem exists_superclass (makes : occasion.Makes decls cls)
    (superclass : cls.superclass? = some parent) :
    ∃ span name, readVariable span name occasion.machine =
      .done (.classObject parent) occasion.machine := by
  cases makes with
  | @intro _ _ named _ _ _ above _ resolved made =>
    obtain rfl := Value.classObject.inj (Outcome.done.inj made).1
    cases above with
    | none => contradiction
    | some found =>
      obtain rfl : found = parent := Option.some.inj superclass
      cases named with
      | none => exact absurd (Outcome.done.inj resolved).1 nofun
      | some named =>
        obtain ⟨value, middle, read, given⟩ := exists_of_bind resolved
        cases value with
        | classObject cls =>
          obtain ⟨same, rfl⟩ := Outcome.done.inj given
          exact ⟨named.span, named.name, Option.some.inj same ▸ read⟩
        | _ => contradiction

/-- A class that is made is younger than its superclass. -/
theorem younger (makes : occasion.Makes decls cls) (accounted : occasion.Accounted history)
    (superclass : cls.superclass? = some parent) : parent.identity < cls.identity := by
  obtain ⟨ledger, accounts, -⟩ := accounted
  obtain ⟨span, name, read⟩ := makes.exists_superclass superclass
  rw [makes.identity, accounts.balances.heap.identities]
  exact ((readVariable_vouches accounts.balances read).identity rfl).1

end Occasion.Makes

/-- All classes are younger than those above them where the accounts are in order. -/
theorem Class.descends_passed :
    Class.Passed Class.Descends fun occasion => ∃ history, occasion.Accounted history where
  bare _ _ _ := descends_of_alone rfl
  inherits := Descends.inherits
  made := by
    rintro occasion decls cls ⟨history, accounted⟩ makes above
    cases superclass : cls.superclass? with
    | none => exact descends_of_alone superclass
    | some parent =>
      exact descends_of_superclass superclass (makes.younger accounted superclass)
        (above parent superclass)

/-- All classes around are younger than those above them. -/
def descent : Discipline :=
  classDiscipline Class.Descends fun occasion => ∃ history, occasion.Accounted history

/-- All classes that evaluation makes descend to an end. -/
theorem descent_lawful : descent.Lawful := classDiscipline_lawful Class.descends_passed

/-! ## Where chains end -/

/-- All chains on the machine come to an end, also those that begin at the values in hand. Each
scope that these or the machine refer to is one of those from which there is a way outward to the
global scope, and going up from each of the classes does not go on for ever. -/
structure Machine.ChainsEnd (hand : List Value) (machine : Machine) : Prop where
  intact : machine.Intact
  within : ∀ value ∈ hand, value.Within machine.heap.scopes.size
  outward : ∀ scope < machine.heap.scopes.size, ∃ scopes, machine.Outward scope scopes
  classes : machine.All (Value.OfClasses Class.Ends)
  given : ∀ value ∈ hand, value.OfClasses Class.Ends
  homes : ∀ frame ∈ machine.frames, ∀ cls ∈ frame.home, cls.Ends

/-- Scopes are inside older ones, and classes are younger than those above them, also the classes of
the methods that are running. -/
structure Machine.Aged (machine : Machine) : Prop extends machine.Planted where
  classes : machine.All (Value.OfClasses Class.Descends)
  homes : ∀ frame ∈ machine.frames, ∀ cls ∈ frame.home, cls.Descends

/-- Links that lead only to what is older come to an end. -/
theorem Machine.Aged.chainsEnd {machine : Machine} {hand : List Value} (aged : machine.Aged)
    (within : ∀ value ∈ hand, value.Within machine.heap.scopes.size)
    (given : ∀ value ∈ hand, value.OfClasses Class.Descends) : machine.ChainsEnd hand where
  intact := aged.toIntact
  within := within
  outward _ there := Machine.outward aged.nested aged.roots there
  classes := aged.classes.mono fun _ classes => classes.mono fun _ => Class.Descends.ends
  given value member := (given value member).mono fun _ => Class.Descends.ends
  homes frame member cls home := (aged.homes frame member cls home).ends

namespace Session

variable {admitted : Program → Prop} {session : Session} {past episode : List Occasion}

/-- A machine that a session comes through in an episode, with the values that code is run with or
gives there: at first, where it comes to code, and where this code ends. -/
inductive Carries (session : Session) (episode : List Occasion) : List Value → Machine → Prop where
  | first : Carries session episode [] session.machine
  | comes {occasion : Occasion} (member : occasion ∈ episode) :
      Carries session episode occasion.code.hand occasion.machine
  | gives {kind : ResultKind} {code : Code kind} {start machine : Machine} {bound : Nat}
      {result : kind.Result} (member : ⟨code, start⟩ ∈ episode)
      (ended : code.run bound start = .done result machine) :
      Carries session episode (kind.hand result) machine
  | fails {kind : ResultKind} {code : Code kind} {start machine : Machine} {bound : Nat}
      {diagnostic : Diagnostic} (member : ⟨code, start⟩ ∈ episode)
      (ended : code.run bound start = .failed diagnostic machine) :
      Carries session episode [] machine

/-- Between the steps of a session all classes are younger than those above them. -/
theorem Logged.descends (logged : session.Logged admitted past) : descent.Good session.machine :=
  logged.good descent_lawful (fun program _ => classDiscipline_allows program) fun _ =>
    logged.unfolds.exists_of_mem

/-- So they are where a session comes to code. -/
theorem Stretch.descends (logged : session.Logged admitted past)
    (running : session.Stretch admitted episode) :
    ∀ occasion ∈ episode, descent.contract.before occasion.code occasion.machine :=
  running.fits descent_lawful (fun program _ => classDiscipline_allows program) logged.descends
    fun _ =>
    (running.accounted logged).exists_of_mem

/-- So they are where this code ends. -/
theorem Stretch.keeps_descent {kind : ResultKind} {code : Code kind} {start : Machine}
    (logged : session.Logged admitted past) (running : session.Stretch admitted episode)
    (member : ⟨code, start⟩ ∈ episode) (bound : Nat) :
    descent.Keeps start (code.run bound start) := by
  obtain ⟨ledger, history, accounts, vouches⟩ := running.exists_accounts logged member
  have unfolds := (Code.accounts bound code accounts vouches).unfolds
  have before := running.descends logged _ member
  exact descent_lawful.keeps (fun _ => unfolds.exists_of_mem) before

/-- The calls that are open where a session comes to code were opened by activations. -/
theorem Stretch.opened {occasion : Occasion} (running : session.Stretch admitted episode)
    (member : occasion ∈ episode) :
    ∀ frame ∈ occasion.machine.frames, ∃ other ∈ episode, frame ∈ other.code.opened? := by
  rcases running.cases with rfl | ⟨bound, kind, code, origin, begins, rfl⟩
  · contradiction
  · intro frame there
    have opened := (Code.mem_trace.mp member).opened frame there
    rw [begins.frames] at opened
    exact opened.resolve_left List.not_mem_nil

/-- Between the steps of a session scopes and classes lead to older ones. -/
theorem Logged.aged (logged : session.Logged admitted past) : session.machine.Aged where
  toPlanted := logged.planted
  classes := logged.descends
  homes := logged.atTopLevel.frames ▸ List.forall_mem_nil _

/-- So they do where a session comes to code. -/
theorem Stretch.aged {occasion : Occasion} (logged : session.Logged admitted past)
    (running : session.Stretch admitted episode) (member : occasion ∈ episode) :
    occasion.machine.Aged where
  toPlanted := (running.planted logged member).1
  classes := (running.descends logged _ member).1
  homes := by
    -- A call that is open is the activation of a function, which the session came to before.
    intro frame there cls home
    obtain ⟨⟨code, start⟩, among, opens⟩ := running.opened member frame there
    obtain ⟨-, fits⟩ := running.descends logged _ among
    cases code with
    | activation called arguments =>
      obtain rfl := Option.some.inj opens
      exact fits.1.home cls home
    | _ => contradiction

/-- So they do where this code ends. -/
theorem Stretch.leaves_aged {kind : ResultKind} {code : Code kind} {start : Machine}
    (logged : session.Logged admitted past) (running : session.Stretch admitted episode)
    (member : ⟨code, start⟩ ∈ episode) (bound : Nat) :
    (code.run bound start).Leaves Machine.Aged := by
  obtain ⟨planted, mirrored⟩ := running.planted logged member
  have homes := (running.aged logged member).homes
  have later := planted.leaves (mirrored.leaves bound)
  have good := (running.keeps_descent logged member bound).leaves
  have calls := code.sameCalls bound start
  cases ended : code.run bound start with
  | exhausted => trivial
  | failed diagnostic machine | done result machine =>
    rw [ended] at later good calls
    exact ⟨later, good, calls.frames ▸ homes⟩

/-- A class that is declared is younger than those above it. -/
theorem Stretch.made {occasion : Occasion} {decls : List FunctionDecl} {cls : Class}
    (logged : session.Logged admitted past) (running : session.Stretch admitted episode)
    (member : occasion ∈ episode) (makes : occasion.Makes decls cls) : cls.Descends := by
  obtain ⟨good, -⟩ := running.descends logged occasion member
  refine Class.descends_passed.made ((running.accounted logged).exists_of_mem member) makes ?_
  intro parent superclass
  obtain ⟨span, name, read⟩ := makes.exists_superclass superclass
  have keeps := readVariable_keeps span name occasion.machine good
  rw [read] at keeps
  exact keeps.2.2.cls

/-- Whatever programs a session runs, checked or not, and whatever classes they declare under the
same names, going up from each class that is declared comes to an end, and so do all chains on every
machine that the session comes through. -/
theorem chains_end (admitted : Program → Prop) (session : Session) (past episode : List Occasion)
    (logged : session.Logged admitted past) (running : session.Stretch admitted episode) :
    (∀ occasion ∈ episode, ∀ decls cls, occasion.Makes decls cls → cls.Ends) ∧
      ∀ hand machine, session.Carries episode hand machine → machine.ChainsEnd hand := by
  refine ⟨fun occasion member decls cls makes => (running.made logged member makes).ends, ?_⟩
  intro hand machine carries
  cases carries with
  | first => exact logged.aged.chainsEnd nofun nofun
  | comes member =>
    obtain ⟨-, mirrored⟩ := running.planted logged member
    obtain ⟨-, fits⟩ := running.descends logged _ member
    exact (running.aged logged member).chainsEnd mirrored.hand (descent_lawful.hand fits)
  | @gives kind code start _ bound _ member ended =>
    obtain ⟨-, mirrored⟩ := running.planted logged member
    have aged := running.leaves_aged logged member bound
    have keeps := running.keeps_descent logged member bound
    rw [ended] at aged keeps
    exact Machine.Aged.chainsEnd aged (mirrored.given ended) keeps.2.2.hand
  | @fails kind code start _ bound _ member ended =>
    have aged := running.leaves_aged logged member bound
    rw [ended] at aged
    exact Machine.Aged.chainsEnd aged nofun nofun

/-- A class may be declared in terms of an earlier one of its name, if the program is not
checked. -/
theorem chains_end_redefined :
    ∃ (session : Session) (episode : List Occasion) (cls : Class) (machine : Machine)
      (classes : List Class),
      session.Logged (fun _ => True) [] ∧ session.Stretch (fun _ => True) episode ∧
        session.Carries episode [.classObject cls] machine ∧ machine.ChainsEnd [.classObject cls] ∧
        cls.Upward classes ∧ (classes.map fun cls => cls.name) = ["A", "A", "B", "A"] := by
  let session : Session := .new {} (.captured "") {} {} {}
  let program := (Program.ofText "class A{}class B<A{}class A<B{}class A<A{}A;").toOption.getD []
  have logged : session.Logged (fun _ => True) [] := .new ..
  have running : session.Stretch (fun _ => True)
      ((Code.stmts program).trace 8 session.machine.toTopLevel) := .body 8 trivial
  have listed : ((Code.stmts program).trace 8 session.machine.toTopLevel).any (fun occasion =>
      occasion.expr?.any fun form =>
        ((Code.expr form).run 1 occasion.machine).done?.any fun given =>
        given.1.class?.any fun cls => cls.lineage.map ClassBody.name == ["A", "A", "B", "A"]) =
          true := by
    decide +kernel
  obtain ⟨occasion, member, wanted⟩ := List.any_eq_true.mp listed
  obtain ⟨form, isExpr, wanted⟩ := (Option.any_eq_true _ _).mp wanted
  obtain ⟨⟨value, machine⟩, done, wanted⟩ := (Option.any_eq_true _ _).mp wanted
  obtain ⟨cls, isClass, named⟩ := (Option.any_eq_true _ _).mp wanted
  obtain rfl : value = .classObject cls := Value.eq_of_class? isClass
  rw [Occasion.eq_of_expr? isExpr] at member
  clear_value session program
  have carries : session.Carries _ [.classObject cls] machine :=
    .gives member (Outcome.eq_of_done? done)
  obtain ⟨-, ends⟩ := chains_end _ session [] _ logged running
  have last := ends _ machine carries
  obtain ⟨classes, upward⟩ := (last.given _ List.mem_cons_self).cls
  refine ⟨session, _, cls, machine, classes, logged, running, carries, last, upward, ?_⟩
  rw [← eq_of_beq named, ← upward.chain.lineage, List.map_map]
  rfl

end Session

end EventScript
