import EventScript.Proofs.Sequences.Calls
import EventScript.Proofs.Session.Chronicle

/-!
# Sequences in sessions

What a list or a string holds is what the operations have left that it was asked for, in whatever
variables and with whatever methods it was reached (`SequenceView.Replays`). This is a chronicle: a
call of a method does one operation, and nothing else that a session does concerns what is there
(`SequenceView.Lawful.chronicle`). So lists and strings are sequences that all who have hold of them
share (`Session.lists_and_strings_are_sequences`).
-/

namespace EventScript

open Run

/-- The operation that is asked for, of the object with the number. -/
def Occasion.operation? {α : Type} (view : SequenceView α) (ref : ℕ) :
    Occasion → Option (SequenceOp α)
  | ⟨.call (.builtin _ function (some object)) arguments _, machine⟩ =>
    if view.ref? object = some ref then view.asks? machine.heap function arguments else none
  | _ => none

/-- Only a call of a built-in function asks for an operation. -/
theorem Occasion.operation?_eq_none {α : Type} {view : SequenceView α} {ref : ℕ}
    {occasion : Occasion}
    (other : occasion.code.isBuiltin = false) : occasion.operation? view ref = none := by
  unfold operation?
  split
  · contradiction
  · rfl

namespace SequenceView

variable {α : Type} {view : SequenceView α} {history : List Occasion} {machine later : Machine}

/-- From any occasion on at which an object is there, the operations that it was asked for have left
what it holds. -/
def Replays (view : SequenceView α) (history : List Occasion) (machine : Machine) : Prop :=
  ∀ (early late : List Occasion) (occasion : Occasion) (ref : ℕ) (contents : List α),
    history = early ++ occasion :: late → view.contents? occasion.machine.heap ref = some contents →
    view.contents? machine.heap ref =
      some (SequenceOp.replay ((occasion :: late).filterMap (Occasion.operation? view ref))
        contents)

/-- One more occasion does the operation that it asks for, if it asks for one. -/
theorem Replays.snoc {kind : ResultKind} {code : Code kind} (replays : view.Replays history machine)
    (step : ∀ ref contents, view.contents? machine.heap ref = some contents →
      view.contents? later.heap ref = some
        (SequenceOp.replay (Occasion.operation? view ref ⟨code, machine⟩).toList contents)) :
    view.Replays (history ++ [⟨code, machine⟩]) later := by
  have one : ∀ ref, [(⟨code, machine⟩ : Occasion)].filterMap (Occasion.operation? view ref) =
      (Occasion.operation? view ref ⟨code, machine⟩).toList := fun _ => rfl
  intro early late occasion ref contents split present
  rcases late.eq_nil_or_concat with rfl | ⟨before, last, rfl⟩
  · -- The object is there when the new occasion comes.
    obtain ⟨-, same⟩ := List.append_inj' split rfl
    obtain rfl := (List.cons.inj same).1
    rw [step ref contents present, one]
  · rw [List.concat_eq_append, ← List.cons_append, ← List.append_assoc] at split
    obtain ⟨rfl, same⟩ := List.append_inj' split rfl
    obtain rfl := (List.cons.inj same).1
    have sofar := replays early before occasion ref contents rfl present
    rw [step ref _ sofar, ← SequenceOp.replay_append, List.concat_eq_append, ← List.cons_append,
      List.filterMap_append, one]

namespace Lawful

/-- The method that is called leaves what its operation leaves. -/
theorem does_leaves {function : Builtin} {object : Value} {ref length : ℕ} {arguments : List Value}
    {contents : List α} {operation : SequenceOp α} {outcome : Outcome Value}
    (present : view.contents? machine.heap ref = some contents)
    (does : view.Does function object ref arguments machine length (operation.apply contents)
      outcome) :
    outcome.Leaves fun later => view.contents? later.heap ref =
      some (operation.apply contents).2 := by
  cases does with
  | gives _ left => exact left
  | fails refused =>
    rw [SequenceOp.apply_of_fails (SequenceReply.fails_of_fault? refused)]
    exact present

/-- A call of a built-in function does the operation that it asks for, if it asks for one. -/
theorem call_replays (lawful : view.Lawful) {ref : ℕ} {contents : List α} (identity : ℕ)
    (function : Builtin) (receiver : Option Value) (arguments : List Value) (span : Span)
    (present : view.contents? machine.heap ref = some contents) :
    (function.call receiver arguments span machine).Leaves fun later =>
      view.contents? later.heap ref = some (SequenceOp.replay (Occasion.operation? view ref
        ⟨.call (.builtin identity function receiver) arguments span, machine⟩).toList
          contents) := by
  cases asked : Occasion.operation? view ref
      ⟨.call (.builtin identity function receiver) arguments span, machine⟩ with
  | none =>
    refine lawful.call_leaves span present ?_
    rintro object rfl isRef
    exact (if_pos isRef).symm.trans asked
  | some operation =>
    cases receiver with
    | none => contradiction
    | some object =>
      by_cases isRef : view.ref? object = some ref
      · have asks : view.asks? machine.heap function arguments = some operation :=
          (if_pos isRef).symm.trans asked
        exact does_leaves present (lawful.does span isRef present asks)
      · exact absurd ((if_neg isRef).symm.trans asked) nofun

/-- What sequences hold goes on being what the operations have left. -/
theorem chronicle (lawful : view.Lawful) : Session.Chronicle view.Replays where
  alone replays alone early late occasion ref contents split present :=
    lawful.kept alone.heap nofun (replays early late occasion ref contents split present)
  note := by
    intro history machine kind code other replays
    refine replays.snoc fun ref contents present => ?_
    rw [Occasion.operation?_eq_none other]
    exact present
  call identity function receiver arguments span replays := by
    cases ended : function.call receiver arguments span _ with
    | exhausted => trivial
    | done _ later | failed _ later =>
      refine replays.snoc fun ref contents present => ?_
      have left := lawful.call_replays identity function receiver arguments span present
      rw [ended] at left
      exact left
  new _ _ _ _ _ _ _ _ _ split := absurd split.symm (by simp)
  poll replays _ := replays
  report replays _ := replays

end Lawful

/-- Before the occasion, after the history, the objects of the view hold what their operations have
left. So they do when the code has ended. A call of a method is one of an object that is there, and
does the operation that it asks for. -/
structure Governs (view : SequenceView α) (history : List Occasion) (occasion : Occasion) :
    Prop where
  before : view.Replays history occasion.machine
  after : ∀ bound, (occasion.code.run bound occasion.machine).Leaves
    (view.Replays (history ++ occasion.code.trace bound occasion.machine))
  calls : ∀ (identity : ℕ) (function : Builtin) (object : Value) (arguments : List Value)
    (span : Span)
    (machine : Machine) (ref : ℕ) (operation : SequenceOp α),
    occasion = ⟨.call (.builtin identity function (some object)) arguments span, machine⟩ →
    view.ref? object = some ref → view.asks? machine.heap function arguments = some operation →
    ∃ contents, view.contents? machine.heap ref = some contents ∧ ∀ bound,
      view.Does function object ref arguments machine contents.length (operation.apply contents)
        ((Code.call (.builtin identity function (some object)) arguments span).run (bound + 1)
          machine)

end SequenceView

namespace Session

variable {α : Type} {view : SequenceView α} {admitted : Program → Prop} {session : Session}
variable {past front back : List Occasion} {occasion : Occasion}

/-- The objects of a lawful view are sequences in every session. -/
theorem governs (lawful : view.Lawful) (logged : session.Logged admitted past)
    (running : session.Stretch admitted (front ++ occasion :: back)) :
    view.Governs (past ++ front) occasion where
  before := (lawful.chronicle.told logged running).at
  after bound :=
    (lawful.chronicle.tells bound occasion.code (lawful.chronicle.told logged running).at).leaves
  calls := by
    rintro identity function object arguments span machine ref operation rfl isRef asks
    obtain ⟨ledger, _, accounts, vouches⟩ := running.exists_accounts logged
      (List.mem_append_right front List.mem_cons_self)
    -- The method is in hand, so its object is there.
    have method : ledger.Vouches (.builtin identity function (some object)) :=
      vouches _ List.mem_cons_self
    cases method with
    | intro _ _ _ receiver =>
      obtain ⟨contents, present⟩ :=
        lawful.stocked accounts.balances.heap (receiver object rfl) isRef
      exact ⟨contents, present, fun _ => lawful.does span isRef present asks⟩

/-- In every session, whatever programs it runs, lists are sequences of values and strings are
sequences of characters, which all values share that refer to the same one. Between the steps of the
session, wherever it comes to code and where this code ends, they hold what the operations have left
that were asked for since they were there. A call of a method of a list or a string that is there
does what the operation does that it asks for: the answer is that of the sequence, and no list, map
or string but its own object is changed. An index names the place that is left when its fraction is
dropped, if this place lies in the sequence, and infinities and NaN name none. What fails changes
nothing, and is a matter of types if the index is no number and else one of indices. -/
theorem lists_and_strings_are_sequences (admitted : Program → Prop) (session : Session)
    (past episode : List Occasion) (logged : session.Logged admitted past)
    (running : session.Stretch admitted episode) :
    (∀ front occasion back, episode = front ++ occasion :: back →
      listView.Governs (past ++ front) occasion ∧ stringView.Governs (past ++ front) occasion) ∧
    (listView.Replays past session.machine ∧ stringView.Replays past session.machine) ∧
    (∀ index length, ∀ place : Fin length, Number.place? index length = some place ↔
      ∃ value, Number.value? index = some value ∧ Number.towardZero value = place) ∧
    ∀ (α : Type) (reply : SequenceReply α) function shown length fault,
      reply.fault? function shown length = some fault →
        reply = .noNumber ∧ fault.kind = .type ∨
          (reply = .outside ∨ reply = .empty) ∧ fault.kind = .index := by
  refine ⟨?occasions, ?between, fun _ _ _ => Number.place?_eq_some, fun _ _ _ _ _ _ =>
    SequenceReply.kind_of_fault?⟩
  case occasions =>
    rintro front occasion back rfl
    exact ⟨governs listView_lawful logged running, governs stringView_lawful logged running⟩
  case between =>
    exact ⟨listView_lawful.chronicle.logged logged, stringView_lawful.chronicle.logged logged⟩

/-- A string is altered through another variable, by a method that is bound to it, at an index that
is not whole, and given itself. -/
theorem lists_and_strings_are_sequences_alias :
    ∃ (session : Session) (early late back : List Occasion) (one other : Occasion)
      (operation : SequenceOp Char),
      session.Logged (fun _ => True) [] ∧
        session.Stretch (fun _ => True) ((early ++ one :: late) ++ other :: back) ∧
        one.operation? stringView 0 = some operation ∧
        (operation.apply "ab".toList).2 = "abb".toList ∧
        SequenceOp.replay ((one :: late).filterMap (Occasion.operation? stringView 0)) "ab".toList =
          "abb".toList := by
  let session : Session := .new {} (.captured "") {} {} {}
  let source := "let s=\"ab\";let t=s;let f=t.alter;f(0.9,s);s.at(0);"
  have listed : (((session.trace 9 source).dropWhile (fun one =>
      !(one.machine.heap.strings.get? 0 == some "ab" &&
        (one.operation? stringView 0).any fun operation =>
          (operation.apply "ab".toList).2 == "abb".toList))).tail.any fun other =>
            other.machine.heap.strings.get? 0 == some "abb") = true := by
    decide +kernel
  obtain ⟨early, one, late, other, back, split, alters, altered⟩ := Occasion.exists_in_order listed
  have running : session.Stretch (fun _ => True) _ :=
    (Episode.of_source session 9 source (by simp [split])).stretch.mono fun _ _ => trivial
  rw [split] at running
  have logged : session.Logged (fun _ => True) [] := .new ..
  clear_value session source
  obtain ⟨held, asks⟩ := Bool.and_eq_true_iff.mp alters
  obtain ⟨operation, asked, does⟩ := (Option.any_eq_true _ _).mp asks
  have before : stringView.contents? one.machine.heap 0 = some "ab".toList :=
    congrArg (Option.map String.toList) (beq_iff_eq.mp held)
  have after : stringView.contents? other.machine.heap 0 = some "abb".toList :=
    congrArg (Option.map String.toList) (beq_iff_eq.mp altered)
  obtain ⟨occasions, -⟩ := lists_and_strings_are_sequences _ session [] _ logged running
  obtain ⟨-, strings⟩ := occasions (early ++ one :: late) other back rfl
  have replayed := strings.before early late one 0 "ab".toList rfl before
  exact ⟨session, early, late, back, one, other, operation, logged, running, asked,
    beq_iff_eq.mp does,
    Option.some.inj (replayed.symm.trans after)⟩

end Session

end EventScript
