import EventScript.Proofs.Maps.Accounting
import EventScript.Proofs.Maps.Matching
import EventScript.Proofs.Session.Logged

/-!
# Maps in sessions

The accounts of maps are in order whenever a session comes to code, and between its steps
(`Session.Moment.accounts`). So a map made by `map` is a finite mapping of keys to values, whatever
becomes of the strings and objects that were given as keys: `get` gives the value that was set last
for a key that matches, the keys of a map stand in the order in which they were first set, and each
is the key of the value that is kept with it (`Session.maps_hold_what_was_set`).
-/

namespace EventScript

open Run

variable {bound : Nat} {history : List Occasion} {machine : Machine}

/-- The accounts of maps after a history are in order. -/
def Machine.Accounted (history : List Occasion) (machine : Machine) : Prop :=
  ∃ ledger : Ledger, ledger.Accounts history machine

namespace Ledger

/-- Where accounts are closed, the machine that is left is accounted for. -/
theorem Closes.leaves {α : Type} {ledger : Ledger} {values : α → List Value} {outcome : Outcome α}
    (closes : ledger.Closes history values outcome) :
    outcome.Leaves (Machine.Accounted history) := by
  cases outcome with
  | exhausted => trivial
  | failed diagnostic after =>
    obtain ⟨later, -, accounts⟩ := closes
    exact ⟨later, accounts⟩
  | done result after =>
    obtain ⟨later, -, accounts, -⟩ := closes
    exact ⟨later, accounts⟩

/-- At first nothing has been given out. -/
def empty : Ledger where
  strings := 0
  kept _ := False
  stock := ⟨0, 0, 0⟩
  identities := 0
  bearer _ := .nil

/-- The empty ledger describes the empty heap. -/
theorem empty_describes : empty.Describes {} where
  strings := rfl
  stock := rfl
  identities := rfl
  maps := Store.all_empty
  others := ⟨Store.all_empty, Store.all_empty, Store.all_empty, Store.all_empty⟩

/-- Binding the built-in functions gives out a number for each. -/
theorem describes_installBuiltins {ledger : Ledger} {heap : Heap}
    (describes : ledger.Describes heap)
    (globals : Nat) : ∃ later : Ledger, later.Describes (Machine.installBuiltins heap globals) := by
  have install : ∀ (builtins : List Builtin) {ledger : Ledger} {heap : Heap},
    ledger.Describes heap →
      ∃ later : Ledger, later.Describes (builtins.foldl (fun heap builtin =>
        (heap.newBuiltin builtin none).2.define globals builtin.name
          (heap.newBuiltin builtin none).1) heap) := by
    intro builtins
    induction builtins with
    | nil => exact fun describes => ⟨_, describes⟩
    | cons first rest ih =>
      intro ledger heap describes
      have value : (ledger.addIdentity (.builtin heap.nextIdentity first none)).Vouches
          (.builtin heap.nextIdentity first none) :=
        vouches_addIdentity (by rw [← describes.identities]; rfl) nofun
      exact ih ((describes.newIdentity _).define globals first.name value)
  unfold Machine.installBuiltins
  exact install Builtin.globals describes

end Ledger

/-- A machine that has run nothing has no maps. -/
theorem Machine.accounted_new (settings : Settings) (sink : Sink) (console : Console)
    (clock : WallClock) : (Machine.new settings sink console clock).Accounted [] := by
  have outermost := Ledger.empty_describes.newScope none
  obtain ⟨ledger, describes⟩ :=
    Ledger.describes_installBuiltins outermost (({} : Heap).newScope none).1
  have events : (Machine.new settings sink console clock).events.All ledger.Vouches :=
    ⟨nofun, nofun⟩
  refine ⟨ledger, ⟨describes, events⟩, List.forall_mem_nil _, fun split => ?_⟩
  exact absurd split.symm (by simp)

/-- What is done around evaluation concerns no map. -/
theorem Machine.accounted_lasting (history : List Occasion) :
    Machine.Lasting (Machine.Accounted history) where
  same := fun _ ⟨ledger, accounts⟩ _ heap events => ⟨ledger, accounts.of_same heap events⟩
  arguments := fun payload machine ⟨ledger, accounts⟩ =>
    ((payload.arguments_handles [] ledger machine accounts.balances nofun).closes accounts).leaves

section Turns

variable {ledger : Ledger}

/-- Going back to the global scope leaves the accounts in order. -/
theorem Ledger.Accounts.toTopLevel (accounts : ledger.Accounts history machine) :
    ledger.Accounts history machine.toTopLevel := accounts.of_same rfl rfl

/-- Asking the event loop what to do next concerns no map, and gives only values that the machine
holds. -/
theorem Ledger.Accounts.poll {timed : Machine} {reading : Duration} {poll : Poll Value}
    {events : EventLoop Value} (accounts : ledger.Accounts history machine)
    (read : machine.readTime = (reading, timed))
    (polled : timed.events.poll reading = (poll, events)) :
    ledger.Accounts history { timed with events } ∧
      ∀ task, poll = .ready task → task.action.All ledger.Vouches := by
  obtain ⟨heap, same⟩ := Machine.readTime_same read
  have timed := accounts.of_same heap same
  obtain ⟨onward, ready⟩ := timed.balances.events.poll polled
  exact ⟨timed.step ledger.extends_refl ⟨timed.balances.heap, onward⟩ (Heap.keepsMaps_refl _),
    ready⟩

/-- The call at a turn is made with the accounts in order. -/
theorem Ledger.Accounts.turnCalls {callee : Value} {arguments : List Value} {started : Machine}
    (accounts : ledger.Accounts history machine)
    (calls : machine.TurnCalls callee arguments started) :
    ∃ later : Ledger, later.Accounts history started ∧
      ∀ value ∈ callee :: arguments, later.Vouches value := by
  cases calls with
  | intro read polled calls =>
    obtain ⟨asked, ready⟩ := accounts.poll read polled
    have vouches := ready _ rfl
    have topLevel := asked.toTopLevel
    generalize Task.action _ = action at calls vouches
    cases calls with
    | call =>
      refine ⟨ledger, topLevel, fun value member => ?_⟩
      rcases List.mem_cons.mp member with rfl | argument
      · exact vouches.1
      · exact vouches.2 value argument
    | @deliver result _ _ callback made =>
      have follows := result.arguments_handles [] ledger _ topLevel.balances nofun
      rw [made] at follows
      obtain ⟨later, goesOn, balances, kept, given⟩ := follows
      refine ⟨later, topLevel.step goesOn balances kept, fun value member => ?_⟩
      rcases List.mem_cons.mp member with rfl | argument
      · exact Ledger.Vouches.extend vouches goesOn
      · exact given value argument

end Turns

/-- What a turn comes to is accounted for. -/
theorem Machine.Accounted.turnTrace (accounted : machine.Accounted history) (bound : Nat) :
    Unfolds Occasion.Accounted history (machine.turnTrace bound) := by
  obtain ⟨ledger, accounts⟩ := accounted
  rcases machine.turnTrace_cases bound with nothing | ⟨callee, arguments, started, calls⟩
  · rw [nothing]
    trivial
  · obtain ⟨later, accounts, vouches⟩ := accounts.turnCalls calls
    rw [calls.trace_eq]
    exact (Code.accounts bound (.call callee arguments default) accounts vouches).unfolds

/-- A turn leaves the accounts in order. -/
theorem Machine.Accounted.turn {poll : Poll Value} {later : Machine}
    (accounted : machine.Accounted history)
    (turned : machine.turn bound = some (poll, later)) :
    later.Accounted (history ++ machine.turnTrace bound) := by
  obtain ⟨ledger, accounts⟩ := accounted
  refine (Machine.accounted_lasting _).turn ?_ ?_ turned
  · intro reading timed poll events read polled idle
    rw [Machine.turnTrace_of_idle idle, List.append_nil]
    exact ⟨ledger, (accounts.poll read polled).1⟩
  · intro callee arguments started calls
    obtain ⟨later, accounts, vouches⟩ := accounts.turnCalls calls
    rw [calls.trace_eq]
    exact (Code.accounts bound (.call callee arguments default) accounts vouches).closes.leaves

namespace Session

variable {session : Session} {past episode : List Occasion}

/-- The statements of a program are run with the accounts in order. -/
theorem accounts_body {program : Program} (accounted : session.machine.Accounted past)
    (bound : Nat) :
    ∃ ledger : Ledger, ledger.Keeps past
      ((Code.stmts program).trace bound session.machine.toTopLevel) (ResultKind.hand .flow)
      ((Code.stmts program).run bound session.machine.toTopLevel) := by
  obtain ⟨ledger, accounts⟩ := accounted
  exact ⟨ledger, Code.accounts bound (.stmts program) accounts.toTopLevel nofun⟩

variable {admitted : Program → Prop}

/-- Between the steps of a session the accounts are in order. -/
theorem Logged.accounted (logged : session.Logged admitted past) :
    session.machine.Accounted past := by
  induction logged with
  | new settings sink console clock host => exact Machine.accounted_new settings sink console clock
  | @body session past program bound _ _ _ ran ih =>
    obtain ⟨ledger, keeps⟩ := accounts_body ih bound
    exact (Machine.accounted_lasting _).runBody keeps.closes.leaves ran
  | turn _ turned ih => exact ih.turn turned
  | outside _ happens ih =>
    obtain ⟨ledger, accounts⟩ := ih
    have heap := happens.heap
    have events := happens.events accounts.balances.events
    have keeps := Heap.keepsMaps_of_same (congrArg Heap.maps heap)
    refine ⟨ledger, accounts.step ledger.extends_refl ⟨?_, events⟩ keeps⟩
    rw [heap]
    exact accounts.balances.heap
  | finish _ ih | exchange _ _ _ ih =>
    exact (Machine.accounted_lasting _).same _ ih _ rfl rfl

/-- The accounts were in order at all that a session has run. -/
theorem Logged.unfolds (logged : session.Logged admitted past) :
    Unfolds Occasion.Accounted [] past := by
  induction logged with
  | new => trivial
  | @body session past program bound _ logged _ _ ih =>
    obtain ⟨ledger, keeps⟩ := @accounts_body session past program logged.accounted bound
    exact ih.append keeps.unfolds
  | @turn _ _ bound _ _ logged _ ih => exact ih.append (logged.accounted.turnTrace bound)
  | outside _ _ ih | finish _ ih | exchange _ _ _ ih => exact ih

/-- What a session may run next is accounted for. -/
theorem Stretch.accounted (logged : session.Logged admitted past)
    (running : session.Stretch admitted episode) : Unfolds Occasion.Accounted past episode := by
  cases running with
  | @body program bound admits =>
    obtain ⟨ledger, keeps⟩ := accounts_body logged.accounted bound
    exact keeps.unfolds
  | turn bound => exact logged.accounted.turnTrace bound

/-- A moment in a session: what was run until then, the machine at that time, and the code that is
come to then, if it is not between two steps of the session. -/
inductive Moment : List Occasion → Machine → Option Occasion → Prop where
  | between {session : Session} {past : List Occasion} (recorded : session.Recorded past) :
      Moment past session.machine none
  | within {session : Session} {past front back : List Occasion} {occasion : Occasion}
      (recorded : session.Recorded past) (running : session.Episode (front ++ occasion :: back)) :
      Moment (past ++ front) occasion.machine (some occasion)

/-- At every moment the accounts are in order. -/
theorem Moment.accounts {coming : Option Occasion} (moment : Moment history machine coming) :
    ∃ ledger : Ledger, ledger.Accounts history machine ∧
      ∀ occasion ∈ coming, ∀ value ∈ occasion.code.hand, ledger.Vouches value := by
  cases moment with
  | between recorded =>
    obtain ⟨ledger, accounts⟩ := recorded.logged.accounted
    exact ⟨ledger, accounts, fun occasion member => absurd member (Option.not_mem_none occasion)⟩
  | within recorded running =>
    obtain ⟨ledger, accounts, vouches⟩ := (running.stretch.accounted recorded.logged).at
    refine ⟨ledger, accounts, fun occasion member => ?_⟩
    rw [← Option.some.inj member]
    exact vouches

end Session

/-! ## What maps give -/

/-- Every entry of every map stands under the key of the value that is kept as its key. -/
def Heap.KeysFit (heap : Heap) : Prop :=
  heap.maps.All fun content => ∀ entry ∈ content.entries, entry.1 = heap.keyOf entry.2.1

/-- The value that was set last for a key that matches the given one, or `nil` if there is none. -/
inductive Answers (history : List Occasion) (ref : Nat) (key : Value) (heap : Heap) :
    Value → Prop where
  | found {front back : List Occasion} {set : Occasion} {given value : Value}
      (split : history = front ++ set :: back) (sets : set.Sets ref given value)
      (same : given.Matches set.machine.heap key heap)
      (latest : ∀ other ∈ back, ∀ given value, other.Sets ref given value →
        ¬given.Matches other.machine.heap key heap) : Answers history ref key heap value
  | nothing (never : ∀ other ∈ history, ∀ given value, other.Sets ref given value →
      ¬given.Matches other.machine.heap key heap) : Answers history ref key heap .nil

section Answers

variable {ledger : Ledger} {late : List Occasion} {ref : Nat} {key : Value}

/-- What a call of `set` files under another key is for a key that does not match. -/
theorem Ledger.not_matches
    (vouches : ∀ occasion ∈ late, ∀ value ∈ occasion.code.hand, ledger.Vouches value)
    (own : ledger.Vouches key) {heap : Heap} {filings : List (MapKey × Value)}
    (filed : Occasion.filings ref late = filings)
    (others : ∀ entry ∈ filings, entry.1 ≠ heap.keyOf key) :
    ∀ other ∈ late, ∀ given value, other.Sets ref given value →
      ¬given.Matches other.machine.heap key heap := by
  intro other member given value sets same
  have filing : other.filing? ref = some (other.machine.heap.keyOf given, value) :=
    Occasion.filing?_eq_some.mpr ⟨given, sets, rfl⟩
  have entry : (other.machine.heap.keyOf given, value) ∈ filings :=
    filed ▸ List.mem_filterMap.mpr ⟨other, member, filing⟩
  have given : ledger.Vouches given := vouches other member _ sets.mem_hand
  exact others _ entry ((Ledger.keyOf_eq_iff given own _ _).mpr same)

/-- What is found in a map under the key of a value is the answer for that value. -/
theorem Ledger.answers
    (vouches : ∀ occasion ∈ late, ∀ value ∈ occasion.code.hand, ledger.Vouches value)
    (own : ledger.Vouches key) (heap : Heap) :
    Answers late ref key heap
      (((OrderedMap.ofList (Occasion.filings ref late)).find? (heap.keyOf key)).getD .nil) := by
  have last := OrderedMap.find?_ofList (Occasion.filings ref late) (heap.keyOf key)
  cases found : (OrderedMap.ofList (Occasion.filings ref late)).find? (heap.keyOf key) with
  | none =>
    rw [found] at last
    exact .nothing (Ledger.not_matches vouches own rfl last)
  | some value =>
    rw [found] at last
    obtain ⟨early, others, split, different⟩ := last
    obtain ⟨before, after, rfl, -, filed⟩ := List.filterMap_eq_append_iff.mp split
    obtain ⟨between, set, back, rfl, -, filing, filed⟩ := List.filterMap_eq_cons_iff.mp filed
    obtain ⟨given, sets, same⟩ := Occasion.filing?_eq_some.mp filing
    have vouchesBack : ∀ occasion ∈ back, ∀ value ∈ occasion.code.hand, ledger.Vouches value :=
      fun occasion member => vouches occasion (by simp [member])
    have vouchesGiven : ledger.Vouches given := vouches set (by simp) _ sets.mem_hand
    have matching : given.Matches set.machine.heap key heap :=
      (Ledger.keyOf_eq_iff vouchesGiven own _ _).mp same.symm
    have latest := Ledger.not_matches vouchesBack own filed different
    have split := List.append_assoc before between (set :: back)
    exact .found split.symm sets matching latest

end Answers

/-- A call of `get` gives what is found under the key that the value has then. -/
theorem Code.run_mapGet (identity ref : Nat) (key : Value) (span : Span) (bound : Nat)
    (machine : Machine) :
    (Code.call (.builtin identity .mapGet (some (.map ref))) [key] span).run (bound + 1) machine =
      .done (((machine.heap.filed ref).find? (machine.heap.keyOf key)).getD .nil) machine := by
  have get : (Code.call (.builtin identity .mapGet (some (.map ref))) [key] span).run (bound + 1)
    machine =
      Builtin.callMapGet (some (.map ref)) key machine := rfl
  have receiver : Builtin.mapReceiver .mapGet (some (.map ref)) machine = .done ref machine := rfl
  have heap : Run.heap machine = .done machine.heap machine := rfl
  rw [get, Builtin.callMapGet, bind_done receiver, bind_done heap, Heap.filed,
    OrderedMap.find?_mapValues]
  cases (machine.heap.content ref).find? (machine.heap.keyOf key) <;> rfl

/-- In every state of a session the entries of maps stand under the keys of the values that are kept
with them. The keys of a map made by `map` are those under which something was set, in the order in
which each was first set, and a call of `get` gives what was set last for a key that matches. -/
theorem Session.maps_hold_what_was_set {coming : Option Occasion}
    (moment : Moment history machine coming) :
    machine.heap.KeysFit ∧
      ∀ (early late : List Occasion) (create : Occasion) (ref : Nat),
        history = early ++ create :: late → create.MakesMap ref →
          (machine.heap.content ref).keys = ((Occasion.filings ref late).map Prod.fst).eraseDups ∧
            ∀ (identity : Nat) (key : Value) (span : Span),
              coming = some ⟨.call (.builtin identity .mapGet (some (.map ref))) [key] span,
                machine⟩ →
                ∀ bound, ∃ value, Answers late ref key machine.heap value ∧
                  (Code.call (.builtin identity .mapGet (some (.map ref))) [key] span).run
                    (bound + 1) machine = .done value machine := by
  obtain ⟨ledger, accounts, inHand⟩ := moment.accounts
  have keysFit : machine.heap.KeysFit := accounts.balances.heap.maps.mono
    fun content files entry member => (files entry member).key
  refine ⟨keysFit, ?_⟩
  intro early late create ref split makes
  obtain ⟨-, filed⟩ := accounts.filed split makes
  constructor
  · rw [← OrderedMap.keys_ofList, ← filed]
    exact (OrderedMap.keys_mapValues _ _).symm
  · rintro identity key span rfl bound
    have own : ledger.Vouches key := inHand _ rfl key (by simp [Code.hand])
    have vouches : ∀ occasion ∈ late, ∀ value ∈ occasion.code.hand, ledger.Vouches value :=
      fun occasion member => accounts.handled occasion (by simp [split, member])
    refine ⟨_, ?_, Code.run_mapGet identity ref key span bound machine⟩
    rw [filed]
    exact Ledger.answers vouches own machine.heap

/-- A string that was given as a key may be altered. What was set is found under what it was. -/
theorem Session.maps_hold_what_was_set_altered :
    ∃ (early late : List Occasion) (create : Occasion) (machine : Machine) (identity : Nat)
      (key value : Value) (span : Span), create.MakesMap 0 ∧
        Moment (early ++ create :: late) machine
          (some ⟨.call (.builtin identity .mapGet (some (.map 0))) [key] span, machine⟩) ∧
        Answers late 0 key machine.heap value ∧ value.isTruthy = true := by
  let session : Session := .new {} (.captured "") {} {} {}
  let source := "let k=\"a\";let m=map();m.set(k,true);k.alter(0,\"b\");m.get(\"a\");"
  have listed : (((session.trace 9 source).dropWhile (!·.made? == some 0)).tail.any fun get =>
      (get.asked? 0).any fun key =>
        ((get.machine.heap.filed 0).find? (get.machine.heap.keyOf key)).any Value.isTruthy) =
          true := by
    decide +kernel
  obtain ⟨early, create, late, get, back, split, creates, gets⟩ := Occasion.exists_in_order listed
  have running := Episode.of_source session 9 source (by simp [split])
  rw [split] at running
  have moment : Moment ([] ++ (early ++ create :: late)) get.machine (some get) :=
    .within (.new ..) running
  clear_value session source
  have makes : create.MakesMap 0 := Occasion.made?_eq_some.mp (beq_iff_eq.mp creates)
  obtain ⟨key, asked, found⟩ := (Option.any_eq_true _ _).mp gets
  obtain ⟨identity, span, machine, rfl⟩ := Occasion.asked?_eq_some.mp asked
  obtain ⟨set, isSet, isTrue⟩ := (Option.any_eq_true _ _).mp found
  obtain ⟨-, laws⟩ := maps_hold_what_was_set moment
  obtain ⟨-, gives⟩ := laws early late create 0 rfl makes
  obtain ⟨value, answers, ran⟩ := gives identity key span rfl 0
  rw [Code.run_mapGet, isSet] at ran
  obtain rfl : set = value := (Outcome.done.inj ran).1
  exact ⟨early, late, create, machine, identity, key, set, span, makes, moment, answers, isTrue⟩

end EventScript
