import EventScript.Proofs.Evaluation.Handling
import EventScript.Proofs.Evaluation.Receiving

/-!
# What built-in functions handle

A built-in function handles its object and its arguments, and what it finds in lists and maps. It
alters a string only through a value that refers to it. All of them but `set` of maps leave the maps
that there are as they are (`Builtin.call_handles`). The arguments of a callback are new values, and
the map of headers among them keeps its keys to itself (`Payload.arguments_handles`).
-/

namespace EventScript

open Run

namespace Builtin

variable {hand : List Value} {ledger : Ledger} {machine : Machine}

/-! ## Looking at arguments -/

/-- Displaying a value only reads. -/
theorem display_reads (value : Value) : (display value).Reads := fun _ => rfl

/-- Expecting a string only reads. -/
theorem expectString_reads (function : Builtin) (value : Value) :
    (expectString function value).Reads := by
  unfold expectString
  split
  · exact Reads.heap.bind fun _ => .pure _
  · exact .fault _

/-- Expecting a callback only reads. -/
theorem expectCallback_reads (function : Builtin) (value : Value) :
    (expectCallback function value).Reads := by
  unfold expectCallback
  split
  · exact .pure _
  · split
    · exact .pure _
    · exact .fault _

/-- A callback is the argument itself. -/
theorem expectCallback_vouches {function : Builtin} {value : Value} {callback : Option Value}
    (vouches : ledger.Vouches value)
    (expected : expectCallback function value machine = .done callback machine) :
    ∀ callee ∈ callback, ledger.Vouches callee := by
  unfold expectCallback at expected
  split at expected
  · obtain ⟨rfl, -⟩ := Outcome.done.inj expected
    exact nofun
  · split at expected
    · obtain ⟨rfl, -⟩ := Outcome.done.inj expected
      exact fun callee member => Option.some.inj member ▸ vouches
    · contradiction

/-- Expecting an index only reads. -/
theorem expectIndex_reads (function : Builtin) (value : Value) (length : Nat) :
    (expectIndex function value length).Reads := by
  unfold expectIndex
  split
  · exact (display_reads value).bind fun _ => .fault _
  · split
    · exact .pure _
    · exact (display_reads value).bind fun _ => .fault _

/-- Finding out the receiver of a built-in method only reads. -/
theorem Receives.reads {function : Builtin} {type : String} {own : Nat → Value}
    {receiver : Option Value}
    {run : Run Nat} (receives : function.Receives type own receiver run) : run.Reads := by
  cases receives with
  | found => exact .pure _
  | missing | wrong => exact .fault _

/-- Expecting headers only reads. -/
theorem expectHeaders_reads (value : Value) : (expectHeaders value).Reads := by
  unfold expectHeaders
  split
  · exact .pure _
  · exact Reads.heap.bind fun _ => .pure _
  · exact .fault _

/-! ## Global functions -/

/-- Reading the time deals only with values that it has in hand. -/
theorem readTime_handles : readTime.Handles hand fun _ => [] := by
  intro ledger machine balances _
  unfold readTime Machine.readTime
  cases machine.events.clock <;>
    exact ⟨ledger, ledger.extends_refl, balances.of_same rfl rfl,
      machine.heap.keepsMaps_refl, nofun⟩

/-- Taking a line of input deals only with values that it has in hand. -/
theorem takeLine_handles : takeLine.Handles hand fun _ => [] :=
  fun ledger machine balances _ =>
    ⟨ledger, ledger.extends_refl, balances.of_same rfl rfl, machine.heap.keepsMaps_refl, nofun⟩

/-- Asking for a line of input deals only with values that it has in hand. -/
theorem callInput_handles (prompt : Value) :
    (callInput prompt).Handles hand fun value => [value] := by
  refine (display_reads prompt).handles_bind fun text => ?_
  refine Handles.bind (handles_modify (fun _ => rfl) fun _ _ all _ => all) fun _ => ?_
  refine takeLine_handles.bind fun line => ?_
  split
  · exact handles_pure (by simp)
  · exact handles_fault _
  · exact newString_handles _

/-- Asking for the time deals only with values that it has in hand. -/
theorem callClock_handles : callClock.Handles hand fun value => [value] := by
  refine Handles.bind (handles_modify (fun _ => rfl) fun _ _ all _ => all) fun _ => ?_
  exact Reads.machine.handles_bind fun _ => handles_pure (by simp)

/-- A timer gets its callback, which is one of the two arguments. -/
theorem callDelay_handles (first second : Value) :
    (callDelay first second).Handles [first, second] fun value => [value] := by
  have chosen : (if first.isCallable then (second, first) else (first, second)).2 ∈
      [first, second] := by
    split <;> simp
  unfold callDelay
  generalize (if first.isCallable then (second, first) else (first, second)) = pair at chosen ⊢
  obtain ⟨milliseconds, callback⟩ := pair
  dsimp only at chosen ⊢
  split
  · exact handles_fault _
  · split
    · exact handles_fault _
    · split
      · exact handles_fault _
      · refine readTime_handles.bind fun reading => ?_
        refine Handles.bind (handles_modify (fun _ => rfl) ?_) fun _ => handles_pure (by simp)
        exact fun ledger machine all vouches => all.schedule _ _ (vouches callback chosen)

/-- An operation gets its callback. -/
theorem launch_handles (function : Builtin) (span : Span) (callback : Option Value) (job : Job) :
    (launch function span callback job).Handles callback.toList fun value => [value] := by
  refine Handles.bind (handles_modify (fun _ => rfl) ?_) fun _ => handles_pure (by simp)
  exact fun ledger machine all vouches => all.begin _ _ fun value member =>
    vouches value (Option.mem_toList.mpr member)

/-- What is launched with a callback that is an argument. -/
theorem expectCallback_handles (function : Builtin) (callback : Value) :
    (expectCallback function callback).Handles [callback] Option.toList := by
  intro ledger machine balances vouches
  refine (expectCallback_reads function callback).follows balances fun found expected => ?_
  intro value member
  exact expectCallback_vouches (vouches callback List.mem_cons_self) expected value
    (Option.mem_toList.mp member)

/-- Beginning to read a file deals only with values that it has in hand. -/
theorem callRead_handles (span : Span) (path callback : Value) :
    (callRead span path callback).Handles [callback] fun value => [value] := by
  refine (expectString_reads _ _).handles_bind fun _ => ?_
  refine (expectCallback_handles _ _).bind fun found => ?_
  exact (launch_handles _ _ _ _).mono (List.subset_append_left _ _)

/-- Beginning to write a file deals only with values that it has in hand. -/
theorem callWrite_handles (span : Span) (path mode data callback : Value) :
    (callWrite span path mode data callback).Handles [callback] fun value => [value] := by
  refine (expectString_reads _ _).handles_bind fun _ => ?_
  refine (expectString_reads _ _).handles_bind fun modeName => ?_
  split
  · exact handles_fault _
  · refine (display_reads data).handles_bind fun _ => ?_
    refine (expectCallback_handles _ _).bind fun found => ?_
    exact (launch_handles _ _ _ _).mono (List.subset_append_left _ _)

/-- Beginning a request deals only with values that it has in hand. -/
theorem callRequest_handles (span : Span) (url body headers method callback : Value) :
    (callRequest span url body headers method callback).Handles [callback] fun value =>
      [value] := by
  have text : (some <$> display body).Reads := (display_reads body).bind fun _ => .pure _
  refine (expectString_reads _ _).handles_bind fun _ => ?_
  dsimp only
  split
  case' isTrue => refine (Reads.pure none).handles_bind fun _ => ?_
  case' isFalse => refine text.handles_bind fun _ => ?_
  all_goals
    refine (expectHeaders_reads headers).handles_bind fun _ => ?_
    refine (expectString_reads _ _).handles_bind fun _ => ?_
    refine Reads.machine.handles_bind fun _ => ?_
    split
    · refine (expectCallback_handles _ _).bind fun found => ?_
      exact (launch_handles _ _ _ _).mono (List.subset_append_left _ _)
    · exact handles_fault _

/-! ## Methods of strings and lists -/

/-- Reading a character of a string deals only with values that it has in hand. -/
theorem callStringAt_handles (receiver : Option Value) (index : Value) :
    (callStringAt receiver index).Handles hand fun value => [value] := by
  refine (stringReceiver_receives _ _).reads.handles_bind fun _ => ?_
  refine Reads.heap.handles_bind fun _ => ?_
  exact (expectIndex_reads _ _ _).handles_bind fun _ => newString_handles _

/-- A string is altered only by who has it. -/
theorem callStringAlter_handles (receiver : Option Value) (index replacement : Value) :
    (callStringAlter receiver index replacement).Handles receiver.toList fun value => [value] := by
  intro ledger machine balances vouches
  refine (stringReceiver_receives _ _).reads.follows_bind balances fun ref found => ?_
  obtain rfl := (stringReceiver_receives _ _).of_done found
  have own : ledger.Vouches (.string ref) := vouches _ List.mem_cons_self
  refine Reads.heap.follows_bind balances fun _ _ => ?_
  refine (expectIndex_reads _ _ _).follows_bind balances fun _ _ => ?_
  refine (display_reads _).follows_bind balances fun _ _ => ?_
  exact Ledger.follows_heap balances (balances.heap.setText own _) rfl (by simp)

/-- Asking for the length of a string deals only with values that it has in hand. -/
theorem callStringLength_handles (receiver : Option Value) :
    (callStringLength receiver).Handles hand fun value => [value] := by
  refine (stringReceiver_receives _ _).reads.handles_bind fun _ => ?_
  exact Reads.heap.handles_bind fun _ => handles_pure (by simp)

/-- Reading an item of a list deals only with values that it has in hand. -/
theorem callListAt_handles (receiver : Option Value) (index : Value) :
    (callListAt receiver index).Handles hand fun value => [value] := by
  intro ledger machine balances _
  refine (listReceiver_receives _ _).reads.follows_bind balances fun ref _ => ?_
  refine Reads.heap.follows_bind balances fun heap read => ?_
  obtain ⟨rfl, -⟩ := Outcome.done.inj read
  refine (expectIndex_reads _ _ _).follows_bind balances fun position _ => ?_
  refine Ledger.follows_done balances fun value member => ?_
  rw [List.mem_singleton.mp member]
  cases present : (machine.heap.items ref)[position]? with
  | none => exact Ledger.vouches_nil
  | some item => exact balances.heap.others.items ref item (Array.mem_of_getElem? present)

/-- Replacing an item of a list deals only with values that it has in hand. -/
theorem callListAlter_handles (receiver : Option Value) (index item : Value) :
    (callListAlter receiver index item).Handles [item] fun value => [value] := by
  intro ledger machine balances vouches
  refine (listReceiver_receives _ _).reads.follows_bind balances fun ref _ => ?_
  refine Reads.heap.follows_bind balances fun _ _ => ?_
  refine (expectIndex_reads _ _ _).follows_bind balances fun position _ => ?_
  refine Ledger.follows_heap balances (balances.heap.modifyItems ref ?_) rfl (by simp)
  intro items stored other member
  rcases Array.mem_or_eq_of_mem_setIfInBounds member with old | rfl
  · exact stored other old
  · exact vouches _ List.mem_cons_self

/-- Asking for the length of a list deals only with values that it has in hand. -/
theorem callListLength_handles (receiver : Option Value) :
    (callListLength receiver).Handles hand fun value => [value] := by
  refine (listReceiver_receives _ _).reads.handles_bind fun _ => ?_
  exact Reads.heap.handles_bind fun _ => handles_pure (by simp)

/-- Adding an item to a list deals only with values that it has in hand. -/
theorem callListPush_handles (receiver : Option Value) (item : Value) :
    (callListPush receiver item).Handles [item] fun value => [value] := by
  intro ledger machine balances vouches
  refine (listReceiver_receives _ _).reads.follows_bind balances fun ref _ => ?_
  refine Ledger.follows_heap balances (balances.heap.modifyItems ref ?_) rfl (by simp)
  intro items stored other member
  rcases Array.mem_push.mp member with old | rfl
  · exact stored other old
  · exact vouches _ List.mem_cons_self

/-- Taking an item off a list deals only with values that it has in hand. -/
theorem callListPop_handles (receiver : Option Value) :
    (callListPop receiver).Handles hand fun value => [value] := by
  intro ledger machine balances _
  refine (listReceiver_receives _ _).reads.follows_bind balances fun ref _ => ?_
  refine Reads.heap.follows_bind balances fun heap read => ?_
  obtain ⟨rfl, -⟩ := Outcome.done.inj read
  cases found : machine.heap.lastItem? ref with
  | none => exact Ledger.follows_raise balances _
  | some last =>
    have vouches : ledger.Vouches last :=
      balances.heap.others.items ref last (Array.mem_of_back? found)
    refine Ledger.follows_heap balances (balances.heap.modifyItems ref ?_) rfl
      (by simpa using vouches)
    intro items stored other member
    have inRest : other ∈ items.toList.dropLast := by
      rw [← Array.toList_pop]
      exact Array.mem_toList_iff.mpr member
    have inItems : other ∈ items.toList := List.dropLast_subset _ inRest
    exact stored other (Array.mem_toList_iff.mp inItems)

/-! ## Maps -/

/-- Looking up a key of a map deals only with values that it has in hand. -/
theorem callMapGet_handles (receiver : Option Value) (key : Value) :
    (callMapGet receiver key).Handles hand fun value => [value] := by
  intro ledger machine balances _
  refine (mapReceiver_receives _ _).reads.follows_bind balances fun ref _ => ?_
  refine Reads.heap.follows_bind balances fun heap read => ?_
  obtain ⟨rfl, -⟩ := Outcome.done.inj read
  cases found : (machine.heap.content ref).find? (machine.heap.keyOf key) with
  | none => exact Ledger.follows_done balances (by simp)
  | some pair => exact Ledger.follows_done balances (by simpa using balances.heap.found found)

/-- Making a map deals only with values that it has in hand. -/
theorem newMap_handles : (create fun heap => heap.newMap {}).Handles hand fun value => [value] :=
  fun _ machine balances _ =>
    Ledger.follows_new balances (balances.heap.newMap nofun) (machine.heap.keepsMaps_newMap _)

/-- Making a list deals only with values that it has in hand. -/
theorem newList_handles (items : List Value) :
    (create fun heap => heap.newList items.toArray).Handles items fun value => [value] := by
  intro ledger machine balances vouches
  have made := balances.heap.newList fun item member => vouches item (List.mem_toArray.mp member)
  exact Ledger.follows_new balances made (Heap.keepsMaps_of_same rfl)

/-- Calling `set` without a map or with other than two arguments fails. -/
theorem call_mapSet_cases (receiver : Option Value) (arguments : List Value) (span : Span) :
    (∃ ref key value, receiver = some (.map ref) ∧ arguments = [key, value]) ∨
      (call mapSet receiver arguments span).Handles hand fun value => [value] := by
  match arguments with
  | [key, value] =>
    have same : call mapSet receiver [key, value] span = callMapSet receiver key value := rfl
    cases receiver with
    | none => exact .inr (handles_fault _)
    | some receiver =>
      cases receiver with
      | map ref => exact .inl ⟨ref, key, value, rfl, rfl⟩
      | _ => exact .inr (handles_fault _)
  | [] => exact .inr (handles_faultAt _ _)
  | [_] => exact .inr (handles_faultAt _ _)
  | _ :: _ :: _ :: rest =>
    refine .inr ?_
    have many : 2 ≠ rest.length + 3 := by omega
    simp only [call, arity, List.length_cons]
    rw [if_neg many]
    exact handles_faultAt _ _

/-- A string is copied before it is kept as a key. -/
theorem keptKey_done (balances : ledger.Balances machine) (key : Value) {value : Value}
    (vouches : ledger.Vouches value) :
    ∃ kept heap, ∃ later : Ledger, keptKey key machine = .done kept { machine with heap } ∧
      ledger.Extends later ∧ later.Balances { machine with heap } ∧ heap.maps = machine.heap.maps ∧
      heap.keyOf kept = machine.heap.keyOf key ∧
      later.Files heap (heap.keyOf kept, kept, value) := by
  cases key with
  | string ref =>
    have goesOn := ledger.extends_addString True
    have describes := balances.heap.newString True (machine.heap.text ref)
    have balances' := balances.withHeap goesOn describes
    have sameKey := congrArg MapKey.string (machine.heap.text_newString_self
      (machine.heap.text ref))
    refine ⟨.string machine.heap.strings.size, _, ledger.addString True, rfl, goesOn, balances',
      rfl, sameKey, rfl, ?_, vouches.extend goesOn⟩
    intro other same
    obtain rfl := Value.string.inj same
    rw [balances.heap.strings]
    exact ⟨Nat.lt_succ_self _, (if_pos rfl).mpr trivial⟩
  | _ =>
    exact ⟨_, machine.heap, ledger, rfl, ledger.extends_refl, balances, rfl, rfl, rfl, nofun,
      vouches⟩

/-- Setting the value for a key changes the content of the map, and leaves all that the machine
holds as a later ledger says. -/
theorem callMapSet_done (balances : ledger.Balances machine) (ref : Nat) (key : Value)
    {value : Value}
    (vouches : ledger.Vouches value) :
    ∃ kept after, ∃ later : Ledger,
      callMapSet (some (.map ref)) key value machine = .done .nil after ∧
      ledger.Extends later ∧ later.Balances after ∧
      after.heap.maps = machine.heap.maps.modify ref fun content =>
        content.insert (machine.heap.keyOf key) (kept, value) := by
  obtain ⟨kept, heap, later, ran, goesOn, balances, maps, sameKey, files⟩ :=
    keptKey_done balances key vouches
  have describes := balances.heap.insertContent ref files
  refine ⟨kept, _, later, ?_, goesOn, balances.withHeap later.extends_refl describes, ?_⟩
  · show ((keptKey key >>= _) machine : Outcome Value) = _
    rw [bind_done ran]
    rfl
  · show heap.maps.modify ref _ = _
    rw [maps, sameKey]

/-- What a built-in function performs deals only with values that it has in hand. -/
theorem perform_handles (function : Builtin) (other : function ≠ mapSet) (receiver : Option Value)
    (arguments : List Value) (span : Span) :
    (function.perform receiver arguments span).Handles (receiver.toList ++ arguments)
      fun value => [value] := by
  have given : ∀ {value : Value}, value ∈ arguments → [value] ⊆ receiver.toList ++ arguments :=
    fun inHand => Plan.alone_inHand (List.mem_append_right _ inHand)
  unfold perform
  split
  · exact callInput_handles _
  · exact callClock_handles
  · exact (callDelay_handles _ _).mono (List.subset_append_right _ _)
  · exact (callRead_handles span _ _).mono (given (by simp))
  · exact (callWrite_handles span _ _ _ _).mono (given (by simp))
  · exact (callRequest_handles span _ _ _ _ _).mono (given (by simp))
  · exact (display_reads _).handles_bind fun _ => newString_handles _
  · exact (newList_handles _).mono (List.subset_append_right _ _)
  · exact newMap_handles.mono (List.nil_subset _)
  · exact callStringAt_handles receiver _
  · exact (callStringAlter_handles receiver _ _).mono (List.subset_append_left _ _)
  · exact callStringLength_handles receiver
  · exact callListAt_handles receiver _
  · exact (callListAlter_handles receiver _ _).mono (given (by simp))
  · exact callListLength_handles receiver
  · exact (callListPush_handles receiver _).mono (given (by simp))
  · exact callListPop_handles receiver
  · exact callMapGet_handles receiver _
  · contradiction
  · exact handles_fault _

/-- But for setting a value in a map, a built-in function handles only its object and its
arguments. -/
theorem call_handles (function : Builtin) (receiver : Option Value) (arguments : List Value)
    (span : Span)
    (other : ¬∃ ref key value, function = mapSet ∧ receiver = some (.map ref) ∧
      arguments = [key, value]) :
    (function.call receiver arguments span).Handles (receiver.toList ++ arguments)
      fun value => [value] := by
  by_cases sets : function = mapSet
  · subst sets
    rcases call_mapSet_cases receiver arguments span with ⟨ref, key, value, same⟩ | handles
    · exact absurd ⟨ref, key, value, rfl, same⟩ other
    · exact handles
  · unfold call
    split
    · split
      · exact perform_handles function sets receiver arguments span
      · exact handles_faultAt _ _
    · exact perform_handles function sets receiver arguments span

end Builtin

/-! ## The arguments of callbacks -/

/-- The strings for a header of a response. -/
def headerStrings (header : String × String) : Run (Value × Value) := do
  let name ← create fun heap => heap.newString header.1
  let value ← create fun heap => heap.newString header.2
  return (name, value)

/-- The names of headers are kept as keys from the first. -/
theorem headerStrings_done (header : String × String) {ledger : Ledger} {machine : Machine}
    (balances : ledger.Balances machine) :
    ∃ name value after, ∃ later : Ledger,
      headerStrings header machine = .done (.string name, value) after ∧ ledger.Extends later ∧
      later.Balances after ∧ machine.heap.KeepsMaps after.heap ∧
      (name < later.strings ∧ later.kept name) ∧ later.Vouches value := by
  have goesOn := (ledger.extends_addString True).trans (Ledger.extends_addString _ False)
  have describes := (balances.heap.newString True header.1).newString False header.2
  have same : (machine.heap.newString header.1).2.strings.size = (ledger.addString True).strings :=
    (balances.heap.newString True header.1).strings
  have isKept : ((ledger.addString True).addString False).kept ledger.strings := by
    have kept := (ledger.addString True).extends_addString False
    exact (kept.kept _ (Nat.lt_succ_self _)).mpr ((if_pos rfl).mpr trivial)
  have inside : ledger.strings < ((ledger.addString True).addString False).strings :=
    Nat.lt_succ_of_lt (Nat.lt_succ_self _)
  have vouches := (ledger.addString True).vouches_addString
  refine ⟨ledger.strings, .string (ledger.addString True).strings, _, _, ?_, goesOn,
    balances.withHeap goesOn describes, Heap.keepsMaps_of_same rfl, ⟨inside, isKept⟩, vouches⟩
  rw [← balances.heap.strings, ← same]
  rfl

/-- The strings of the headers are made one after another, and a later ledger vouches for them. -/
theorem headers_done (headers : List (String × String)) {ledger : Ledger} {machine : Machine}
    (balances : ledger.Balances machine) :
    ∃ pairs after, ∃ later : Ledger, headers.mapM headerStrings machine = .done pairs after ∧
      ledger.Extends later ∧ later.Balances after ∧ machine.heap.KeepsMaps after.heap ∧
      ∀ pair ∈ pairs, (∀ ref, pair.1 = .string ref → ref < later.strings ∧ later.kept ref) ∧
        later.Vouches pair.2 := by
  induction headers generalizing ledger machine with
  | nil =>
    exact ⟨[], machine, ledger, rfl, ledger.extends_refl, balances,
      machine.heap.keepsMaps_refl, nofun⟩
  | cons header rest ih =>
    obtain ⟨name, value, middle, named, made, goesOn, balances, kept, isKept, vouches⟩ :=
      headerStrings_done header balances
    obtain ⟨pairs, after, later, ran, further, balances, keptRest, files⟩ := ih balances
    refine ⟨(.string name, value) :: pairs, after, later, ?_, goesOn.trans further, balances,
      kept.trans keptRest, ?_⟩
    · rw [List.mapM_cons, bind_done made, bind_done ran]
      rfl
    · intro pair member
      rcases List.mem_cons.mp member with rfl | inRest
      · refine ⟨fun ref same => ?_, vouches.extend further⟩
        obtain rfl := Value.string.inj same
        obtain ⟨inside, kept⟩ := isKept
        have stillKept := (further.kept _ inside).mpr kept
        exact ⟨Nat.lt_of_lt_of_le inside further.strings, stillKept⟩
      · exact files pair inRest

/-- The class of a response. -/
def responseClass (scope identity : Nat) : Class :=
  { identity, name := "Response", methods := {}, scope }

/-- The class of a response gets a number, though no value of it is made. -/
theorem follows_responseClass {ledger : Ledger} {machine : Machine}
    (balances : ledger.Balances machine)
    (scope : Nat) :
    ledger.Follows machine (fun identity => [.classObject (responseClass scope identity)])
      (create Heap.newIdentity machine) := by
  have number :=
    ledger.extends_addIdentity (.classObject (responseClass scope machine.heap.nextIdentity))
  have describes := balances.heap.newIdentity
    (.classObject (responseClass scope machine.heap.nextIdentity))
  apply Ledger.follows_create balances number describes (Heap.keepsMaps_of_same rfl)
  intro value member
  rw [List.mem_singleton.mp member]
  refine Ledger.vouches_addIdentity ?_ nofun
  rw [← balances.heap.identities]
  rfl

/-- The map of headers keeps the names to itself. -/
theorem follows_headersMap {ledger : Ledger} {machine : Machine}
    (balances : ledger.Balances machine)
    {pairs : List (Value × Value)}
    (files : ∀ pair ∈ pairs,
      (∀ ref, pair.1 = .string ref → ref < ledger.strings ∧ ledger.kept ref) ∧
      ledger.Vouches pair.2) :
    ledger.Follows machine (fun value => [value])
      (create (fun heap => heap.newMap (heap.contentOf pairs)) machine) := by
  have filed : ∀ entry ∈ (machine.heap.contentOf pairs).entries,
    ledger.Files machine.heap entry := by
    apply OrderedMap.forall_ofList
    intro entry member
    obtain ⟨pair, inPairs, rfl⟩ := List.mem_map.mp member
    obtain ⟨isKept, vouches⟩ := files pair inPairs
    exact ⟨rfl, isKept, vouches⟩
  exact Ledger.follows_new balances (balances.heap.newMap filed) (machine.heap.keepsMaps_newMap _)

/-- The arguments made from the result of an operation are new values. -/
theorem Payload.arguments_handles (payload : Payload) (hand : List Value) :
    payload.arguments.Handles hand id := by
  cases payload with
  | unit => exact handles_pure nofun
  | text content =>
    apply (newString_handles _).bind
    intro value ledger machine balances vouches
    apply Ledger.follows_done balances
    intro each member
    exact vouches each (List.mem_append_left _ member)
  | response status headers body =>
    intro ledger machine balances _
    apply (follows_responseClass balances machine.globals).bind
    intro identity after named done _ balances cls
    obtain ⟨-, rfl⟩ := Outcome.done.inj done
    apply Reads.machine.follows_bind balances
    intro _ read
    obtain ⟨rfl, -⟩ := Outcome.done.inj read
    have text : named.Follows _ (fun value => [value]) _ :=
      Ledger.follows_newString balances (fun _ => body) fun _ => rfl
    apply text.bind
    intro body after written _ goesOn balances text
    have cls := (cls _ List.mem_cons_self).extend goesOn
    obtain ⟨pairs, after, filed, ran, goesOn, balances, kept, files⟩ :=
      headers_done headers balances
    show written.Follows _ id ((headers.mapM headerStrings >>= _) _)
    rw [bind_done ran]
    apply Ledger.Follows.trans goesOn kept
    apply (follows_headersMap balances files).bind
    intro headers last later _ further balances map
    have goesOn := goesOn.trans further
    have fields : (OrderedMap.ofList
        [("body", body), ("headers", headers), ("status", Value.number status.toFloat)]).All
        later.Vouches := by
      apply OrderedMap.all_ofList
      intro entry member
      simp only [List.mem_cons, List.not_mem_nil, or_false] at member
      rcases member with rfl | rfl | rfl
      · exact (text body List.mem_cons_self).extend goesOn
      · exact map headers List.mem_cons_self
      · exact Ledger.vouches_number _
    have cls := cls.extend goesOn
    obtain ⟨counted, more, describes, vouches⟩ :=
      balances.heap.allocInstance ⟨responseClass machine.globals identity, _⟩ cls fields
    exact ⟨counted, more, balances.withHeap more describes, Heap.keepsMaps_of_same rfl,
      List.forall_mem_singleton.mpr vouches⟩

end EventScript
