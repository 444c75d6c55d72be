import EventScript.Proofs.Evaluation.Keeping
import EventScript.Proofs.Evaluation.Receiving

/-!
# What built-in functions keep

A built-in function puts no values on the heap or into the event loop but plain data and its
arguments, so it keeps every property that plain data has (`Builtin.call_keeps`). The same holds of
making the arguments of a callback from the result of an operation (`Payload.arguments_keeps`).
-/

namespace EventScript

open Run

namespace Builtin

variable {property : Value → Prop}

/-- Displaying a value keeps the property of all values. -/
theorem display_keeps (value : Value) : Keeps property (fun _ => True) (display value) :=
  Keeps.heap.bind fun _ _ => .pure trivial

/-- Reading the time keeps the property of all values. -/
theorem readTime_keeps : Keeps property (fun _ => True) readTime := by
  intro machine all
  unfold readTime Machine.readTime
  cases machine.events.clock <;>
    exact ⟨⟨all.heap, all.events⟩, ⟨machine.heap.keepsScopes_refl, rfl, rfl⟩, trivial⟩

/-- Taking a line of input keeps the property of all values. -/
theorem takeLine_keeps : Keeps property (fun _ => True) takeLine :=
  fun machine all => ⟨⟨all.heap, all.events⟩, ⟨machine.heap.keepsScopes_refl, rfl, rfl⟩, trivial⟩

/-- Expecting a string keeps the property of all values. -/
theorem expectString_keeps (function : Builtin) (value : Value) :
    Keeps property (fun _ => True) (expectString function value) := by
  unfold expectString
  split
  · exact Keeps.heap.bind fun _ _ => .pure trivial
  · exact .fault _

/-- A callback is the argument itself. -/
theorem expectCallback_keeps (function : Builtin) {value : Value} (good : property value) :
    Keeps property (fun callback => ∀ value ∈ callback, property value)
      (expectCallback function value) := by
  unfold expectCallback
  split
  · exact .pure nofun
  · split
    · exact .pure fun other member => Option.some.inj member ▸ good
    · exact .fault _

/-- Expecting an index keeps the property of all values. -/
theorem expectIndex_keeps (function : Builtin) (value : Value) (length : Nat) :
    Keeps property (fun _ => True) (expectIndex function value length) := by
  unfold expectIndex
  split
  · exact (display_keeps value).bind fun _ _ => .fault _
  · split
    · exact .pure trivial
    · exact (display_keeps value).bind fun _ _ => .fault _

/-- Finding the object of a method stores nothing. -/
theorem Receives.keeps {function : Builtin} {type : String} {own : Nat → Value}
    {receiver : Option Value}
    {run : Run Nat} (receives : function.Receives type own receiver run) :
    Keeps property (fun _ => True) run := by
  cases receives with
  | found => exact .pure trivial
  | missing | wrong => exact .fault _

/-- Expecting headers keeps the property of all values. -/
theorem expectHeaders_keeps (value : Value) :
    Keeps property (fun _ => True) (expectHeaders value) := by
  unfold expectHeaders
  split
  · exact .pure trivial
  · exact Keeps.heap.bind fun _ _ => .pure trivial
  · exact .fault _

/-- Beginning an operation stores its callback. -/
theorem launch_keeps (plain : Value.Plain property) (function : Builtin) (span : Span)
    {callback : Option Value} (good : ∀ value ∈ callback, property value) (job : Job) :
    Keeps property property (launch function span callback job) := by
  refine Keeps.bind (.modify (fun _ => rfl) (fun _ => rfl) (fun _ => rfl) ?_) fun _ _ =>
    .pure (plain _ rfl)
  exact fun machine all => all.begin _ _ good

/-- Asking for a line of input keeps the property of all values. -/
theorem callInput_keeps (plain : Value.Plain property) (prompt : Value) :
    Keeps property property (callInput prompt) := by
  refine (display_keeps prompt).bind fun text _ => ?_
  refine Keeps.bind (.modify (fun _ => rfl) (fun _ => rfl) (fun _ => rfl) fun _ all => all)
    fun _ _ => ?_
  refine takeLine_keeps.bind fun line _ => ?_
  split
  · exact .pure (plain _ rfl)
  · exact .fault _
  · exact newString_keeps plain _

/-- Asking for the time keeps the property of all values. -/
theorem callClock_keeps (plain : Value.Plain property) : Keeps property property callClock := by
  refine Keeps.bind (.modify (fun _ => rfl) (fun _ => rfl) (fun _ => rfl) fun _ all => all)
    fun _ _ => ?_
  exact Keeps.machine.bind fun _ _ => .pure (plain _ rfl)

/-- A timer stores its callback, which is one of the two arguments. -/
theorem callDelay_keeps (plain : Value.Plain property) {first second : Value}
    (goodFirst : property first) (goodSecond : property second) :
    Keeps property property (callDelay first second) := by
  have callback : property (if first.isCallable then (second, first) else (first, second)).2 := by
    split
    · exact goodFirst
    · exact goodSecond
  unfold callDelay
  generalize (if first.isCallable then (second, first) else (first, second)) = chosen at callback ⊢
  obtain ⟨milliseconds, callee⟩ := chosen
  dsimp only
  split
  · exact .fault _
  · split
    · exact .fault _
    · split
      · exact .fault _
      · refine readTime_keeps.bind fun reading _ => ?_
        refine Keeps.bind (.modify (fun _ => rfl) (fun _ => rfl) (fun _ => rfl) ?_) fun _ _ =>
          .pure (plain _ rfl)
        exact fun machine all => all.schedule _ _ callback

/-- Beginning to read a file keeps the property of all values. -/
theorem callRead_keeps (plain : Value.Plain property) (span : Span) (path : Value)
    {callback : Value} (good : property callback) :
    Keeps property property (callRead span path callback) := by
  refine (expectString_keeps _ _).bind fun _ _ => ?_
  exact (expectCallback_keeps _ good).bind fun _ found => launch_keeps plain _ _ found _

/-- Beginning to write a file keeps the property of all values. -/
theorem callWrite_keeps (plain : Value.Plain property) (span : Span) (path mode data : Value)
    {callback : Value} (good : property callback) :
    Keeps property property (callWrite span path mode data callback) := by
  refine (expectString_keeps _ _).bind fun _ _ => ?_
  refine (expectString_keeps _ _).bind fun modeName _ => ?_
  split
  · exact .fault _
  · refine (display_keeps data).bind fun _ _ => ?_
    exact (expectCallback_keeps _ good).bind fun _ found => launch_keeps plain _ _ found _

/-- Beginning a request keeps the property of all values. -/
theorem callRequest_keeps (plain : Value.Plain property) (span : Span)
    (url body headers method : Value) {callback : Value} (good : property callback) :
    Keeps property property (callRequest span url body headers method callback) := by
  have nothing : Keeps property (fun _ => True) (pure none : Run (Option String)) := .pure trivial
  have text : Keeps property (fun _ => True) (some <$> display body) :=
    (display_keeps body).bind fun _ _ => .pure trivial
  refine (expectString_keeps _ _).bind fun _ _ => ?_
  dsimp only
  split
  case' isTrue => refine nothing.bind fun _ _ => ?_
  case' isFalse => refine text.bind fun _ _ => ?_
  all_goals
    refine (expectHeaders_keeps headers).bind fun _ _ => ?_
    refine (expectString_keeps _ _).bind fun _ _ => ?_
    refine Keeps.machine.bind fun _ _ => ?_
    split
    · refine (expectCallback_keeps _ good).bind fun _ found => ?_
      exact launch_keeps plain _ _ found _
    · exact .fault _

/-- Reading a character of a string keeps the property of all values. -/
theorem callStringAt_keeps (plain : Value.Plain property) (receiver : Option Value)
    (index : Value) :
    Keeps property property (callStringAt receiver index) := by
  refine (stringReceiver_receives _ _).keeps.bind fun _ _ => ?_
  refine Keeps.heap.bind fun _ _ => ?_
  exact (expectIndex_keeps _ _ _).bind fun _ _ => newString_keeps plain _

/-- Replacing a character of a string keeps the property of all values. -/
theorem callStringAlter_keeps (plain : Value.Plain property) (receiver : Option Value)
    (index replacement : Value) :
    Keeps property property (callStringAlter receiver index replacement) := by
  refine (stringReceiver_receives _ _).keeps.bind fun ref _ => ?_
  refine Keeps.heap.bind fun _ _ => ?_
  refine (expectIndex_keeps _ _ _).bind fun _ _ => ?_
  refine (display_keeps _).bind fun _ _ => ?_
  refine Keeps.bind (.modifyHeap ?_) fun _ _ => .pure (plain _ rfl)
  exact fun heap all => ⟨all.setText _ _, .of_same rfl rfl⟩

/-- Asking for the length of a string keeps the property of all values. -/
theorem callStringLength_keeps (plain : Value.Plain property) (receiver : Option Value) :
    Keeps property property (callStringLength receiver) := by
  refine (stringReceiver_receives _ _).keeps.bind fun _ _ => ?_
  exact Keeps.heap.bind fun _ _ => .pure (plain _ rfl)

/-- Reading an item of a list keeps the property of all values. -/
theorem callListAt_keeps (plain : Value.Plain property) (receiver : Option Value) (index : Value) :
    Keeps property property (callListAt receiver index) := by
  refine (listReceiver_receives _ _).keeps.bind fun ref _ => ?_
  refine Keeps.heap.bind fun heap all => ?_
  refine (expectIndex_keeps _ _ _).bind fun position _ => .pure ?_
  cases present : (heap.items ref)[position]? with
  | none => exact plain _ rfl
  | some item => exact all.items ref item (Array.mem_of_getElem? present)

/-- Replacing an item of a list keeps the property of all values. -/
theorem callListAlter_keeps (plain : Value.Plain property) (receiver : Option Value) (index : Value)
    {item : Value} (good : property item) :
    Keeps property property (callListAlter receiver index item) := by
  refine (listReceiver_receives _ _).keeps.bind fun ref _ => ?_
  refine Keeps.heap.bind fun _ _ => ?_
  refine (expectIndex_keeps _ _ _).bind fun position _ => ?_
  refine Keeps.bind (.modifyHeap fun heap all => ⟨all.modifyItems ref ?_, .of_same rfl rfl⟩)
    fun _ _ => .pure (plain _ rfl)
  intro items stored other member
  rcases Array.mem_or_eq_of_mem_setIfInBounds member with old | rfl
  · exact stored other old
  · exact good

/-- Asking for the length of a list keeps the property of all values. -/
theorem callListLength_keeps (plain : Value.Plain property) (receiver : Option Value) :
    Keeps property property (callListLength receiver) := by
  refine (listReceiver_receives _ _).keeps.bind fun _ _ => ?_
  exact Keeps.heap.bind fun _ _ => .pure (plain _ rfl)

/-- Adding an item to a list keeps the property of all values. -/
theorem callListPush_keeps (plain : Value.Plain property) (receiver : Option Value)
    {item : Value} (good : property item) :
    Keeps property property (callListPush receiver item) := by
  refine (listReceiver_receives _ _).keeps.bind fun ref _ => ?_
  refine Keeps.bind (.modifyHeap fun heap all => ⟨all.modifyItems ref ?_, .of_same rfl rfl⟩)
    fun _ _ => .pure (plain _ rfl)
  intro items stored other member
  rcases Array.mem_push.mp member with old | rfl
  · exact stored other old
  · exact good

/-- Taking an item off a list keeps the property of all values. -/
theorem callListPop_keeps (receiver : Option Value) :
    Keeps property property (callListPop receiver) := by
  refine (listReceiver_receives _ _).keeps.bind fun ref _ => ?_
  refine Keeps.heap.bind fun heap all => ?_
  split
  · exact .fault _
  · rename_i last found
    have good : property last := all.items ref last (Array.mem_of_back? found)
    refine Keeps.bind (.modifyHeap fun heap all => ⟨all.modifyItems ref ?_, .of_same rfl rfl⟩)
      fun _ _ => .pure good
    intro items stored other member
    have inRest : other ∈ items.toList.dropLast := by
      rw [← Array.toList_pop]
      exact Array.mem_toList_iff.mpr member
    have inItems : other ∈ items.toList := List.dropLast_subset _ inRest
    exact stored other (Array.mem_toList_iff.mp inItems)

/-- Looking up a key of a map keeps the property of all values. -/
theorem callMapGet_keeps (plain : Value.Plain property) (receiver : Option Value) (key : Value) :
    Keeps property property (callMapGet receiver key) := by
  refine (mapReceiver_receives _ _).keeps.bind fun ref _ => ?_
  refine Keeps.heap.bind fun heap all => ?_
  split
  · rename_i kept value found
    exact .pure ((all.content ref).find? found).2
  · exact .pure (plain _ rfl)

/-- Keeping a key keeps the property of all values. -/
theorem keptKey_keeps (plain : Value.Plain property) {key : Value} (good : property key) :
    Keeps property property (keptKey key) := by
  unfold keptKey
  split
  · exact newString_keeps plain _
  · exact .pure good

/-- Setting a key of a map keeps the property of all values. -/
theorem callMapSet_keeps (plain : Value.Plain property) (receiver : Option Value)
    {key value : Value}
    (goodKey : property key) (goodValue : property value) :
    Keeps property property (callMapSet receiver key value) := by
  refine (mapReceiver_receives _ _).keeps.bind fun ref _ => ?_
  refine (keptKey_keeps plain goodKey).bind fun kept goodKept => ?_
  refine Keeps.heap.bind fun _ _ => ?_
  refine Keeps.bind (.modifyHeap ?_) fun _ _ => .pure (plain _ rfl)
  exact fun heap all => ⟨all.insertContent ref _ ⟨goodKept, goodValue⟩, .of_same rfl rfl⟩

/-- What a built-in function performs keeps the property of all values. -/
theorem perform_keeps (plain : Value.Plain property) (function : Builtin) (receiver : Option Value)
    {arguments : List Value} (good : ∀ argument ∈ arguments, property argument) (span : Span) :
    Keeps property property (function.perform receiver arguments span) := by
  unfold perform
  split
  · exact callInput_keeps plain _
  · exact callClock_keeps plain
  · exact callDelay_keeps plain (good _ (by simp)) (good _ (by simp))
  · exact callRead_keeps plain span _ (good _ (by simp))
  · exact callWrite_keeps plain span _ _ _ (good _ (by simp))
  · exact callRequest_keeps plain span _ _ _ _ (good _ (by simp))
  · exact (display_keeps _).bind fun _ _ => newString_keeps plain _
  · exact .create fun heap all =>
      ⟨plain _ rfl, all.newList fun item member => good item (by simpa using member),
        .of_same rfl rfl⟩
  · exact .create fun heap all => ⟨plain _ rfl, all.newMap OrderedMap.all_empty, .of_same rfl rfl⟩
  · exact callStringAt_keeps plain receiver _
  · exact callStringAlter_keeps plain receiver _ _
  · exact callStringLength_keeps plain receiver
  · exact callListAt_keeps plain receiver _
  · exact callListAlter_keeps plain receiver _ (good _ (by simp))
  · exact callListLength_keeps plain receiver
  · exact callListPush_keeps plain receiver (good _ (by simp))
  · exact callListPop_keeps receiver
  · exact callMapGet_keeps plain receiver _
  · exact callMapSet_keeps plain receiver (good _ (by simp)) (good _ (by simp))
  · exact .fault _

/-- A built-in function keeps what its arguments and all plain data have. -/
theorem call_keeps (plain : Value.Plain property) (function : Builtin) (receiver : Option Value)
    {arguments : List Value} (good : ∀ argument ∈ arguments, property argument) (span : Span) :
    Keeps property property (function.call receiver arguments span) := by
  unfold call
  split
  · split
    · exact perform_keeps plain function receiver good span
    · exact .faultAt _ _
  · exact perform_keeps plain function receiver good span

end Builtin

/-- The arguments made from the result of an operation are plain data. -/
theorem Payload.arguments_keeps {property : Value → Prop} (plain : Value.Plain property)
    (bareClass : ∀ (identity : Nat) (name : String) (scope : Nat),
      property (.classObject { identity, name, methods := {}, scope })) (payload : Payload) :
    Keeps property (fun arguments => ∀ argument ∈ arguments, property argument)
      payload.arguments := by
  have single : ∀ {value : Value}, property value → ∀ argument ∈ [value], property argument :=
    fun good argument member => List.mem_singleton.mp member ▸ good
  unfold Payload.arguments
  split
  · exact .pure nofun
  · exact (newString_keeps plain _).bind fun _ good => .pure (single good)
  · rename_i status headers body
    have identity : Keeps property (fun _ => True) (create Heap.newIdentity) :=
      .create fun heap all => ⟨trivial, all.newIdentity, .of_same rfl rfl⟩
    have pairs : Keeps property (fun pairs => ∀ pair ∈ pairs, property pair.1 ∧ property pair.2)
        (headers.mapM fun header => do
          let name ← create fun heap => heap.newString header.1
          let value ← create fun heap => heap.newString header.2
          return (name, value)) := by
      refine .mapM headers fun header _ => ?_
      refine (newString_keeps plain _).bind fun name goodName => ?_
      exact (newString_keeps plain _).bind fun value goodValue => .pure ⟨goodName, goodValue⟩
    refine identity.bind fun number _ => ?_
    refine Keeps.machine.bind fun machine _ => ?_
    refine (newString_keeps plain _).bind fun text goodText => ?_
    refine pairs.bind fun pairs goodPairs => ?_
    have map : Keeps property property (create fun heap => heap.newMap (heap.contentOf pairs)) := by
      refine .create fun heap all => ⟨plain _ rfl, all.newMap ?_, .of_same rfl rfl⟩
      refine OrderedMap.all_ofList fun entry member => ?_
      obtain ⟨pair, inPairs, rfl⟩ := List.mem_map.mp member
      exact goodPairs pair inPairs
    refine map.bind fun headers goodHeaders => ?_
    have fields : (OrderedMap.ofList
        [("body", text), ("headers", headers), ("status", Value.number status.toFloat)]).All
        property := by
      refine OrderedMap.all_ofList fun entry member => ?_
      simp only [List.mem_cons, List.not_mem_nil, or_false] at member
      rcases member with rfl | rfl | rfl
      · exact goodText
      · exact goodHeaders
      · exact plain _ rfl
    refine Keeps.bind (.create fun heap all => ⟨plain _ rfl, ?_, ?_⟩) fun _ good =>
      .pure (single good)
    · exact all.allocInstance _ (bareClass number "Response" machine.globals) fields
    · exact heap.keepsScopes_allocInstance _

end EventScript
