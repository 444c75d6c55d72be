import EventScript.Proofs.Mirroring.Runs

/-!
# Built-in functions do not tell scopes apart

The text of a value says nothing of scopes, so values that mirror each other have one text
(`Value.Mirrors.display`), and a built-in function does the same to values that mirror each other
(`Builtin.call_mirrors`).
-/

namespace EventScript

/-! ## The text of a value -/

/-- Things that are written alike are written alike with commas between them. -/
theorem Writing.separated_congr {α β : Type} {same : α → β → Prop} {write : α → Writing → Writing}
    {write' : β → Writing → Writing}
    (alike : ∀ thing thing', same thing thing' → ∀ writing,
      write' thing' writing = write thing writing)
    {things : List α} {things' : List β} (all : List.Forall₂ same things things')
    (writing : Writing) :
    writing.separated write' things' = writing.separated write things := by
  have fold : ∀ {rest : List α} {rest' : List β}, List.Forall₂ same rest rest' →
      ∀ writing : Writing,
        rest'.foldl (fun writing thing => write' thing (writing.put ", ")) writing =
          rest.foldl (fun writing thing => write thing (writing.put ", ")) writing := by
    intro rest rest' all
    induction all with
    | nil => exact fun _ => rfl
    | cons things _ ih =>
      intro writing
      simp only [List.foldl_cons, alike _ _ things, ih]
  cases all with
  | nil => rfl
  | cons things rest =>
    unfold separated
    dsimp only
    rw [alike _ _ things, fold rest]

namespace Value.Mirrors

variable {pairing : Pairing} {heap heap' : Heap} (heaps : heap.Mirrors pairing heap')
include heaps

/-- Values that mirror each other have the same label. -/
theorem label {value value' : Value} (mirrors : value.Mirrors pairing value') :
    value'.label heap' = value.label heap := by
  cases mirrors with
  | string ref => exact heaps.text ref
  | object ref =>
    have same : (heap'.object ref).cls.name = (heap.object ref).cls.name := by
      rcases heaps.object ref with object | ⟨same, -⟩
      · exact object.cls.body.name
      · rw [same]
    exact congrArg (fun name => "<" ++ name ++ " instance>") same
  | function identity closures =>
    exact congrArg (fun decl => "<fn " ++ decl.name ++ ">") closures.decl
  | method identity receivers methods =>
    exact congrArg (fun decl => "<fn " ++ decl.name ++ ">") methods.decl
  | classObject classes => exact classes.body.name
  | _ => rfl

/-- Values that mirror each other are written alike. -/
theorem write (bound : Nat) {value value' : Value} (mirrors : value.Mirrors pairing value')
    (writing : Writing) : value'.write heap' bound writing = value.write heap bound writing := by
  induction bound generalizing value value' writing with
  | zero => exact congrArg writing.put (mirrors.label heaps)
  | succ bound ih =>
    cases mirrors with
    | list ref =>
      unfold Value.write
      dsimp only
      rw [Writing.separated_congr (fun _ _ values => ih values) (heaps.items ref)]
    | map ref =>
      have entries : ∀ pair pair' : Value × Value,
          pair.1.Mirrors pairing pair'.1 ∧ pair.2.Mirrors pairing pair'.2 → ∀ writing,
          pair'.2.write heap' bound ((pair'.1.write heap' bound writing).put ": ") =
            pair.2.write heap bound ((pair.1.write heap bound writing).put ": ") := by
        intro pair pair' pairs writing
        rw [ih pairs.1, ih pairs.2]
      unfold Value.write
      dsimp only
      rw [Writing.separated_congr entries (heaps.content ref).values]
    | string ref => exact congrArg writing.put (label heaps (.string ref))
    | object ref => exact congrArg writing.put (label heaps (.object ref))
    | function identity closures =>
      exact congrArg writing.put (label heaps (.function identity closures))
    | method identity receivers methods =>
      exact congrArg writing.put (label heaps (.method identity receivers methods))
    | classObject classes => exact congrArg writing.put (label heaps (.classObject classes))
    | _ => rfl

/-- Values that mirror each other have one text. -/
theorem display {value value' : Value} (mirrors : value.Mirrors pairing value') :
    value'.display heap' = value.display heap := by
  unfold Value.display
  rw [heaps.lists.size, heaps.maps.size, mirrors.write heaps]

end Value.Mirrors

/-! ## The functions -/

/-- Two lists whose elements mirror each other. -/
structure ItemsMirror (pairing : Pairing) (items items' : Array Value) : Prop where
  all : List.Forall₂ (Value.Mirrors pairing) items.toList items'.toList

namespace ItemsMirror

variable {pairing : Pairing} {items items' : Array Value}
    (mirrors : ItemsMirror pairing items items')
include mirrors

/-- Arrays that mirror each other have as many items. -/
theorem size : items'.size = items.size := mirrors.all.length_eq.symm

/-- Items at the same place mirror each other. -/
theorem getElem? (index : Nat) :
    Option.Rel (Value.Mirrors pairing) items[index]? items'[index]? := by
  rw [← Array.getElem?_toList, ← Array.getElem?_toList]
  have at? : ∀ {list list' : List Value}, List.Forall₂ (Value.Mirrors pairing) list list' →
      ∀ index : Nat, Option.Rel (Value.Mirrors pairing) list[index]? list'[index]? := by
    intro list list' all
    induction all with
    | nil => exact fun _ => .none
    | cons values _ ih =>
      intro index
      cases index with
      | zero => exact .some values
      | succ index => exact ih index
  exact at? mirrors.all index

/-- The last items mirror each other. -/
theorem back? : Option.Rel (Value.Mirrors pairing) items.back? items'.back? := by
  rw [Array.back?_eq_getElem?, Array.back?_eq_getElem?, mirrors.size]
  exact mirrors.getElem? _

/-- Replacing items at the same place by values that mirror each other leaves such arrays. -/
theorem setIfInBounds (index : Nat) {value value' : Value} (values : value.Mirrors pairing value') :
    List.Forall₂ (Value.Mirrors pairing) (items.setIfInBounds index value).toList
      (items'.setIfInBounds index value').toList := by
  rw [Array.toList_setIfInBounds, Array.toList_setIfInBounds]
  have set : ∀ {list list' : List Value}, List.Forall₂ (Value.Mirrors pairing) list list' →
      ∀ index, List.Forall₂ (Value.Mirrors pairing) (list.set index value)
        (list'.set index value') := by
    intro list list' all
    induction all with
    | nil => exact fun _ => .nil
    | cons first rest ih =>
      intro index
      cases index with
      | zero => exact .cons values rest
      | succ index => exact .cons first (ih index)
  exact set mirrors.all index

/-- Adding values that mirror each other leaves such arrays. -/
theorem push {value value' : Value} (values : value.Mirrors pairing value') :
    List.Forall₂ (Value.Mirrors pairing) (items.push value).toList (items'.push value').toList := by
  rw [Array.toList_push, Array.toList_push]
  exact List.rel_append mirrors.all (.cons values .nil)

/-- Taking off the last items leaves such arrays. -/
theorem pop : List.Forall₂ (Value.Mirrors pairing) items.pop.toList items'.pop.toList := by
  rw [Array.toList_pop, Array.toList_pop, List.dropLast_eq_take, List.dropLast_eq_take,
    mirrors.all.length_eq]
  exact List.forall₂_take _ mirrors.all

end ItemsMirror

namespace Builtin

open Run

variable {pairing : Pairing} {scope scope' : Nat}

/-- The receivers mirror each other, where there are any. -/
abbrev ReceiversMirror (pairing : Pairing) : Option Value → Option Value → Prop :=
  Option.Rel (Value.Mirrors pairing)

/-- Displaying a value is the same on machines that mirror each other. -/
theorem display_mirrors {value value' : Value} (values : value.Mirrors pairing value') :
    (display value).Mirrors pairing scope scope' Eq (display value') :=
  Run.Mirrors.heap.bind fun heaps => .pure (values.display heaps).symm

/-- Reading the time is the same on machines that mirror each other. -/
theorem readTime_mirrors : readTime.Mirrors pairing scope scope' Eq readTime := by
  intro machine machine' machines
  unfold readTime Machine.readTime
  rw [machines.events.clock, machines.clock]
  cases machine.events.clock with
  | virtual => exact .done rfl machines
  | real => exact .done rfl { machines with clock := rfl }

/-- Taking a line of input is the same on machines that mirror each other. -/
theorem takeLine_mirrors : takeLine.Mirrors pairing scope scope' Eq takeLine := by
  intro machine machine' machines
  unfold takeLine
  rw [machines.console]
  exact .done rfl { machines with console := rfl }

/-- Expecting a string is the same on machines that mirror each other. -/
theorem expectString_mirrors (function : Builtin) {value value' : Value}
    (values : value.Mirrors pairing value') :
    (expectString function value).Mirrors pairing scope scope' Eq
      (expectString function value') := by
  cases values with
  | string ref => exact Run.Mirrors.heap.bind fun heaps => .pure (heaps.text ref).symm
  | _ => exact .fault _

/-- Expecting a callback is the same on machines that mirror each other. -/
theorem expectCallback_mirrors (function : Builtin) {value value' : Value}
    (values : value.Mirrors pairing value') :
    (expectCallback function value).Mirrors pairing scope scope' (ReceiversMirror pairing)
      (expectCallback function value') := by
  unfold expectCallback
  rw [values.isNil, values.isCallable, values.typeName]
  split
  · exact .pure .none
  · split
    · exact .pure (.some values)
    · exact .fault _

/-- Expecting an index is the same on machines that mirror each other. -/
theorem expectIndex_mirrors (function : Builtin) {value value' : Value}
    (values : value.Mirrors pairing value') (length : Nat) :
    (expectIndex function value length).Mirrors pairing scope scope' Eq
      (expectIndex function value' length) := by
  unfold expectIndex
  rw [values.number?]
  split
  · exact (display_mirrors values).bindSame fun _ => .fault _
  · split
    · exact .pure rfl
    · exact (display_mirrors values).bindSame fun _ => .fault _

section Receivers

variable {receiver receiver' : Option Value}
    (receivers : ReceiversMirror pairing receiver receiver')
include receivers

/-- Expecting a string as the receiver is the same on machines that mirror each other. -/
theorem stringReceiver_mirrors (function : Builtin) :
    (stringReceiver function receiver).Mirrors pairing scope scope' Eq
      (stringReceiver function receiver') := by
  cases receivers with
  | none => exact .fault _
  | some values =>
    cases values with
    | string ref => exact .pure rfl
    | _ => exact .fault _

/-- Expecting a list as the receiver is the same on machines that mirror each other. -/
theorem listReceiver_mirrors (function : Builtin) :
    (listReceiver function receiver).Mirrors pairing scope scope' Eq
      (listReceiver function receiver') := by
  cases receivers with
  | none => exact .fault _
  | some values =>
    cases values with
    | list ref => exact .pure rfl
    | _ => exact .fault _

/-- Expecting a map as the receiver is the same on machines that mirror each other. -/
theorem mapReceiver_mirrors (function : Builtin) :
    (mapReceiver function receiver).Mirrors pairing scope scope' Eq
      (mapReceiver function receiver') := by
  cases receivers with
  | none => exact .fault _
  | some values =>
    cases values with
    | map ref => exact .pure rfl
    | _ => exact .fault _

end Receivers

/-- Expecting headers is the same on machines that mirror each other. -/
theorem expectHeaders_mirrors {value value' : Value} (values : value.Mirrors pairing value') :
    (expectHeaders value).Mirrors pairing scope scope' Eq (expectHeaders value') := by
  cases values with
  | nil => exact .pure rfl
  | map ref =>
    refine Run.Mirrors.heap.bind fun {heap heap'} heaps => .pure ?_
    have entries : ∀ pair pair' : Value × Value,
        pair.1.Mirrors pairing pair'.1 ∧ pair.2.Mirrors pairing pair'.2 →
        (pair.1.display heap, pair.2.display heap) = (pair'.1.display heap',
          pair'.2.display heap') := by
      intro pair pair' pairs
      rw [pairs.1.display heaps, pairs.2.display heaps]
    rw [← List.forall₂_eq_eq_eq, List.forall₂_map_left_iff, List.forall₂_map_right_iff]
    exact (heaps.content ref).values.imp entries
  | _ => exact .fault _

/-- Beginning an operation is the same on machines that mirror each other. -/
theorem launch_mirrors (function : Builtin) (span : Span) {callback callback' : Option Value}
    (callbacks : ReceiversMirror pairing callback callback') (job : Job) :
    (launch function span callback job).Mirrors pairing scope scope' (Value.Mirrors pairing)
      (launch function span callback' job) := by
  refine (Run.Mirrors.modify fun {machine machine'} machines => ?_).bindSame fun _ => .pure .nil
  obtain ⟨same, loops⟩ := machines.events.begin function.name span callbacks
  dsimp only
  rw [same, machines.launched]
  exact { machines with events := loops, launched := rfl }

/-- Asking for a line of input is the same on machines that mirror each other. -/
theorem callInput_mirrors {prompt prompt' : Value} (prompts : prompt.Mirrors pairing prompt') :
    (callInput prompt).Mirrors pairing scope scope' (Value.Mirrors pairing)
      (callInput prompt') := by
  refine (display_mirrors prompts).bindSame fun text => ?_
  refine (Run.Mirrors.modify fun machines => ?_).bindSame fun _ =>
    takeLine_mirrors.bindSame fun line => ?_
  · exact { machines with console := congrArg (fun console => console.write text) machines.console }
  · split
    · exact .pure .nil
    · exact .fault _
    · exact .create fun heaps => heaps.newString _

/-- Asking for the time is the same on machines that mirror each other. -/
theorem callClock_mirrors :
    callClock.Mirrors pairing scope scope' (Value.Mirrors pairing) callClock := by
  refine (Run.Mirrors.modify fun machines => ?_).bindSame fun _ =>
    Run.Mirrors.machine.bind fun machines => ?_
  · exact { machines with clock := congrArg (fun clock => clock.read.2) machines.clock }
  · dsimp only
    rw [machines.clock]
    exact .pure (.number _)

/-- Queueing a call is the same on machines that mirror each other. -/
theorem callDelay_mirrors {first first' second second' : Value}
    (firsts : first.Mirrors pairing first')
    (seconds : second.Mirrors pairing second') :
    (callDelay first second).Mirrors pairing scope scope' (Value.Mirrors pairing)
      (callDelay first' second') := by
  -- Whichever of the two can be called is called.
  obtain ⟨milliseconds, callee, milliseconds', callee', chosen, chosen', waits, callees⟩ :
      ∃ milliseconds callee milliseconds' callee',
        (if first.isCallable then (second, first) else (first, second)) = (milliseconds, callee) ∧
        (if first'.isCallable then (second', first') else (first', second')) =
          (milliseconds', callee') ∧
        milliseconds.Mirrors pairing milliseconds' ∧ callee.Mirrors pairing callee' := by
    rw [firsts.isCallable]
    by_cases callable : first.isCallable
    · exact ⟨second, first, second', first', if_pos callable, if_pos callable, seconds, firsts⟩
    · exact ⟨first, second, first', second', if_neg callable, if_neg callable, firsts, seconds⟩
  unfold callDelay
  rw [chosen, chosen']
  dsimp only
  rw [callees.isCallable, callees.typeName, waits.number?, waits.typeName]
  split
  · exact .fault _
  · split
    · exact .fault _
    · split
      · exact .fault _
      · refine readTime_mirrors.bindSame fun reading => ?_
        refine (Run.Mirrors.modify fun machines => ?_).bindSame fun _ => .pure .nil
        exact { machines with events := machines.events.schedule reading _ callees }

/-- Beginning to read a file is the same on machines that mirror each other. -/
theorem callRead_mirrors (span : Span) {path path' callback callback' : Value}
    (paths : path.Mirrors pairing path') (callbacks : callback.Mirrors pairing callback') :
    (callRead span path callback).Mirrors pairing scope scope' (Value.Mirrors pairing)
      (callRead span path' callback') := by
  apply (expectString_mirrors _ paths).bindSame
  intro name
  apply (expectCallback_mirrors _ callbacks).bind
  intro kept kept' callbacks
  exact launch_mirrors _ _ callbacks _

/-- Beginning to write a file is the same on machines that mirror each other. -/
theorem callWrite_mirrors (span : Span)
    {path path' mode mode' data data' callback callback' : Value}
    (paths : path.Mirrors pairing path') (modes : mode.Mirrors pairing mode')
    (all : data.Mirrors pairing data') (callbacks : callback.Mirrors pairing callback') :
    (callWrite span path mode data callback).Mirrors pairing scope scope' (Value.Mirrors pairing)
      (callWrite span path' mode' data' callback') := by
  refine (expectString_mirrors _ paths).bindSame fun _ =>
    (expectString_mirrors _ modes).bindSame fun modeName => ?_
  split
  · exact .fault _
  · apply (display_mirrors all).bindSame
    intro text
    apply (expectCallback_mirrors _ callbacks).bind
    intro kept kept' callbacks
    exact launch_mirrors _ _ callbacks _

/-- Beginning a request is the same on machines that mirror each other. -/
theorem callRequest_mirrors (span : Span)
    {url url' body body' headers headers' method method' callback callback' : Value}
    (urls : url.Mirrors pairing url') (bodies : body.Mirrors pairing body')
    (all : headers.Mirrors pairing headers') (methods : method.Mirrors pairing method')
    (callbacks : callback.Mirrors pairing callback') :
    (callRequest span url body headers method callback).Mirrors pairing scope scope'
      (Value.Mirrors pairing)
      (callRequest span url' body' headers' method' callback') := by
  have text : (some <$> display body).Mirrors pairing scope scope' Eq (some <$> display body') :=
    (display_mirrors bodies).bindSame fun _ => .pure rfl
  refine (expectString_mirrors _ urls).bindSame fun _ => ?_
  dsimp only
  rw [bodies.isNil]
  split
  case' isTrue => refine Run.Mirrors.bindSame (.pure rfl) fun _ => ?_
  case' isFalse => refine text.bindSame fun _ => ?_
  all_goals
    refine (expectHeaders_mirrors all).bindSame fun _ =>
      (expectString_mirrors _ methods).bindSame fun _ => ?_
    refine Run.Mirrors.machine.bind fun machines => ?_
    rw [machines.settings]
    split
    · exact (expectCallback_mirrors _ callbacks).bind fun callbacks =>
        launch_mirrors _ _ callbacks _
    · exact .fault _

/-- Keeping a key is the same on machines that mirror each other. -/
theorem keptKey_mirrors {key key' : Value} (keys : key.Mirrors pairing key') :
    (keptKey key).Mirrors pairing scope scope' (Value.Mirrors pairing) (keptKey key') := by
  have keep : ∀ {other other' : Value}, other.Mirrors pairing other' →
      Run.Mirrors pairing scope scope' (Value.Mirrors pairing) (pure other) (pure other') := .pure
  cases keys with
  | string ref =>
    have copy : Run.Mirrors pairing scope scope' (Value.Mirrors pairing)
        (create fun heap => heap.newString (heap.text ref))
        (create fun heap => heap.newString (heap.text ref)) := by
      refine .create fun {heap heap'} heaps => ?_
      rw [heaps.text]
      exact heaps.newString _
    exact copy
  | nil => exact keep .nil
  | bool value => exact keep (.bool value)
  | number value => exact keep (.number value)
  | list ref => exact keep (.list ref)
  | map ref => exact keep (.map ref)
  | object ref => exact keep (.object ref)
  | function identity closures => exact keep (.function identity closures)
  | method identity receivers methods => exact keep (.method identity receivers methods)
  | classObject classes => exact keep (.classObject classes)
  | builtin identity called => exact keep (.builtin identity called)
  | builtinMethod identity called receivers => exact keep (.builtinMethod identity called receivers)

section Methods

variable {receiver receiver' : Option Value}
    (receivers : ReceiversMirror pairing receiver receiver')
include receivers

/-- Reading a character of a string is the same on machines that mirror each other. -/
theorem callStringAt_mirrors {index index' : Value} (indices : index.Mirrors pairing index') :
    (callStringAt receiver index).Mirrors pairing scope scope' (Value.Mirrors pairing)
      (callStringAt receiver' index') := by
  refine (stringReceiver_mirrors receivers _).bindSame fun ref =>
    Run.Mirrors.heap.bind fun heaps => ?_
  dsimp only
  rw [heaps.text]
  exact (expectIndex_mirrors _ indices _).bindSame fun _ => .create fun heaps => heaps.newString _

/-- Replacing a character of a string is the same on machines that mirror each other. -/
theorem callStringAlter_mirrors {index index' replacement replacement' : Value}
    (indices : index.Mirrors pairing index')
    (replacements : replacement.Mirrors pairing replacement') :
    (callStringAlter receiver index replacement).Mirrors pairing scope scope'
      (Value.Mirrors pairing)
      (callStringAlter receiver' index' replacement') := by
  refine (stringReceiver_mirrors receivers _).bindSame fun ref =>
    Run.Mirrors.heap.bind fun heaps => ?_
  dsimp only
  rw [heaps.text]
  apply (expectIndex_mirrors _ indices _).bindSame
  intro index
  apply (display_mirrors replacements).bindSame
  intro text
  apply (Run.Mirrors.modifyHeap fun heaps => heaps.setText _ _).bindSame
  exact fun _ => .pure .nil

/-- Asking for the length of a string is the same on machines that mirror each other. -/
theorem callStringLength_mirrors :
    (callStringLength receiver).Mirrors pairing scope scope' (Value.Mirrors pairing)
      (callStringLength receiver') := by
  refine (stringReceiver_mirrors receivers _).bindSame fun ref =>
    Run.Mirrors.heap.bind fun heaps => ?_
  rw [heaps.text]
  exact .pure (.number _)

/-- Reading an item of a list is the same on machines that mirror each other. -/
theorem callListAt_mirrors {index index' : Value} (indices : index.Mirrors pairing index') :
    (callListAt receiver index).Mirrors pairing scope scope' (Value.Mirrors pairing)
      (callListAt receiver' index') := by
  refine (listReceiver_mirrors receivers _).bindSame fun ref =>
    Run.Mirrors.heap.bind fun {heap heap'} heaps => ?_
  have items : ItemsMirror pairing (heap.items ref) (heap'.items ref) := ⟨heaps.items ref⟩
  dsimp only
  rw [items.size]
  exact (expectIndex_mirrors _ indices _).bindSame fun index =>
    .pure ((items.getElem? index).getD .nil)

/-- Replacing an item of a list is the same on machines that mirror each other. -/
theorem callListAlter_mirrors {index index' item item' : Value}
    (indices : index.Mirrors pairing index')
    (items : item.Mirrors pairing item') :
    (callListAlter receiver index item).Mirrors pairing scope scope' (Value.Mirrors pairing)
      (callListAlter receiver' index' item') := by
  refine (listReceiver_mirrors receivers _).bindSame fun ref =>
    Run.Mirrors.heap.bind fun {heap heap'} heaps => ?_
  have length : (heap'.items ref).size = (heap.items ref).size := ItemsMirror.size ⟨heaps.items ref⟩
  dsimp only
  rw [length]
  apply (expectIndex_mirrors _ indices _).bindSame
  intro index
  refine (Run.Mirrors.modifyHeap fun heaps => ?_).bindSame fun _ => .pure .nil
  exact heaps.modifyItems ref fun _ _ all => ItemsMirror.setIfInBounds ⟨all⟩ index items

/-- Asking for the length of a list is the same on machines that mirror each other. -/
theorem callListLength_mirrors :
    (callListLength receiver).Mirrors pairing scope scope' (Value.Mirrors pairing)
      (callListLength receiver') := by
  refine (listReceiver_mirrors receivers _).bindSame fun ref =>
    Run.Mirrors.heap.bind fun {heap heap'} heaps => ?_
  have length : (heap'.items ref).size = (heap.items ref).size := ItemsMirror.size ⟨heaps.items ref⟩
  rw [length]
  exact .pure (.number _)

/-- Adding an item to a list is the same on machines that mirror each other. -/
theorem callListPush_mirrors {item item' : Value} (items : item.Mirrors pairing item') :
    (callListPush receiver item).Mirrors pairing scope scope' (Value.Mirrors pairing)
      (callListPush receiver' item') := by
  apply (listReceiver_mirrors receivers _).bindSame
  intro ref
  refine (Run.Mirrors.modifyHeap fun heaps => ?_).bindSame fun _ => .pure .nil
  exact heaps.modifyItems ref fun _ _ all => ItemsMirror.push ⟨all⟩ items

/-- Taking an item off a list is the same on machines that mirror each other. -/
theorem callListPop_mirrors :
    (callListPop receiver).Mirrors pairing scope scope' (Value.Mirrors pairing)
      (callListPop receiver') := by
  refine (listReceiver_mirrors receivers _).bindSame fun ref =>
    Run.Mirrors.heap.bind fun {heap heap'} heaps => ?_
  have found : Option.Rel (Value.Mirrors pairing) (heap.lastItem? ref) (heap'.lastItem? ref) :=
    ItemsMirror.back? ⟨heaps.items ref⟩
  rcases found.cases with ⟨first, second⟩ | ⟨last, last', first, second, values⟩
  · rw [first, second]
    exact .fault _
  · rw [first, second]
    refine (Run.Mirrors.modifyHeap fun heaps => ?_).bindSame fun _ => .pure values
    exact heaps.modifyItems ref fun _ _ all => ItemsMirror.pop ⟨all⟩

/-- Looking up a key of a map is the same on machines that mirror each other. -/
theorem callMapGet_mirrors {key key' : Value} (keys : key.Mirrors pairing key') :
    (callMapGet receiver key).Mirrors pairing scope scope' (Value.Mirrors pairing)
      (callMapGet receiver' key') := by
  refine (mapReceiver_mirrors receivers _).bindSame fun ref =>
    Run.Mirrors.heap.bind fun {heap heap'} heaps => ?_
  rw [heaps.keyOf keys]
  rcases ((heaps.content ref).find? (heap.keyOf key)).cases with
    ⟨first, second⟩ | ⟨pair, pair', first, second, pairs⟩
  · rw [first, second]
    exact .pure .nil
  · rw [first, second]
    exact .pure pairs.2

/-- Setting a key of a map is the same on machines that mirror each other. -/
theorem callMapSet_mirrors {key key' value value' : Value} (keys : key.Mirrors pairing key')
    (values : value.Mirrors pairing value') :
    (callMapSet receiver key value).Mirrors pairing scope scope' (Value.Mirrors pairing)
      (callMapSet receiver' key' value') := by
  apply (mapReceiver_mirrors receivers _).bindSame
  intro ref
  apply (keptKey_mirrors keys).bind
  intro kept kept' keys
  apply Run.Mirrors.heap.bind
  intro heap heap' heaps
  dsimp only
  rw [heaps.keyOf keys]
  apply (Run.Mirrors.modifyHeap fun heaps => heaps.insertContent ref _ ⟨keys, values⟩).bindSame
  exact fun _ => .pure .nil

end Methods

/-- With as many arguments as it takes, a function does the same to values that mirror each
other. -/
theorem perform_mirrors (function : Builtin) {receiver receiver' : Option Value}
    (receivers : ReceiversMirror pairing receiver receiver') {arguments arguments' : List Value}
    (all : List.Forall₂ (Value.Mirrors pairing) arguments arguments') (span : Span)
    (accepted : function.arity.accepts arguments.length = true) :
    (function.perform receiver arguments span).Mirrors pairing scope scope' (Value.Mirrors pairing)
      (function.perform receiver' arguments' span) := by
  cases function with
  | input =>
    rcases all with _ | ⟨prompt, _ | _⟩
    case cons.nil => exact callInput_mirrors prompt
    all_goals exact absurd accepted (by simp [arity, Arity.accepts])
  | clock =>
    rcases all with _ | _
    case nil => exact callClock_mirrors
    all_goals exact absurd accepted (by simp [arity, Arity.accepts])
  | delay =>
    rcases all with _ | ⟨first, _ | ⟨second, _ | _⟩⟩
    case cons.cons.nil => exact callDelay_mirrors first second
    all_goals exact absurd accepted (by simp [arity, Arity.accepts])
  | read =>
    rcases all with _ | ⟨path, _ | ⟨callback, _ | _⟩⟩
    case cons.cons.nil => exact callRead_mirrors span path callback
    all_goals exact absurd accepted (by simp [arity, Arity.accepts])
  | write =>
    rcases all with _ | ⟨path, _ | ⟨mode, _ | ⟨data, _ | ⟨callback, _ | _⟩⟩⟩⟩
    case cons.cons.cons.cons.nil => exact callWrite_mirrors span path mode data callback
    all_goals exact absurd accepted (by simp [arity, Arity.accepts])
  | request =>
    rcases all with _ | ⟨url, _ | ⟨body, _ | ⟨headers, _ | ⟨method, _ | ⟨callback, _ | _⟩⟩⟩⟩⟩
    case cons.cons.cons.cons.cons.nil =>
      exact callRequest_mirrors span url body headers method callback
    all_goals exact absurd accepted (by simp [arity, Arity.accepts])
  | string =>
    rcases all with _ | ⟨value, _ | _⟩
    case cons.nil =>
      exact (display_mirrors value).bindSame fun _ => .create fun heaps => heaps.newString _
    all_goals exact absurd accepted (by simp [arity, Arity.accepts])
  | list => exact .create fun heaps => heaps.newList all
  | map =>
    rcases all with _ | _
    case nil => exact .create fun heaps => heaps.newMap OrderedMap.rel_empty
    all_goals exact absurd accepted (by simp [arity, Arity.accepts])
  | stringAt =>
    rcases all with _ | ⟨index, _ | _⟩
    case cons.nil => exact callStringAt_mirrors receivers index
    all_goals exact absurd accepted (by simp [arity, Arity.accepts])
  | stringAlter =>
    rcases all with _ | ⟨index, _ | ⟨replacement, _ | _⟩⟩
    case cons.cons.nil => exact callStringAlter_mirrors receivers index replacement
    all_goals exact absurd accepted (by simp [arity, Arity.accepts])
  | stringLength =>
    rcases all with _ | _
    case nil => exact callStringLength_mirrors receivers
    all_goals exact absurd accepted (by simp [arity, Arity.accepts])
  | listAt =>
    rcases all with _ | ⟨index, _ | _⟩
    case cons.nil => exact callListAt_mirrors receivers index
    all_goals exact absurd accepted (by simp [arity, Arity.accepts])
  | listAlter =>
    rcases all with _ | ⟨index, _ | ⟨item, _ | _⟩⟩
    case cons.cons.nil => exact callListAlter_mirrors receivers index item
    all_goals exact absurd accepted (by simp [arity, Arity.accepts])
  | listLength =>
    rcases all with _ | _
    case nil => exact callListLength_mirrors receivers
    all_goals exact absurd accepted (by simp [arity, Arity.accepts])
  | listPush =>
    rcases all with _ | ⟨item, _ | _⟩
    case cons.nil => exact callListPush_mirrors receivers item
    all_goals exact absurd accepted (by simp [arity, Arity.accepts])
  | listPop =>
    rcases all with _ | _
    case nil => exact callListPop_mirrors receivers
    all_goals exact absurd accepted (by simp [arity, Arity.accepts])
  | mapGet =>
    rcases all with _ | ⟨key, _ | _⟩
    case cons.nil => exact callMapGet_mirrors receivers key
    all_goals exact absurd accepted (by simp [arity, Arity.accepts])
  | mapSet =>
    rcases all with _ | ⟨key, _ | ⟨value, _ | _⟩⟩
    case cons.cons.nil => exact callMapSet_mirrors receivers key value
    all_goals exact absurd accepted (by simp [arity, Arity.accepts])

/-- A built-in function does the same to values that mirror each other. -/
theorem call_mirrors (function : Builtin) {receiver receiver' : Option Value}
    (receivers : ReceiversMirror pairing receiver receiver') {arguments arguments' : List Value}
    (all : List.Forall₂ (Value.Mirrors pairing) arguments arguments') (span : Span) :
    (function.call receiver arguments span).Mirrors pairing scope scope' (Value.Mirrors pairing)
      (function.call receiver' arguments' span) := by
  have performed := @perform_mirrors pairing scope scope' function _ _ receivers _ _ all span
  unfold call
  rw [← all.length_eq]
  cases arity : function.arity with
  | exactly expected =>
    rw [arity] at performed
    dsimp only
    by_cases enough : expected = arguments.length
    · rw [if_pos enough, if_pos enough]
      exact performed (beq_iff_eq.mpr enough)
    · rw [if_neg enough, if_neg enough]
      exact .faultAt _ _
  | any =>
    rw [arity] at performed
    exact performed rfl

end Builtin

/-- The arguments made from the result of an operation mirror each other. -/
theorem Payload.arguments_mirrors {pairing : Pairing} {scope scope' : Nat} (payload : Payload) :
    payload.arguments.Mirrors pairing scope scope' (List.Forall₂ (Value.Mirrors pairing))
      payload.arguments := by
  have text : ∀ content : String, Run.Mirrors pairing scope scope' (Value.Mirrors pairing)
      (Run.create fun heap => heap.newString content)
      (Run.create fun heap => heap.newString content) :=
    fun content => .create fun heaps => heaps.newString content
  unfold Payload.arguments
  split
  · exact .pure .nil
  · exact (text _).bind fun values => .pure (.cons values .nil)
  · rename_i status headers body
    have pair : ∀ header : String × String, Run.Mirrors pairing scope scope'
        (fun pair pair' : Value × Value =>
          pair.1.Mirrors pairing pair'.1 ∧ pair.2.Mirrors pairing pair'.2)
        (do
          let name ← Run.create fun heap => heap.newString header.1
          let value ← Run.create fun heap => heap.newString header.2
          return (name, value))
        (do
          let name ← Run.create fun heap => heap.newString header.1
          let value ← Run.create fun heap => heap.newString header.2
          return (name, value)) :=
      fun header => (text _).bind fun names => (text _).bind fun values => .pure ⟨names, values⟩
    have numbered : Run.Mirrors pairing scope scope' Eq (Run.create Heap.newIdentity)
        (Run.create Heap.newIdentity) :=
      .create fun heaps => ⟨heaps.newIdentity.1.symm, heaps.newIdentity.2⟩
    apply numbered.bindSame
    intro identity
    apply Run.Mirrors.machine.bind
    intro machine machine' machines
    apply (text body).bind
    intro body body' bodies
    apply (Run.Mirrors.mapM headers pair).bind
    intro pairs pairs' all
    refine Run.Mirrors.bind (.create fun heaps => heaps.newMap (heaps.contentOf all))
      fun {headers headers'} contents => ?_
    have fields : (OrderedMap.ofList
        [("body", body), ("headers", headers), ("status", Value.number status.toFloat)]).Rel
        (Value.Mirrors pairing) (OrderedMap.ofList
        [("body", body'), ("headers", headers'), ("status", Value.number status.toFloat)]) := by
      apply OrderedMap.rel_ofList
      exact .cons ⟨rfl, bodies⟩ (.cons ⟨rfl, contents⟩ (.cons ⟨rfl, .number _⟩ .nil))
    refine Run.Mirrors.bind (.create fun {heap heap'} heaps => ?_) fun values =>
      .pure (.cons values .nil)
    have same : heap'.instances.size = heap.instances.size := heaps.instances.size
    refine ⟨?_, { heaps with
      instances := heaps.instances.alloc ⟨⟨⟨rfl, rfl, rfl, machines.globals⟩, .nil⟩, fields⟩ }⟩
    show Value.Mirrors pairing (.object heap.instances.size) (.object heap'.instances.size)
    rw [same]
    exact .object _

end EventScript
