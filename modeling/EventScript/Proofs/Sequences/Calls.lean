import EventScript.Proofs.Evaluation.Atomicity
import EventScript.Proofs.Evaluation.Ledger
import EventScript.Proofs.Sequences.Operations

/-!
# Lists and strings as sequences

A list is a sequence of values, and a string is a sequence of characters. A `SequenceView` says
which operation a call of a method asks for. The call does what the operation does, whatever the
heap is (`SequenceView.Lawful.does`), and every other call of a built-in function leaves the
sequence as it is (`SequenceView.Lawful.call_leaves`).
-/

namespace EventScript

open Run

namespace SequenceReply

variable {α : Type}

/-- The value is what a program gets as the answer. -/
def Gives (shows : α → Value → Prop) : SequenceReply α → Value → Prop
  | element item, value => shows item value
  | count length, value => value = .number length.toFloat
  | nothing, value => value = .nil
  | noNumber, _ | outside, _ | empty, _ => False

/-- The fault that a failure is reported as, of an index with the given text in a sequence of this
length. -/
def fault? (function : Builtin) (shown : String) (length : ℕ) : SequenceReply α → Option Fault
  | noNumber => some (.indexNotNumber function.name shown)
  | outside => some (.indexOutOfBounds function.name shown length)
  | empty => some .popFromEmpty
  | element _ | count _ | nothing => none

/-- A reply that stands for a fault is a failing one. -/
theorem fails_of_fault? {reply : SequenceReply α} {function : Builtin} {shown : String} {length : ℕ}
    {fault : Fault} (refused : reply.fault? function shown length = some fault) :
    reply.fails = true := by
  cases reply <;> first | rfl | contradiction

/-- What is no number is a matter of types, and all else is one of indices. -/
theorem kind_of_fault? {reply : SequenceReply α} {function : Builtin} {shown : String} {length : ℕ}
    {fault : Fault} (refused : reply.fault? function shown length = some fault) :
    reply = .noNumber ∧ fault.kind = .type ∨ (reply = .outside ∨ reply = .empty) ∧
    fault.kind = .index := by
  cases reply with
  | noNumber =>
    obtain rfl := Option.some.inj refused
    exact .inl ⟨rfl, rfl⟩
  | outside =>
    obtain rfl := Option.some.inj refused
    exact .inr ⟨.inl rfl, rfl⟩
  | empty =>
    obtain rfl := Option.some.inj refused
    exact .inr ⟨.inr rfl, rfl⟩
  | _ => contradiction

end SequenceReply

/-- The text of the first argument. -/
def Heap.shown (heap : Heap) : List Value → String
  | [] => ""
  | first :: _ => first.display heap

/-- How the objects of a type are seen as sequences. -/
structure SequenceView (α : Type) where
  type : String
  /-- The number of an object. -/
  ref? : Value → Option ℕ
  contents? : Heap → ℕ → Option (List α)
  /-- The operation that a call of a method with these arguments asks for. -/
  asks? : Heap → Builtin → List Value → Option (SequenceOp α)
  /-- The value shows the element, after the heap has become another one. -/
  Shows : Heap → Heap → α → Value → Prop

/-- Lists, with their elements. -/
def listView : SequenceView Value where
  type := "list"
  ref?
    | .list ref => some ref
    | _ => none
  contents? heap ref := (heap.lists.get? ref).map Array.toList
  asks? _ function arguments :=
    match function, arguments with
    | .listAt, [index] => some (.get index.number?)
    | .listAlter, [index, item] => some (.alter index.number? [item])
    | .listLength, [] => some .length
    | .listPush, [item] => some (.push item)
    | .listPop, [] => some .pop
    | _, _ => none
  Shows _ _ item value := value = item

/-- Strings, with their characters. A character is shown as a new string, and the text of any value
may take the place of one. -/
def stringView : SequenceView Char where
  type := "string"
  ref?
    | .string ref => some ref
    | _ => none
  contents? heap ref := (heap.strings.get? ref).map String.toList
  asks? heap function arguments :=
    match function, arguments with
    | .stringAt, [index] => some (.get index.number?)
    | .stringAlter, [index, value] => some (.alter index.number? (value.display heap).toList)
    | .stringLength, [] => some .length
    | _, _ => none
  Shows before after character value :=
    ∃ ref, value = .string ref ∧ before.strings.get? ref = none ∧
      after.strings.get? ref = some (String.ofList [character])

namespace SequenceView

variable {α : Type}

/-- The call comes to what is said in answer, and to the sequence that is left. Otherwise it only
makes strings, lists and maps. It reports a failure, and then it has changed nothing at all. -/
inductive Does (view : SequenceView α) (function : Builtin) (object : Value) (ref : ℕ)
    (arguments : List Value) (machine : Machine) (length : ℕ) (result : SequenceReply α × List α) :
    Outcome Value → Prop where
  | gives {value : Value} {heap : Heap}
      (given : result.1.Gives (view.Shows machine.heap heap) value)
      (contents : view.contents? heap ref = some result.2)
      (others : machine.heap.ChangesData (some object) heap) :
      Does view function object ref arguments machine length result
        (.done value { machine with heap })
  | fails {fault : Fault}
      (refused : result.1.fault? function (machine.heap.shown arguments) length = some fault) :
      Does view function object ref arguments machine length result
        (.failed fault.diagnostic machine)

/-- What is to be shown of a view. -/
structure Lawful (view : SequenceView α) : Prop where
  typed : ∀ {object : Value} {ref : ℕ}, view.ref? object = some ref → object.typeName = view.type
  kept : ∀ {own : Option Value} {before after : Heap} {ref : ℕ} {contents : List α},
    before.KeepsOthers own after → (∀ object ∈ own, view.ref? object ≠ some ref) →
    view.contents? before ref = some contents → view.contents? after ref = some contents
  covers : ∀ {heap : Heap} {function : Builtin} {arguments : List Value},
    function.owner? = some view.type → function.arity.accepts arguments.length = true →
    view.asks? heap function arguments ≠ none
  stocked : ∀ {ledger : Ledger} {heap : Heap} {object : Value} {ref : ℕ}, ledger.Describes heap →
    ledger.Vouches object → view.ref? object = some ref → ∃ contents,
      view.contents? heap ref = some contents
  does : ∀ {function : Builtin} {object : Value} {ref : ℕ} {arguments : List Value}
    {machine : Machine}
    {contents : List α} {operation : SequenceOp α} (span : Span), view.ref? object = some ref →
    view.contents? machine.heap ref = some contents →
    view.asks? machine.heap function arguments = some operation →
    view.Does function object ref arguments machine contents.length (operation.apply contents)
      (function.call (some object) arguments span machine)

end SequenceView

/-! ## Calls that ask for nothing -/

namespace Builtin

variable {function : Builtin} {arguments : List Value} {span : Span} {machine : Machine}

/-- A global function does not look at an object. -/
theorem perform_receiver (global : function.owner? = none) (first second : Option Value) :
    function.perform first arguments span = function.perform second arguments span := by
  unfold perform
  split <;> first | rfl | contradiction

/-- A method refuses an object of another type. -/
theorem perform_wrongReceiver {object : Value} {type : String}
    (method : function.owner? = some type)
    (other : object.typeName ≠ type) (accepts : function.arity.accepts arguments.length = true) :
    function.perform (some object) arguments span machine =
      .failed (Fault.wrongReceiver function.name type).diagnostic machine := by
  match function, arguments, accepts with
  | stringAt, [_], _ | stringAlter, [_, _], _ | stringLength, [], _ =>
    obtain rfl : "string" = type := Option.some.inj method
    exact bind_failed ((stringReceiver_receives _ _).refuses (fun _ => rfl) other machine)
  | listAt, [_], _ | listAlter, [_, _], _ | listLength, [], _ | listPush, [_], _ | listPop, [], _ =>
    obtain rfl : "list" = type := Option.some.inj method
    exact bind_failed ((listReceiver_receives _ _).refuses (fun _ => rfl) other machine)
  | mapGet, [_], _ | mapSet, [_, _], _ =>
    obtain rfl : "map" = type := Option.some.inj method
    exact bind_failed ((mapReceiver_receives _ _).refuses (fun _ => rfl) other machine)
  | input, _, _ | clock, _, _ | delay, _, _ | read, _, _ | write, _, _ | request, _, _
  | string, _, _ | list, _, _ | map, _, _ => contradiction

/-- A call that is none of a method of the object leaves this as it is too. -/
theorem call_keepsAll {object : Value} (other : function.arity.accepts arguments.length = true →
    function.owner? ≠ some object.typeName) :
    (function.call (some object) arguments span machine).Leaves fun later =>
      machine.heap.KeepsOthers none later.heap := by
  have same : machine.heap.KeepsOthers none machine.heap := machine.heap.keepsOthers_refl none
  refine (call_is (fun _ _ => same) fun accepts => ?_).leaves
  -- A global function would do the same without the object, and a method of another type refuses
  -- it.
  cases owner : function.owner? with
  | none =>
    rw [perform_receiver owner (some object) none, ← call_of_accepts accepts]
    exact (call_ranNoCode machine).imp (fun _ _ ran => ran.data.others) fun _ _ ran =>
      ran.data.others
  | some type =>
    have wrong : object.typeName ≠ type := by
      rintro rfl
      exact other accepts owner
    rw [perform_wrongReceiver owner wrong accepts]
    exact same

end Builtin

namespace SequenceView.Lawful

variable {α : Type} {view : SequenceView α}

/-- A call of a built-in function leaves a sequence as it is if it asks for nothing to be done with
it. -/
theorem call_leaves (lawful : view.Lawful) {function : Builtin} {receiver : Option Value}
    {arguments : List Value} {machine : Machine} {ref : ℕ} {contents : List α} (span : Span)
    (present : view.contents? machine.heap ref = some contents)
    (idle : ∀ object ∈ receiver, view.ref? object = some ref →
      view.asks? machine.heap function arguments = none) :
    (function.call receiver arguments span machine).Leaves fun later =>
      view.contents? later.heap ref = some contents := by
  by_cases own : ∃ object ∈ receiver, view.ref? object = some ref
  · obtain ⟨object, rfl, isRef⟩ := own
    have other : function.arity.accepts arguments.length = true →
        function.owner? ≠ some object.typeName := fun accepts owner =>
      lawful.covers (lawful.typed isRef ▸ owner) accepts (idle object rfl isRef)
    exact Outcome.Leaves.imp (Builtin.call_keepsAll other) fun later kept =>
      lawful.kept kept nofun present
  · have others : ∀ object ∈ receiver, view.ref? object ≠ some ref := fun object member isRef =>
      own ⟨object, member, isRef⟩
    exact Outcome.Leaves.imp (Builtin.call_ranNoCode machine).leaves fun later ran =>
      lawful.kept ran.data.others others present

end SequenceView.Lawful

/-! ## Calls that ask for an operation -/

/-- The places that indices name are those that the number without its fraction lies at. -/
theorem Builtin.indexWithin?_eq (number : Float) (length : ℕ) :
    indexWithin? number length = (Number.place? number length).map Fin.val := by
  unfold indexWithin? Number.place?
  rw [Number.truncate?_eq]
  cases Number.value? number with
  | none => rfl
  | some value =>
    dsimp only [Option.map_some, Option.bind_some]
    by_cases inside : 0 ≤ Number.towardZero value ∧ Number.towardZero value < length
    · rw [if_pos inside, dif_pos inside]
      rfl
    · rw [if_neg inside, dif_neg inside]
      rfl

/-- An index is refused if it is no number or names no place in the sequence. -/
theorem Builtin.expectIndex_eq (function : Builtin) (index : Value) (length : ℕ)
    (machine : Machine) :
    expectIndex function index length machine =
      match index.number? with
      | none => .failed (Fault.indexNotNumber function.name (index.display machine.heap)).diagnostic
          machine
      | some number =>
        match Number.place? number length with
        | none =>
          .failed (Fault.indexOutOfBounds function.name (index.display machine.heap)
            length).diagnostic
            machine
        | some place => .done place machine := by
  unfold expectIndex
  cases index.number? with
  | none => rfl
  | some number =>
    dsimp only
    rw [indexWithin?_eq]
    cases Number.place? number length <;> rfl

namespace SequenceView

variable {α : Type} {view : SequenceView α} {function : Builtin} {object index : Value} {ref : ℕ}
variable {others : List Value} {machine : Machine} {contents : List α}

/-- What goes on from a place in the sequence does what the operation does there. -/
theorem does_locate {found : Fin contents.length → SequenceReply α × List α} {rest : ℕ → Run Value}
    (onward : ∀ place : Fin contents.length,
      view.Does function object ref (index :: others) machine contents.length (found place)
        (rest place machine)) :
    view.Does function object ref (index :: others) machine contents.length
      (SequenceOp.locate index.number? contents found)
      ((Builtin.expectIndex function index contents.length >>= rest) machine) := by
  have checked := Builtin.expectIndex_eq function index contents.length machine
  unfold SequenceOp.locate
  cases number : index.number? with
  | none =>
    rw [number] at checked
    rw [bind_failed checked]
    exact .fails rfl
  | some number' =>
    rw [number] at checked
    dsimp only at checked ⊢
    cases place : Number.place? number' contents.length with
    | none =>
      rw [place] at checked
      rw [bind_failed checked]
      exact .fails rfl
    | some place' =>
      rw [place] at checked
      rw [bind_done checked]
      exact onward place'

end SequenceView

section Lists

open Builtin

variable {ref : ℕ} {items : Array Value} {machine : Machine}

/-- The items of a list are what is stored for it. -/
theorem Heap.items_eq {heap : Heap} (present : heap.lists.get? ref = some items) :
    heap.items ref = items := by
  rw [Heap.items, present]
  rfl

/-- What is said of a list whose elements changed. -/
theorem listView_modified (present : machine.heap.lists.get? ref = some items)
    (change : Array Value → Array Value) :
    listView.contents? (machine.heap.modifyItems ref change) ref = some (change items).toList := by
  show ((machine.heap.lists.modify ref change).get? ref).map Array.toList = _
  rw [Store.get?_modify, if_pos rfl, present]
  rfl

/-- Reading an item of a list is the operation on its items. -/
theorem callListAt_does (present : machine.heap.lists.get? ref = some items) (index : Value) :
    listView.Does .listAt (.list ref) ref [index] machine items.toList.length
      (SequenceOp.apply items.toList (.get index.number?))
      (callListAt (some (.list ref)) index machine) := by
  have steps : callListAt (some (.list ref)) index machine =
      (expectIndex .listAt index items.toList.length >>= fun place =>
        (pure (items[place]?.getD .nil) : Run Value)) machine := by
    rw [← Heap.items_eq present]
    rfl
  rw [steps]
  refine SequenceView.does_locate fun place => ?_
  have found : items[place.val]?.getD .nil = items.toList[place] := by simp
  refine .gives found ?_ (machine.heap.changesData_refl _)
  exact congrArg (Option.map Array.toList) present

/-- Replacing an item of a list is the operation on its items. -/
theorem callListAlter_does (present : machine.heap.lists.get? ref = some items)
    (index item : Value) :
    listView.Does .listAlter (.list ref) ref [index, item] machine items.toList.length
      (SequenceOp.apply items.toList (.alter index.number? [item]))
      (callListAlter (some (.list ref)) index item machine) := by
  have steps : callListAlter (some (.list ref)) index item machine =
      (expectIndex .listAlter index items.toList.length >>= fun place => do
        modifyHeap fun heap => heap.modifyItems ref fun items => items.setIfInBounds place item
        return .nil : Run Value) machine := by
    rw [← Heap.items_eq present]
    rfl
  rw [steps]
  refine SequenceView.does_locate fun place => ?_
  refine .gives rfl ?_ (machine.heap.changesData_modifyItems ref _)
  have altered : (items.setIfInBounds place item).toList =
      items.toList.take place ++ [item] ++ items.toList.drop (place + 1) := by
    rw [Array.toList_setIfInBounds, List.set_eq_take_append_cons_drop, if_pos place.isLt,
      List.append_assoc]
    rfl
  rw [listView_modified present, altered]

/-- Asking for the length of a list is the operation on its items. -/
theorem callListLength_does (present : machine.heap.lists.get? ref = some items) :
    listView.Does .listLength (.list ref) ref [] machine items.toList.length
      (SequenceOp.apply items.toList .length) (callListLength (some (.list ref)) machine) := by
  have steps : callListLength (some (.list ref)) machine =
      .done (.number items.toList.length.toFloat) machine := by
    rw [← Heap.items_eq present]
    rfl
  rw [steps]
  exact .gives rfl (congrArg (Option.map Array.toList) present) (machine.heap.changesData_refl _)

/-- Adding an item to a list is the operation on its items. -/
theorem callListPush_does (present : machine.heap.lists.get? ref = some items) (item : Value) :
    listView.Does .listPush (.list ref) ref [item] machine items.toList.length
      (SequenceOp.apply items.toList (.push item))
      (callListPush (some (.list ref)) item machine) := by
  refine .gives rfl ?_ (machine.heap.changesData_modifyItems ref fun items => items.push item)
  rw [listView_modified present, Array.toList_push]
  rfl

/-- Taking the last item off a list is the operation on its items. -/
theorem callListPop_does (present : machine.heap.lists.get? ref = some items) :
    listView.Does .listPop (.list ref) ref [] machine items.toList.length
      (SequenceOp.apply items.toList .pop) (callListPop (some (.list ref)) machine) := by
  have receiver : listReceiver .listPop (some (.list ref)) machine = .done ref machine := rfl
  have heap : Run.heap machine = .done machine.heap machine := rfl
  unfold callListPop SequenceOp.apply
  rw [bind_done receiver, bind_done heap, Heap.lastItem?, Heap.items_eq present,
    Array.getLast?_toList]
  cases items.back? with
  | none => exact .fails rfl
  | some last =>
    refine .gives rfl ?_ (machine.heap.changesData_modifyItems ref fun items => items.pop)
    rw [listView_modified present, Array.toList_pop]

end Lists

section Strings

open Builtin

variable {ref : ℕ} {text : String} {machine : Machine}

/-- The text of a string is what is stored for it. -/
theorem Heap.text_eq {heap : Heap} (present : heap.strings.get? ref = some text) :
    heap.text ref = text := by
  rw [Heap.text, present]
  rfl

/-- What is said of a string whose text changed. -/
theorem stringView_set (present : machine.heap.strings.get? ref = some text)
    (characters : List Char) :
    stringView.contents? (machine.heap.setText ref (String.ofList characters)) ref =
      some characters := by
  have inside : ref < machine.heap.strings.size := (Array.getElem?_eq_some_iff.mp present).1
  show ((machine.heap.strings.set ref (String.ofList characters)).get? ref).map String.toList = _
  rw [Store.get?_set, if_pos ⟨rfl, inside⟩]
  exact congrArg some String.toList_ofList

/-- Reading a character of a string is the operation on its characters. -/
theorem callStringAt_does (present : machine.heap.strings.get? ref = some text) (index : Value) :
    stringView.Does .stringAt (.string ref) ref [index] machine text.toList.length
      (SequenceOp.apply text.toList (.get index.number?))
      (callStringAt (some (.string ref)) index machine) := by
  have steps : callStringAt (some (.string ref)) index machine =
      (expectIndex .stringAt index text.toList.length >>= fun place =>
        create fun heap => heap.newString (String.ofList text.toList[place]?.toList)) machine := by
    rw [← Heap.text_eq present]
    rfl
  rw [steps]
  refine SequenceView.does_locate fun place => ?_
  have found : text.toList[place.val]?.toList = [text.toList[place]] := by simp
  rw [found]
  have unused : machine.heap.strings.get? machine.heap.strings.size = none := Array.getElem?_size
  have made : (machine.heap.newString (String.ofList [text.toList[place]])).2.strings.get?
      machine.heap.strings.size = some (String.ofList [text.toList[place]]) :=
    (Store.get?_alloc ..).trans (if_pos rfl)
  have kept :=
    (machine.heap.keepsOthers_newString none (String.ofList [text.toList[place]])).strings ref text
    nofun present
  exact .gives ⟨_, rfl, unused, made⟩ (congrArg (Option.map String.toList) kept)
    (Heap.changesData_newString _ machine.heap _)

/-- Replacing a character of a string is the operation on its characters. -/
theorem callStringAlter_does (present : machine.heap.strings.get? ref = some text)
    (index value : Value) :
    stringView.Does .stringAlter (.string ref) ref [index, value] machine text.toList.length
      (SequenceOp.apply text.toList (.alter index.number? (value.display machine.heap).toList))
      (callStringAlter (some (.string ref)) index value machine) := by
  have steps : callStringAlter (some (.string ref)) index value machine =
      (expectIndex .stringAlter index text.toList.length >>= fun place => do
        let replacement ← display value
        modifyHeap fun heap => heap.setText ref (String.ofList
          (text.toList.take place ++ replacement.toList ++ text.toList.drop (place + 1)))
        return .nil : Run Value) machine := by
    rw [← Heap.text_eq present]
    rfl
  rw [steps]
  refine SequenceView.does_locate fun place => ?_
  exact .gives rfl (stringView_set present _) (machine.heap.changesData_setText ref _)

/-- Asking for the length of a string is the operation on its characters. -/
theorem callStringLength_does (present : machine.heap.strings.get? ref = some text) :
    stringView.Does .stringLength (.string ref) ref [] machine text.toList.length
      (SequenceOp.apply text.toList .length) (callStringLength (some (.string ref)) machine) := by
  have steps : callStringLength (some (.string ref)) machine =
      .done (.number text.toList.length.toFloat) machine := by
    rw [← Heap.text_eq present]
    rfl
  rw [steps]
  exact .gives rfl (congrArg (Option.map String.toList) present) (machine.heap.changesData_refl _)

end Strings

/-! ## The two views -/

/-- Only lists have the number of a list. -/
theorem Value.eq_list_of_ref? {object : Value} {ref : ℕ} (isRef : listView.ref? object = some ref) :
    object = .list ref := by
  cases object with
  | list => exact congrArg Value.list (Option.some.inj isRef)
  | _ => contradiction

/-- Only strings have the number of a string. -/
theorem Value.eq_string_of_ref? {object : Value} {ref : ℕ}
    (isRef : stringView.ref? object = some ref) :
    object = .string ref := by
  cases object with
  | string => exact congrArg Value.string (Option.some.inj isRef)
  | _ => contradiction

/-- Lists are sequences of values. -/
theorem listView_lawful : listView.Lawful where
  typed isRef := Value.eq_list_of_ref? isRef ▸ rfl
  kept := by
    intro own before after ref contents keeps others present
    obtain ⟨items, stored, rfl⟩ := Option.map_eq_some_iff.mp present
    refine congrArg (Option.map Array.toList) (keeps.lists ref items ?_ stored)
    rintro rfl
    exact others (.list ref) rfl rfl
  covers := by
    intro heap function arguments method accepts
    match function, arguments, accepts with
    | .listAt, [_], _ | .listAlter, [_, _], _ | .listLength, [], _ | .listPush, [_], _
    | .listPop, [], _ => nofun
    | .stringAt, _, _ | .stringAlter, _, _ | .stringLength, _, _ | .mapGet, _, _ | .mapSet, _, _ =>
      contradiction
  stocked := by
    intro ledger heap object ref describes vouches isRef
    obtain rfl := Value.eq_list_of_ref? isRef
    have inside : ref < ledger.stock.lists := vouches.stocked
    rw [← describes.stock] at inside
    exact ⟨_, congrArg (Option.map Array.toList) (Array.getElem?_eq_getElem inside)⟩
  does := by
    intro function object ref arguments machine contents operation span isRef present asks
    obtain rfl := Value.eq_list_of_ref? isRef
    obtain ⟨items, stored, rfl⟩ := Option.map_eq_some_iff.mp present
    match function, arguments, asks with
    | .listAt, [index], rfl => exact callListAt_does stored index
    | .listAlter, [index, item], rfl => exact callListAlter_does stored index item
    | .listLength, [], rfl => exact callListLength_does stored
    | .listPush, [item], rfl => exact callListPush_does stored item
    | .listPop, [], rfl => exact callListPop_does stored

/-- Strings are sequences of characters. -/
theorem stringView_lawful : stringView.Lawful where
  typed isRef := Value.eq_string_of_ref? isRef ▸ rfl
  kept := by
    intro own before after ref contents keeps others present
    obtain ⟨text, stored, rfl⟩ := Option.map_eq_some_iff.mp present
    refine congrArg (Option.map String.toList) (keeps.strings ref text ?_ stored)
    rintro rfl
    exact others (.string ref) rfl rfl
  covers := by
    intro heap function arguments method accepts
    match function, arguments, accepts with
    | .stringAt, [_], _ | .stringAlter, [_, _], _ | .stringLength, [], _ => nofun
    | .listAt, _, _ | .listAlter, _, _ | .listLength, _, _ | .listPush, _, _ | .listPop, _, _
    | .mapGet, _, _ | .mapSet, _, _ => contradiction
  stocked := by
    intro ledger heap object ref describes vouches isRef
    obtain rfl := Value.eq_string_of_ref? isRef
    cases vouches with
    | intro string =>
      have inside : ref < ledger.strings := (string ref rfl).1
      rw [← describes.strings] at inside
      exact ⟨_, congrArg (Option.map String.toList) (Array.getElem?_eq_getElem inside)⟩
  does := by
    intro function object ref arguments machine contents operation span isRef present asks
    obtain rfl := Value.eq_string_of_ref? isRef
    obtain ⟨text, stored, rfl⟩ := Option.map_eq_some_iff.mp present
    match function, arguments, asks with
    | .stringAt, [index], rfl => exact callStringAt_does stored index
    | .stringAlter, [index, value], rfl => exact callStringAlter_does stored index value
    | .stringLength, [], rfl => exact callStringLength_does stored

end EventScript
