import EventScript.Value.Display
import Mathlib.Data.List.Forall2

/-!
# How values are written

`Value.Rendered` is the plain rendering of a value, without a bound and without a state: a list or
map is written with all its contents, but where it stands inside itself only a mark is written.
Every value has exactly one rendering, on whatever heap, and it is what is displayed. Writing it
adds it to the text and leaves open what was open (`Value.display_rendered`).
-/

namespace EventScript

/-- The list or map that the value is. -/
def Value.container? : Value → Option Container
  | .list ref => some (.list ref)
  | .map ref => some (.map ref)
  | _ => none

/-- The rendering of a value inside the containers `around`. What stands elsewhere has no bearing on
it. -/
inductive Value.Rendered (heap : Heap) : List Container → Value → String → Prop where
  | plain {around : List Container} {value : Value} (other : value.container? = none) :
      Rendered heap around value (value.label heap)
  | listAgain {around : List Container} {ref : Nat} (inside : .list ref ∈ around) :
      Rendered heap around (.list ref) "[...]"
  | mapAgain {around : List Container} {ref : Nat} (inside : .map ref ∈ around) :
      Rendered heap around (.map ref) "\x7b...\x7d"
  | list {around : List Container} {ref : Nat} {texts : List String} (outside : .list ref ∉ around)
      (count : (heap.items ref).toList.length = texts.length)
      (each : ∀ place ∈ (heap.items ref).toList.zip texts,
        Rendered heap (.list ref :: around) place.1 place.2) :
      Rendered heap around (.list ref) ("[" ++ String.intercalate ", " texts ++ "]")
  | map {around : List Container} {ref : Nat} {texts : List (String × String)}
      (outside : .map ref ∉ around) (count : (heap.content ref).values.length = texts.length)
      (keys : ∀ place ∈ (heap.content ref).values.zip texts,
        Rendered heap (.map ref :: around) place.1.1 place.2.1)
      (values : ∀ place ∈ (heap.content ref).values.zip texts,
        Rendered heap (.map ref :: around) place.1.2 place.2.2) :
      Rendered heap around (.map ref)
        ("\x7b" ++ String.intercalate ", " (texts.map fun text => text.1 ++ ": " ++
          text.2) ++ "\x7d")

namespace Heap

/-- The lists and maps on the heap. -/
def containers (heap : Heap) : List Container :=
  (List.range heap.lists.size).map .list ++ (List.range heap.maps.size).map .map

/-- How many lists and maps are not open. -/
def unopened (heap : Heap) (opened : List Container) : Nat :=
  (heap.containers.filter (· ∉ opened)).length

variable {heap : Heap} {opened : List Container} {ref : Nat}

/-- Opening a container leaves fewer of them to be opened. -/
theorem unopened_lt {container : Container} (stored : container ∈ heap.containers)
    (outside : container ∉ opened) :
    heap.unopened (container :: opened) < heap.unopened opened := by
  have fewer : heap.containers.filter (· ∉ container :: opened) =
      (heap.containers.filter (· ∉ opened)).filter (· ≠ container) := by
    rw [List.filter_filter]
    apply List.filter_congr
    intro other _
    simp
  unfold unopened
  rw [fewer]
  apply List.length_filter_lt_length_iff_exists.mpr
  exact ⟨container, List.mem_filter.mpr ⟨stored, by simpa using outside⟩, by simp⟩

/-- At first all containers can be opened. -/
theorem unopened_nil (heap : Heap) : heap.unopened [] = heap.lists.size + heap.maps.size := by
  simp [unopened, containers]

/-- Only what is on the heap has elements. -/
theorem list_mem_containers {item : Value} (member : item ∈ (heap.items ref).toList) :
    .list ref ∈ heap.containers := by
  apply List.mem_append_left
  apply List.mem_map_of_mem
  rw [List.mem_range]
  by_contra outside
  have nothing : heap.lists.get? ref = none := Array.getElem?_eq_none (Nat.not_lt.mp outside)
  rw [items, nothing] at member
  contradiction

/-- Only what is on the heap has entries. -/
theorem map_mem_containers {entry : Value × Value} (member : entry ∈ (heap.content ref).values) :
    .map ref ∈ heap.containers := by
  apply List.mem_append_right
  apply List.mem_map_of_mem
  rw [List.mem_range]
  by_contra outside
  have nothing : heap.maps.get? ref = none := Array.getElem?_eq_none (Nat.not_lt.mp outside)
  rw [content, nothing] at member
  contradiction

end Heap

namespace Writing

variable {α β : Type} {write : α → Writing → Writing} {opened : List Container}

/-- The thing is written as a text of which the property holds, and what is open stays open. -/
def Writes (write : α → Writing → Writing) (opened : List Container) (thing : α)
    (property : String → Prop) : Prop :=
  ∀ text, ∃ written, property written ∧ write thing ⟨text, opened⟩ = ⟨text ++ written, opened⟩

variable {property : α → β → Prop} (shown : β → String)

/-- What follows the first thing is written after it, with a comma before each. -/
theorem foldl_eq {things : List α}
    (writes : ∀ thing ∈ things, Writes write opened thing fun written =>
      ∃ found, property thing found ∧ written = shown found) (text first : String) :
    ∃ found, List.Forall₂ property things found ∧
      things.foldl (fun writing thing => write thing (writing.put ", ")) ⟨text ++ first, opened⟩ =
        ⟨text ++ String.intercalate ", " (first :: found.map shown), opened⟩ := by
  induction things generalizing text first with
  | nil => exact ⟨[], .nil, by simp⟩
  | cons thing rest ih =>
    obtain ⟨thisOne, rest⟩ := List.forall_mem_cons.mp writes
    obtain ⟨_, ⟨found, holds, rfl⟩, wrote⟩ := thisOne (text ++ first ++ ", ")
    obtain ⟨others, hold, wroteRest⟩ := ih rest (text ++ first ++ ", ") (shown found)
    refine ⟨found :: others, .cons holds hold, ?_⟩
    rw [List.foldl_cons, put, wrote, wroteRest, List.map_cons, String.intercalate_cons_cons]
    simp only [String.append_assoc]

/-- Things written with commas between them come to the texts that they come to one by one. -/
theorem separated_eq {things : List α}
    (writes : ∀ thing ∈ things, Writes write opened thing fun written =>
      ∃ found, property thing found ∧ written = shown found) (text : String) :
    ∃ found, List.Forall₂ property things found ∧
      separated write things ⟨text, opened⟩ =
        ⟨text ++ String.intercalate ", " (found.map shown), opened⟩ := by
  cases things with
  | nil => exact ⟨[], .nil, by simp [separated]⟩
  | cons thing rest =>
    obtain ⟨thisOne, rest⟩ := List.forall_mem_cons.mp writes
    obtain ⟨_, ⟨found, holds, rfl⟩, wrote⟩ := thisOne text
    obtain ⟨others, hold, wroteRest⟩ := foldl_eq shown rest text (shown found)
    refine ⟨found :: others, .cons holds hold, ?_⟩
    rw [separated, wrote, wroteRest]
    rfl

end Writing

namespace Value

variable {heap : Heap}

/-- Within a bound that allows for all containers that are not open, a value is written as its
rendering, and what was open is open again. -/
theorem write_eq {bound : Nat} {value : Value} {opened : List Container}
    (enough : heap.unopened opened < bound) :
    Writing.Writes (write heap bound) opened value (Rendered heap opened value) := by
  induction bound generalizing value opened with
  | zero => contradiction
  | succ bound ih =>
    intro text
    have plain (other : value.container? = none) :
        ∃ written, Rendered heap opened value written ∧
          value.write heap (bound + 1) ⟨text, opened⟩ = ⟨text ++ written, opened⟩ := by
      refine ⟨value.label heap, .plain other, ?_⟩
      cases value <;> first | rfl | contradiction
    cases value with
    | list ref =>
      by_cases inside : .list ref ∈ opened
      · refine ⟨"[...]", .listAgain inside, ?_⟩
        rw [write, if_pos inside]
        rfl
      · have items : ∀ item ∈ (heap.items ref).toList, Writing.Writes (write heap bound)
            (.list ref :: opened) item fun written => ∃ found,
              Rendered heap (.list ref :: opened) item found ∧ written = found := by
          intro item member text
          have fewer := Heap.unopened_lt (Heap.list_mem_containers member) inside
          obtain ⟨written, rendered, wrote⟩ := @ih item (.list ref :: opened) (by omega) text
          exact ⟨written, ⟨written, rendered, rfl⟩, wrote⟩
        obtain ⟨texts, rendered, wrote⟩ := Writing.separated_eq id items (text ++ "[")
        obtain ⟨count, each⟩ := List.forall₂_iff_zip.mp rendered
        refine ⟨_, .list inside count fun place member => each member, ?_⟩
        rw [write, if_neg inside]
        show (Writing.separated _ _ ⟨text ++ "[", .list ref :: opened⟩).leave.put "]" = _
        rw [wrote, List.map_id]
        simp only [Writing.leave, Writing.put, List.tail_cons, String.append_assoc]
    | map ref =>
      by_cases inside : .map ref ∈ opened
      · refine ⟨"\x7b...\x7d", .mapAgain inside, ?_⟩
        rw [write, if_pos inside]
        rfl
      · have entries : ∀ entry ∈ (heap.content ref).values, Writing.Writes
            (fun entry writing =>
              write heap bound entry.2 ((write heap bound entry.1 writing).put ": "))
            (.map ref :: opened) entry fun written => ∃ found : String × String,
              (Rendered heap (.map ref :: opened) entry.1 found.1 ∧
                Rendered heap (.map ref :: opened) entry.2 found.2) ∧
              written = found.1 ++ ": " ++ found.2 := by
          intro entry member text
          have fewer := Heap.unopened_lt (Heap.map_mem_containers member) inside
          obtain ⟨key, renderedKey, wroteKey⟩ := @ih entry.1 (.map ref :: opened) (by omega) text
          obtain ⟨value, renderedValue, wroteValue⟩ :=
            @ih entry.2 (.map ref :: opened) (by omega) (text ++ key ++ ": ")
          refine ⟨_, ⟨(key, value), ⟨renderedKey, renderedValue⟩, rfl⟩, ?_⟩
          show write heap bound entry.2 ((write heap bound entry.1 _).put ": ") = _
          rw [wroteKey, Writing.put, wroteValue]
          simp only [String.append_assoc]
        obtain ⟨texts, rendered, wrote⟩ := Writing.separated_eq
          (fun found : String × String => found.1 ++ ": " ++ found.2) entries (text ++ "\x7b")
        obtain ⟨count, each⟩ := List.forall₂_iff_zip.mp rendered
        have both : Rendered heap opened (.map ref) _ :=
          .map inside count (fun place member => (each member).1)
            fun place member => (each member).2
        refine ⟨_, both, ?_⟩
        rw [write, if_neg inside]
        show (Writing.separated _ _ ⟨text ++ "\x7b", .map ref :: opened⟩).leave.put "\x7d" = _
        rw [wrote]
        simp only [Writing.leave, Writing.put, List.tail_cons, String.append_assoc]
    | _ => exact plain rfl

/-- The texts that go with some things are the only ones if each of them is. -/
theorem texts_unique {α β : Type} (property : α → β → Prop) {things : List α}
    {first second : List β}
    (count : things.length = first.length)
    (unique : ∀ place ∈ things.zip first, ∀ other, property place.1 other → place.2 = other)
    (count' : things.length = second.length)
    (each : ∀ place ∈ things.zip second, property place.1 place.2) : first = second := by
  induction things generalizing first second with
  | nil =>
    rw [List.length_eq_zero_iff.mp count.symm, List.length_eq_zero_iff.mp count'.symm]
  | cons thing rest ih =>
    cases first with
    | nil => contradiction
    | cons text others =>
      cases second with
      | nil => contradiction
      | cons text' others' =>
        rw [List.zip_cons_cons] at unique each
        obtain ⟨here, onward⟩ := List.forall_mem_cons.mp unique
        obtain ⟨here', onward'⟩ := List.forall_mem_cons.mp each
        have same : text = text' := here text' here'
        rw [same, ih (Nat.succ.inj count) onward (Nat.succ.inj count') onward']

/-- There is one rendering of a value inside given containers. -/
theorem Rendered.unique {around : List Container} {value : Value} {text other : String}
    (rendered : Rendered heap around value text) (also : Rendered heap around value other) :
    text = other := by
  induction rendered generalizing other with
  | plain isPlain =>
    cases also with
    | plain => rfl
    | _ => contradiction
  | listAgain inside =>
    cases also with
    | listAgain => rfl
    | list outside => contradiction
    | plain isPlain => contradiction
  | mapAgain inside =>
    cases also with
    | mapAgain => rfl
    | map outside => contradiction
    | plain isPlain => contradiction
  | list outside count each ih =>
    cases also with
    | listAgain inside => contradiction
    | plain isPlain => contradiction
    | list _ count' each' =>
      rw [texts_unique _ count (fun place member other also => ih place member also) count' each']
  | @map around ref texts outside count keys values ihKeys ihValues =>
    cases also with
    | mapAgain inside => contradiction
    | plain isPlain => contradiction
    | map _ count' keys' values' =>
      let renders (entry : Value × Value) (text : String × String) : Prop :=
        Rendered heap (.map ref :: around) entry.1 text.1 ∧
          Rendered heap (.map ref :: around) entry.2 text.2
      have both : ∀ place ∈ (heap.content ref).values.zip texts, ∀ other,
          renders place.1 other → place.2 = other := by
        intro place member other also
        exact Prod.ext (ihKeys place member also.1) (ihValues place member also.2)
      rw [texts_unique renders count both count' fun place member =>
        ⟨keys' place member, values' place member⟩]

/-- Whatever lists and maps contain, themselves included, every value has one rendering, and it is
what is displayed. Within a bound that is as large as that of a value displayed by itself or inside
other containers, or larger, the rendering is added to the text, and then just those containers are
open that were open before. -/
theorem display_rendered (heap : Heap) :
    (∀ value text, Rendered heap [] value text ↔ text = value.display heap) ∧
    (∀ (value : Value) (opened : List Container) (text : String) (more : Nat),
      ∃ written, Rendered heap opened value written ∧
        value.write heap (heap.unopened opened + 1 + more) ⟨text, opened⟩ =
          ⟨text ++ written, opened⟩) := by
  constructor
  · intro value text
    have enough : heap.unopened [] < heap.lists.size + heap.maps.size + 1 := by
      rw [Heap.unopened_nil]
      exact Nat.lt_succ_self _
    obtain ⟨written, rendered, wrote⟩ := @write_eq heap _ value [] enough ""
    have displayed : value.display heap = written := by
      show (write heap _ value ⟨"", []⟩).text = written
      rw [wrote, String.empty_append]
    constructor
    · intro also
      rw [displayed]
      exact also.unique rendered
    · rintro rfl
      rw [displayed]
      exact rendered
  · intro value opened text more
    exact write_eq (by omega) text

/-- A list that holds another list twice, and itself, is displayed with the other one in full both
times. -/
example : (Value.list 0).display
    { lists := ⟨#[#[.list 1, .list 1, .list 0], #[.bool true]]⟩ } = "[[true], [true], [...]]" := by
  decide +kernel

end Value

end EventScript
