import EventScript.Heap
import EventScript.Number.Text
import EventScript.Text.Quoted

/-!
# The text of a value

Scalars are written as in programs, functions and instances by name, and lists and maps with their
contents. A list or map may contain itself; inside itself it is written `[...]` or `{...}`. While
values are written one after the other, a `Writing` keeps the text so far and the lists and maps
that are open.
-/

namespace EventScript

/-- A list or map that is being written. -/
inductive Container where
  | list (ref : Nat)
  | map (ref : Nat)
deriving DecidableEq, Inhabited

/-- What has been written, and the containers that are open, the innermost first. -/
structure Writing where
  text : String := ""
  opened : List Container := []

namespace Writing

/-- Writes a text. -/
def put (writing : Writing) (text : String) : Writing :=
  { writing with text := writing.text ++ text }

/-- Opens a container. -/
def enter (writing : Writing) (container : Container) : Writing :=
  { writing with opened := container :: writing.opened }

/-- Closes the innermost container. -/
def leave (writing : Writing) : Writing := { writing with opened := writing.opened.tail }

/-- Writes several things with commas between them. -/
def separated {α : Type} (write : α → Writing → Writing) (things : List α) (writing : Writing) :
    Writing :=
  match things with
  | [] => writing
  | first :: rest =>
    rest.foldl (fun writing thing => write thing (writing.put ", ")) (write first writing)

end Writing

namespace Value

/-- The text of a value without the contents that a list or map has. -/
def label (heap : Heap) : Value → String
  | .nil => "nil"
  | .bool value => if value then "true" else "false"
  | .number value => Number.display value
  | .string ref => heap.text ref
  | .list _ => "[...]"
  | .map _ => "\x7b...\x7d"
  | .object ref => "<" ++ (heap.object ref).cls.name ++ " instance>"
  | .function _ closure => "<fn " ++ closure.decl.name ++ ">"
  | .method _ _ found => "<fn " ++ found.decl.name ++ ">"
  | .classObject cls => cls.name
  | .builtin _ callee _ => "<native fn " ++ callee.name ++ ">"

/-- Writes a value. The bound is on how many more containers may be opened. -/
def write (heap : Heap) (bound : Nat) (value : Value) (writing : Writing) : Writing :=
  match bound, value with
  | bound + 1, .list ref =>
    if .list ref ∈ writing.opened then writing.put "[...]"
    else
      let items := (heap.items ref).toList
      let inside := ((writing.enter (.list ref)).put "[").separated (write heap bound) items
      inside.leave.put "]"
  | bound + 1, .map ref =>
    if .map ref ∈ writing.opened then writing.put "\x7b...\x7d"
    else
      let writeEntry (entry : Value × Value) (writing : Writing) : Writing :=
        write heap bound entry.2 ((write heap bound entry.1 writing).put ": ")
      let inside :=
        ((writing.enter (.map ref)).put "\x7b").separated writeEntry (heap.content ref).values
      inside.leave.put "\x7d"
  | _, value => writing.put (value.label heap)

/-- The text of a value. Whatever is open around a container has content, so it is one of those
that there are, and the bound allows for all of them and the container itself. -/
def display (heap : Heap) (value : Value) : String :=
  (value.write heap (heap.lists.size + heap.maps.size + 1) {}).text

/-- The text of a value in which a string is told from other values by quotes. -/
def inspect (heap : Heap) (value : Value) : String :=
  match value with
  | .string ref => Text.quote (heap.text ref)
  | other => other.display heap

end Value

end EventScript
