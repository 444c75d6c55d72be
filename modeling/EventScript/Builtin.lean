/-!
# Built-in functions

The functions that programs do not define themselves: the global ones, and the methods of strings,
lists and maps. Each has a display name and says how many arguments it takes.
-/

namespace EventScript

/-- The built-in functions. -/
inductive Builtin where
  | input | clock | delay | read | write | request | string | list | map
  | stringAt | stringAlter | stringLength
  | listAt | listAlter | listLength | listPush | listPop
  | mapGet | mapSet
deriving DecidableEq, Inhabited

/-- How many arguments a function takes. -/
inductive Arity where
  | exactly (count : Nat)
  | any
deriving DecidableEq, Inhabited

/-- Whether that many arguments will do. -/
def Arity.accepts : Arity → Nat → Bool
  | exactly expected, count => expected == count
  | any, _ => true

namespace Builtin

/-- The global functions, in the order in which they are defined. -/
def globals : List Builtin := [input, clock, delay, read, write, request, string, list, map]

/-- The name of a function; for a method, without the object it belongs to. -/
def name : Builtin → String
  | input => "input"
  | clock => "clock"
  | delay => "delay"
  | read => "read"
  | write => "write"
  | request => "request"
  | string => "string"
  | list => "list"
  | map => "map"
  | stringAt | listAt => "at"
  | stringAlter | listAlter => "alter"
  | stringLength | listLength => "length"
  | listPush => "push"
  | listPop => "pop"
  | mapGet => "get"
  | mapSet => "set"

/-- How many arguments a function takes. -/
def arity : Builtin → Arity
  | input => .exactly 1
  | clock => .exactly 0
  | delay => .exactly 2
  | read => .exactly 2
  | write => .exactly 4
  | request => .exactly 5
  | string => .exactly 1
  | list => .any
  | map => .exactly 0
  | stringAt | listAt => .exactly 1
  | stringAlter | listAlter => .exactly 2
  | stringLength | listLength => .exactly 0
  | listPush => .exactly 1
  | listPop => .exactly 0
  | mapGet => .exactly 1
  | mapSet => .exactly 2

/-- The global function of the given name. -/
def global? (wanted : String) : Option Builtin :=
  globals.find? fun builtin => builtin.name == wanted

/-- The methods of strings. -/
def stringMethods : List Builtin := [stringAt, stringAlter, stringLength]

/-- The methods of lists. -/
def listMethods : List Builtin := [listAt, listAlter, listLength, listPush, listPop]

/-- The methods of maps. -/
def mapMethods : List Builtin := [mapGet, mapSet]

end Builtin

end EventScript
