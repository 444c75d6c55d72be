import EventScript.Diagnostic

/-!
# Failures of a whole run

Running a source text ends well or with one `Failure`. Its exit code follows the convention that
65 is bad input, 70 a program that failed while running, and 74 a failed input or output operation.
-/

namespace EventScript

/-- Why running a source text did not end well. -/
inductive Failure where
  /-- The text is no program: one diagnostic of the lexer or the parser. -/
  | malformed (diagnostic : Diagnostic)
  /-- The program breaks static rules. -/
  | rejected (diagnostics : List Diagnostic)
  /-- The program ran and reported errors. -/
  | runtime (diagnostics : List Diagnostic)
  /-- The text could not be read. -/
  | io (problem : String)
deriving DecidableEq, Inhabited

namespace Failure

/-- The exit code of a process that ends with this failure. -/
def exitCode : Failure → Nat
  | malformed _ => 65
  | rejected _ => 65
  | runtime _ => 70
  | io _ => 74

/-- The diagnostics that the failure carries, in the order they were found. -/
def diagnostics : Failure → List Diagnostic
  | malformed diagnostic => [diagnostic]
  | rejected diagnostics => diagnostics
  | runtime diagnostics => diagnostics
  | io _ => []

/-- The printed form. -/
def text : Failure → String
  | malformed diagnostic => diagnostic.text
  | rejected diagnostics => Diagnostic.texts diagnostics
  | runtime diagnostics => Diagnostic.texts diagnostics
  | io problem => "I/O error: " ++ problem

end Failure

end EventScript
