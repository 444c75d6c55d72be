import EventScript.Span

/-!
# Diagnostics

A diagnostic is one message for the user: what kind of fault it is, its wording, where in the
source it points, and further notes. `Diagnostic.text` is its printed form. A diagnostic that
already has a span keeps it under `orSpan` (`Diagnostic.orSpan_span`), so the innermost position
wins unless an operation insists on its own with `withSpan`.
-/

namespace EventScript

/-- The kinds of fault that can arise while a program runs. -/
inductive RuntimeKind where
  | undefinedVariable
  | undefinedProperty
  | type
  | arity
  | index
  | native
  | stackOverflow
deriving DecidableEq, Inhabited

/-- The stage at which a fault was found. -/
inductive DiagnosticKind where
  /-- The text does not divide into tokens. -/
  | lexer
  /-- The tokens form no program. -/
  | parser
  /-- The program breaks a static rule. -/
  | resolve
  /-- The program failed while running. -/
  | runtime (kind : RuntimeKind)
deriving DecidableEq, Inhabited

/-- One message for the user. -/
structure Diagnostic where
  kind : DiagnosticKind
  message : String
  /-- The source range that the message is about, if there is one. -/
  span : Option Span := none
  notes : List String := []
deriving DecidableEq, Inhabited

namespace Diagnostic

/-- A run-time diagnostic that points nowhere yet. -/
def ofRuntime (kind : RuntimeKind) (message : String) : Diagnostic :=
  { kind := .runtime kind, message }

/-- Points the diagnostic at `span`, whatever it pointed at before. -/
def withSpan (diagnostic : Diagnostic) (span : Span) : Diagnostic :=
  { diagnostic with span := some span }

/-- Points the diagnostic at `span` unless it already points somewhere. -/
def orSpan (diagnostic : Diagnostic) (span : Span) : Diagnostic :=
  match diagnostic.span with
  | some _ => diagnostic
  | none => diagnostic.withSpan span

/-- Adds a note after the notes that are there. -/
def withNote (diagnostic : Diagnostic) (note : String) : Diagnostic :=
  { diagnostic with notes := diagnostic.notes ++ [note] }

/-- The kind of run-time fault, for a diagnostic of the running stage. -/
def runtimeKind? (diagnostic : Diagnostic) : Option RuntimeKind :=
  match diagnostic.kind with
  | .runtime kind => some kind
  | _ => none

/-- What stands before the message: faults found before the program runs name their stage. -/
def label (kind : DiagnosticKind) : String :=
  match kind with
  | .lexer => "Lexer error: "
  | .parser => "Parser error: "
  | .resolve => "Resolve error: "
  | .runtime _ => ""

/-- The printed form: the line, the stage, the message, then one indented line for each note. -/
def text (diagnostic : Diagnostic) : String :=
  let place := match diagnostic.span with
    | some span => "[line " ++ toString span.line ++ "] "
    | none => ""
  let notes := diagnostic.notes.map fun note => "\n  note: " ++ note
  place ++ label diagnostic.kind ++ diagnostic.message ++ String.join notes

/-- The printed forms of several diagnostics, one below the other. -/
def texts (diagnostics : List Diagnostic) : String :=
  String.intercalate "\n" (diagnostics.map text)

/-- A diagnostic that is pointed at a span points there. -/
@[simp] theorem withSpan_span (diagnostic : Diagnostic) (span : Span) :
    (diagnostic.withSpan span).span = some span := rfl

/-- Offering a span leaves the diagnostic with its own span, or else with the offered one. -/
theorem orSpan_span (diagnostic : Diagnostic) (span : Span) :
    (diagnostic.orSpan span).span = some (diagnostic.span.getD span) := by
  unfold orSpan
  cases h : diagnostic.span <;> simp [h]

/-- A diagnostic that points somewhere is unchanged by the offer of a span. -/
theorem orSpan_of_span {diagnostic : Diagnostic} {own : Span} (h : diagnostic.span = some own)
    (span : Span) : diagnostic.orSpan span = diagnostic := by
  simp [orSpan, h]

end Diagnostic

end EventScript
