import EventScript.Proofs.Syntax.Extent
import EventScript.Proofs.Syntax.Joined

/-!
# Where a program lies in its text

The tokens of a text lie in it one behind the other (`Token.laid_of_ofText`), so every span in the
program that the text forms lies in the text, on the line on which its first character stands
(`Program.lies_of_ofText`).
-/

namespace EventScript

/-- The line on which the character at an offset stands, counted from one. -/
def lineAt (source : String) (offset : Nat) : Nat :=
  1 + (Token.slice source 0 offset).toList.count '\n'

/-- The span is a range of bytes of the text, and has the line on which it starts. -/
structure Span.LiesIn (source : String) (span : Span) : Prop where
  ordered : span.start ≤ span.stop
  inside : span.stop ≤ source.utf8ByteSize
  line : span.line = lineAt source span.start

/-- Lines are counted from one. -/
theorem Span.LiesIn.line_pos {source : String} {span : Span} (lies : span.LiesIn source) :
    1 ≤ span.line := by
  rw [lies.line]
  exact Nat.le_add_right _ _

section Tokens

variable {source : String} {low size : Nat} {lines : Nat → Nat} {words tokens : List Token}
    {mark : Token}

/-- Words in order before the mark of the end lie one behind the other. -/
theorem Parse.laid_of_ordered
    (ordered : (words ++ [mark]).Pairwise fun earlier later => earlier.span.stop ≤ later.span.start)
    (above : ∀ token ∈ words ++ [mark], low ≤ token.span.start)
    (some : ∀ word ∈ words, word.kind ≠ .endOfInput ∧ word.span.start ≤ word.span.stop ∧
      word.span.line = lines word.span.start)
    (marked : mark.kind = .endOfInput) (ends : mark.span.start = size) :
    Laid lines size low (words ++ [mark]) := by
  induction words generalizing low with
  | nil => exact .mark marked (ends ▸ above mark List.mem_cons_self)
  | cons word words ih =>
    obtain ⟨behind, ordered⟩ := List.pairwise_cons.mp ordered
    obtain ⟨kind, filled, line⟩ := some word List.mem_cons_self
    refine .word kind ⟨above word List.mem_cons_self, filled, Nat.le_refl _, line⟩ ?_
    exact ih ordered behind fun other member => some other (List.mem_cons_of_mem _ member)

/-- The tokens of a text lie in it one behind the other. -/
theorem Token.laid_of_ofText (divides : ofText source = .ok tokens) :
    Parse.Laid (lineAt source) source.utf8ByteSize 0 tokens := by
  obtain ⟨passed, _, reached, rfl⟩ := reaches_of_ofText divides
  have segmented := segmentation_of_reaches reached
  obtain ⟨words, mark, same, marked, start, -, filled⟩ := segmented.words
  have ordered := segmented.ordered
  have lines := segmented.lines
  rw [same] at ordered lines ⊢
  refine Parse.laid_of_ordered ordered (fun _ _ => Nat.zero_le _) (fun word member => ?_)
    marked start
  obtain ⟨kind, less, -⟩ := filled word member
  exact ⟨kind, Nat.le_of_lt less, lines word (List.mem_append_left _ member)⟩

end Tokens

section Nodes

/-- The span is that of the expression or of one in it. -/
inductive Expr.HasSpan (span : Span) : Expr → Prop where
  | self {expr : Expr} (own : expr.span = span) : HasSpan span expr
  | part {expr part : Expr} (member : part ∈ expr.parts) (has : HasSpan span part) :
      HasSpan span expr

/-- The span is that of the statement, or of a name, an expression, a function or another statement
in it. -/
inductive Stmt.HasSpan (span : Span) : Stmt → Prop where
  | self {stmt : Stmt} (own : stmt.span = span) : HasSpan span stmt
  | superclass {stmt : Stmt} {named : SuperclassName} (names : named ∈ stmt.superclass?)
      (own : named.span = span) : HasSpan span stmt
  | expr {stmt : Stmt} {expr : Expr} (member : expr ∈ stmt.exprs) (has : expr.HasSpan span) :
      HasSpan span stmt
  | part {stmt part : Stmt} (member : part ∈ stmt.parts) (has : HasSpan span part) :
      HasSpan span stmt
  | function {stmt : Stmt} {decl : FunctionDecl} (member : decl ∈ stmt.functions)
      (own : decl.span = span) : HasSpan span stmt
  | body {stmt inner : Stmt} {decl : FunctionDecl} (member : decl ∈ stmt.functions)
      (inside : inner ∈ decl.body) (has : HasSpan span inner) : HasSpan span stmt

/-- The span is that of a part of the program. -/
def Program.HasSpan (program : Program) (span : Span) : Prop := ∃ stmt ∈ program, stmt.HasSpan span

variable {property : Span → Prop}

/-- What all spans have is said of the spans in the expression only. -/
theorem Expr.AllSpans.has {expr : Expr} (all : expr.AllSpans property) :
    expr.AllSpans fun span => property span ∧ expr.HasSpan span := by
  induction all with
  | intro span _ ih =>
    exact .intro ⟨span, .self rfl⟩ fun part member =>
      (ih part member).mono fun _ ⟨holds, has⟩ => ⟨holds, .part member has⟩

/-- What all spans have is said of the spans in the statement only. -/
theorem Stmt.AllSpans.has {stmt : Stmt} (all : stmt.AllSpans property) :
    stmt.AllSpans fun span => property span ∧ stmt.HasSpan span := by
  induction all with
  | intro span superclass exprs _ functions _ parts bodies =>
    constructor
    case span => exact ⟨span, .self rfl⟩
    case superclass =>
      intro named member
      exact ⟨superclass named member, .superclass member rfl⟩
    case exprs =>
      intro expr member
      exact (exprs expr member).has.mono fun _ ⟨holds, has⟩ => ⟨holds, .expr member has⟩
    case parts =>
      intro part member
      exact (parts part member).mono fun _ ⟨holds, has⟩ => ⟨holds, .part member has⟩
    case functions =>
      intro decl member
      exact ⟨functions decl member, .function member rfl⟩
    case bodies =>
      intro decl member inner inside
      have all := bodies decl member inner inside
      exact all.mono fun _ ⟨holds, has⟩ => ⟨holds, .body member inside has⟩

end Nodes

/-- All spans of a program lie in the text that it was read from. -/
theorem Program.lies_of_ofText {source : String} {program : Program}
    (reads : ofText source = .ok program) :
    ∀ stmt ∈ program, stmt.AllSpans fun span => span.LiesIn source ∧ program.HasSpan span := by
  intro stmt member
  obtain ⟨tokens, divides, forms⟩ := exists_of_ofText reads
  obtain ⟨rest, found⟩ := exists_of_ofTokens forms
  obtain ⟨stop, laid, -, between⟩ := Parse.program_covers _ (Token.laid_of_ofText divides) _ _ found
  refine (between stmt member).has.mono fun span ⟨lies, has⟩ => ⟨?_, stmt, member, has⟩
  exact ⟨lies.ordered, Nat.le_trans lies.high laid.le, lies.line⟩

end EventScript
