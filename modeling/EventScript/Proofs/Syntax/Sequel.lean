import EventScript.Proofs.Syntax.MapSpans
import EventScript.Proofs.Syntax.Reader
import EventScript.Proofs.Token.Joined

/-!
# Readers when the text goes on

A reader at work before the mark of the end, and the same reader with more tokens in place of the
mark and other spans on the words before it. It goes on in the same way as long as there are words,
and may go another way only if it looks at what comes behind the last of them. `Sequel.Follows`
tells readers that look there from closing ones, which take a word last and so need not look.
`Sequel.Settles` is for what comes last in a closing reader.

The lemmas follow the readers, one for each, by induction on the depth, as far as which the second
run may go beyond the first.
-/

namespace EventScript.Parse

variable {α β : Type}

/-- What two readers in a row find, the second finds behind what the first has found. -/
theorem exists_of_bind {reader : Parse α} {next : α → Parse β} {tokens rest : List Token}
    {value : β}
    (found : (reader >>= next) tokens = .ok (value, rest)) :
    ∃ first middle, reader tokens = .ok (first, middle) ∧
    next first middle = .ok (value, rest) := by
  rw [bind_eq] at found
  cases start : reader tokens with
  | error diagnostic =>
    rw [start] at found
    contradiction
  | ok result =>
    obtain ⟨first, middle⟩ := result
    rw [start] at found
    exact ⟨first, middle, rfl, found⟩

/-- What takes the place of a mark of the end: more tokens, which do not go on with an `else`, and a
change of the spans before them that goes along with joining spans. -/
structure Sequel where
  mark : Token
  more : List Token
  change : Span → Span
  marked : mark.kind = .endOfInput
  fresh : (current more).kind ≠ .keyword .else
  upTo : ∀ first last, change (first.upTo last) = (change first).upTo (change last)

namespace Sequel

variable (sequel : Sequel)

/-- The words before the mark of the end. -/
def ended (words : List Token) : List Token := words ++ [sequel.mark]

/-- The words before more tokens, with their spans changed. -/
def resumed (words : List Token) : List Token :=
  words.map (Token.mapSpan sequel.change) ++ sequel.more

/-- What a reader finds in words before the mark is found, with its spans changed, when the text
goes on, unless all words are taken. A closing reader takes some words, and is at one with the other
in any case. -/
def Follows (closing : Bool) (image : α → α) (reader other : Parse α) (words : List Token) : Prop :=
  ∀ value rest, reader (sequel.ended words) = .ok (value, rest) →
    ∃ left, rest = sequel.ended left ∧ left <:+ words ∧ (closing = true → left ≠ words) ∧
      (closing = true ∨ left ≠ [] →
        other (sequel.resumed words) = .ok (image value, sequel.resumed left))

/-- What a reader finds in words before the mark is found, with its spans changed, when the text
goes on. -/
def Settles (image : α → α) (reader other : Parse α) (words : List Token) : Prop :=
  ∀ value rest, reader (sequel.ended words) = .ok (value, rest) →
    ∃ left, rest = sequel.ended left ∧ left <:+ words ∧
      other (sequel.resumed words) = .ok (image value, sequel.resumed left)

variable {sequel : Sequel} {words : List Token} {closing : Bool}

/-! ## Rules -/

section Rules

variable {image : α → α} {image' : β → β} {reader other : Parse α} {next next' : α → Parse β}

/-- A reader that fails finds nothing that could be missed. -/
theorem follows_fail (fault : SyntaxFault) :
    sequel.Follows closing image (fail fault) other words := nofun

/-- What fails at a span finds nothing that could change. -/
theorem follows_failAt (fault : SyntaxFault) (span : Span) :
    sequel.Follows closing image (failAt fault span) other words := nofun

/-- A reader that takes nothing gives its value when the text goes on. -/
theorem settles_pure (value : α) :
    sequel.Settles image (pure value) (pure (image value)) words := by
  intro value' rest found
  obtain ⟨rfl, rfl⟩ := Prod.mk.inj (Except.ok.inj found)
  exact ⟨words, rfl, List.suffix_rfl, rfl⟩

/-- What is found in any case is found unless all words are taken. -/
theorem Settles.follows (settles : sequel.Settles image reader other words) :
    sequel.Follows false image reader other words := by
  intro value rest found
  obtain ⟨left, rfl, suffix, again⟩ := settles value rest found
  exact ⟨left, rfl, suffix, nofun, fun _ => again⟩

/-- A reader that takes nothing finds its value when the text goes on. -/
theorem follows_pure (value : α) :
    sequel.Follows false image (pure value) (pure (image value)) words :=
  (settles_pure value).follows

/-- Values that are the same with their spans changed are found when the text goes on. -/
theorem follows_of_eq {value value' : α} (same : image value = value') :
    sequel.Follows false image (pure value) (pure value') words :=
  same ▸ follows_pure value

/-- What a closing reader finds, it finds in any case. -/
theorem Follows.settles (follows : sequel.Follows true image reader other words) :
    sequel.Settles image reader other words := by
  intro value rest found
  obtain ⟨left, rfl, suffix, -, again⟩ := follows value rest found
  exact ⟨left, rfl, suffix, again (.inl rfl)⟩

/-- Before the mark the second of the two readers plays no part. -/
theorem Follows.at_end (follows : sequel.Follows closing image reader other []) (other' : Parse α) :
    sequel.Follows closing image reader other' [] := by
  intro value rest found
  obtain ⟨left, rfl, suffix, takes, -⟩ := follows value rest found
  obtain rfl := List.suffix_nil.mp suffix
  refine ⟨[], rfl, suffix, takes, ?_⟩
  rintro (closes | some)
  · exact absurd rfl (takes closes)
  · contradiction

/-- If a reader closes, or does not look behind the words, then so does one that goes on with it. -/
theorem Follows.bind {first : Bool} (head : sequel.Follows first image reader other words)
    (tail : ∀ value left, sequel.Follows closing image' (next value) (next' (image value)) left) :
    sequel.Follows closing image' (reader >>= next) (other >>= next') words := by
  intro value rest found
  obtain ⟨value₁, rest₁, start, found⟩ := exists_of_bind found
  obtain ⟨middle, rfl, suffix, -, again⟩ := head _ _ start
  obtain ⟨left, rfl, suffix', takes, again'⟩ := tail value₁ middle _ _ found
  refine ⟨left, rfl, suffix'.trans suffix, fun closes same => ?_, fun holds => ?_⟩
  · subst same
    exact takes closes (suffix'.eq_of_length (Nat.le_antisymm suffix'.length_le suffix.length_le))
  · have some : middle ≠ [] := by
      rintro rfl
      obtain rfl := List.suffix_nil.mp suffix'
      exact holds.elim (fun closes => takes closes rfl) (fun some => some rfl)
    rw [bind_ok (again (.inr some))]
    exact again' holds

/-- Behind a closing reader it suffices to settle. -/
theorem Follows.close (head : sequel.Follows true image reader other words)
    (tail : ∀ value left, sequel.Settles image' (next value) (next' (image value)) left) :
    sequel.Follows true image' (reader >>= next) (other >>= next') words := by
  intro value rest found
  obtain ⟨value₁, rest₁, start, found⟩ := exists_of_bind found
  obtain ⟨middle, rfl, suffix, takes, again⟩ := head _ _ start
  obtain ⟨left, rfl, suffix', again'⟩ := tail value₁ middle _ _ found
  refine ⟨left, rfl, suffix'.trans suffix, fun _ same => ?_, fun _ => ?_⟩
  · subst same
    exact takes rfl (suffix.eq_of_length (Nat.le_antisymm suffix.length_le suffix'.length_le))
  · rw [bind_ok (again (.inl rfl))]
    exact again'

/-- A kind other than the mark's is that of a word. -/
theorem Follows.peek {next next' : TokenKind → Parse β}
    (each : ∀ kind, (kind ≠ .endOfInput → words ≠ []) →
      sequel.Follows closing image' (next kind) (next' kind) words) :
    sequel.Follows closing image' (peek >>= next) (peek >>= next') words := by
  cases words with
  | nil =>
    have marked : (current (sequel.ended [])).kind = .endOfInput := sequel.marked
    have follows := (each .endOfInput fun other => absurd rfl other).at_end (Parse.peek >>= next')
    intro value rest found
    rw [peek_bind, marked] at found
    exact follows value rest found
  | cons word words => exact each word.kind fun _ => List.cons_ne_nil _ _

/-- Looking at the span of the next token sees it changed. -/
theorem Follows.here {next next' : Span → Parse β}
    (each : ∀ span, sequel.Follows closing image' (next span) (next' (sequel.change span)) words) :
    sequel.Follows closing image' (here >>= next) (here >>= next') words := by
  cases words with
  | nil => exact (each sequel.mark.span).at_end (Parse.here >>= next')
  | cons word words => exact each word.span

/-- The next token is taken when the text goes on. -/
theorem follows_advance (some : words ≠ []) :
    sequel.Follows true sequel.change advance advance words := by
  obtain ⟨word, words, rfl⟩ := List.exists_cons_of_ne_nil some
  intro span rest found
  obtain ⟨rfl, rfl⟩ := Prod.mk.inj (Except.ok.inj found)
  exact ⟨words, rfl, List.suffix_cons _ _, fun _ same => List.cons_ne_self _ _ same.symm,
    fun _ => rfl⟩

/-- A symbol that may be there is found when the text goes on. -/
theorem follows_symbol? (symbol : Symbol) :
    sequel.Follows false (Option.map sequel.change) (symbol? symbol) (symbol? symbol) words := by
  refine .peek fun kind word => ?_
  split
  · split
    · exact .bind (follows_advance (word (by simp))) fun span left => follows_pure (some span)
    · exact follows_pure none
  · exact follows_pure none

/-- A keyword that may be there is found when the text goes on. -/
theorem follows_keyword? (keyword : Keyword) :
    sequel.Follows false (Option.map sequel.change) (keyword? keyword) (keyword? keyword)
      words := by
  refine .peek fun kind word => ?_
  split
  · split
    · exact .bind (follows_advance (word (by simp))) fun span left => follows_pure (some span)
    · exact follows_pure none
  · exact follows_pure none

/-- A symbol that must be there is found when the text goes on. -/
theorem follows_symbol (symbol : Symbol) (what : String) :
    sequel.Follows true sequel.change (Parse.symbol symbol what) (Parse.symbol symbol what)
      words := by
  rw [Parse.symbol, symbol?, bind_bind]
  refine .peek fun kind word => ?_
  split
  · split
    · rw [bind_bind]
      exact .close (follows_advance (word (by simp))) fun span left => settles_pure span
    · exact follows_fail _
  · exact follows_fail _

/-- A name that must be there is found when the text goes on. -/
theorem follows_name (what : String) :
    sequel.Follows true (fun (name, span) => (name, sequel.change span)) (name what) (name what)
      words := by
  refine .peek fun kind word => ?_
  split
  · exact .close (follows_advance (word (by simp))) fun span left => settles_pure (_, span)
  · exact follows_fail _

/-- A symbol that comes next is noticed when the text goes on. -/
theorem follows_at? (symbol : Symbol) :
    sequel.Follows false id (at? symbol) (at? symbol) words := by
  refine .peek fun kind _ => ?_
  split <;> exact follows_pure _

/-- The end of a body is noticed when the text goes on. -/
theorem follows_atEndOfBody : sequel.Follows false id atEndOfBody atEndOfBody words := by
  refine .peek fun kind _ => ?_
  split <;> exact follows_pure _

/-- What may be missing before a symbol is found when the text goes on. -/
theorem follows_unlessAt {missing : α} (symbol : Symbol) (fixed : image missing = missing)
    (present : ∀ left, sequel.Follows false image reader other left) :
    sequel.Follows false image (unlessAt symbol missing reader) (unlessAt symbol missing other)
      words := by
  refine .bind (follows_at? symbol) fun found left => ?_
  cases found with
  | true => exact follows_of_eq fixed
  | false => exact present left

/-- What may be missing without a symbol is found when the text goes on. -/
theorem follows_afterSymbol {missing : α} (symbol : Symbol) (fixed : image missing = missing)
    (present : ∀ left, sequel.Follows false image reader other left) :
    sequel.Follows false image (afterSymbol symbol missing reader)
      (afterSymbol symbol missing other) words := by
  refine .bind (follows_symbol? symbol) fun found left => ?_
  cases found with
  | some span => exact present left
  | none => exact follows_of_eq fixed

/-- What follows behind the last word is no `else`, so none is found there in either case. -/
theorem settles_keyword?_else {next next' : Option Span → Parse β}
    (absent : ∀ left, sequel.Settles image' (next none) (next' none) left)
    (present : ∀ span left,
      sequel.Settles image' (next (some span)) (next' (some (sequel.change span))) left) :
    sequel.Settles image' (keyword? .else >>= next) (keyword? .else >>= next') words := by
  intro value rest found
  by_cases otherwise : (current (sequel.ended words)).kind = .keyword .else
  · cases words with
    | nil => exact absurd (otherwise.symm.trans sequel.marked) nofun
    | cons word words =>
      have kind : word.kind = .keyword .else := otherwise
      have again : (word.mapSpan sequel.change).kind = .keyword .else := kind
      rw [ended, List.cons_append, bind_ok (keyword?_found kind)] at found
      obtain ⟨left, rfl, suffix, settled⟩ := present word.span words _ _ found
      have settled := (bind_ok (keyword?_found again)).trans settled
      exact ⟨left, rfl, suffix.trans (List.suffix_cons _ _), settled⟩
  · rw [bind_ok (keyword?_other otherwise)] at found
    obtain ⟨left, rfl, suffix, settled⟩ := absent words _ _ found
    have none : (current (sequel.resumed words)).kind ≠ .keyword .else := by
      cases words with
      | nil => exact sequel.fresh
      | cons => exact otherwise
    exact ⟨left, rfl, suffix, (bind_ok (keyword?_other none)).trans settled⟩

end Rules

/-! ## Expressions -/

/-- The expression with its spans changed. -/
abbrev expr (sequel : Sequel) : Expr → Expr := Expr.mapSpans sequel.change

variable (extra : Nat)

/-- An assignment is made alike when the text goes on. -/
theorem follows_assignTo (target value : Expr) (sign : Span) :
    sequel.Follows false sequel.expr (assignTo target value sign)
      (assignTo (sequel.expr target) (sequel.expr value) (sequel.change sign)) words := by
  have span (start : Span) : sequel.change (start.upTo value.span) =
      (sequel.change start).upTo (sequel.expr value).span := by
    rw [sequel.upTo, Expr.mapSpans_span]
  match target with
  | .variable start name => exact follows_of_eq (congrArg (Expr.assign · name _) (span start))
  | .get start object name => exact follows_of_eq (congrArg (Expr.set · _ name _) (span start))
  | .literal .. | .assign .. | .binary .. | .logical .. | .unary .. | .call .. | .set .. | .group ..
  | .this .. | .super .. => exact follows_failAt _ _

mutual

/-- What is read as an expression is read alike when the text goes on. -/
theorem follows_expression : (depth : Nat) → {words : List Token} →
    sequel.Follows false sequel.expr (expression depth) (expression (extra + depth)) words
  | 0, _ => follows_fail _
  | depth + 1, words => by
    rw [← Nat.add_assoc, expression, expression]
    refine .bind (follows_level depth .disjunction) fun target left => ?_
    refine .bind (follows_symbol? .assign) fun sign left => ?_
    cases sign with
    | none => exact follows_pure target
    | some sign =>
      exact .bind (follows_expression depth) fun value left => follows_assignTo target value sign

/-- What is read as operands joined by operators of some strength is read alike when the text goes
on. -/
theorem follows_level : (depth : Nat) → (strength : Level) → {words : List Token} →
    sequel.Follows false sequel.expr (level depth strength) (level (extra + depth) strength) words
  | 0, _, _ => follows_fail _
  | depth + 1, strength, words => by
    rw [← Nat.add_assoc, level, level]
    exact .bind (follows_operand depth strength) fun first left =>
      follows_joined depth strength first

/-- What is read as an operand of such operators is read alike when the text goes on. -/
theorem follows_operand : (depth : Nat) → (strength : Level) → {words : List Token} →
    sequel.Follows false sequel.expr (operand depth strength)
      (operand (extra + depth) strength) words
  | 0, _, _ => follows_fail _
  | depth + 1, strength, words => by
    rw [← Nat.add_assoc, operand, operand]
    split
    · exact follows_level depth _
    · exact follows_unary depth

/-- What is read as more operands joined to a first one is read alike when the text goes on. -/
theorem follows_joined :
    (depth : Nat) → (strength : Level) → (first : Expr) → {words : List Token} →
    sequel.Follows false sequel.expr (joined depth strength first)
      (joined (extra + depth) strength (sequel.expr first)) words
  | 0, _, _, _ => follows_fail _
  | depth + 1, strength, first, words => by
    rw [← Nat.add_assoc, joined, joined]
    refine .peek fun kind word => ?_
    split
    · exact follows_pure first
    · rename_i connective sign
      have some : words ≠ [] := by
        refine word ?_
        rintro rfl
        cases strength <;> contradiction
      refine .bind (follows_advance some) fun _ left => ?_
      refine .bind (follows_operand depth strength) fun second left => ?_
      have join := connective.mapSpans_join sequel.upTo first second
      exact join ▸ follows_joined depth strength (connective.join first second)

/-- What is read as an operand with signs before it is read alike when the text goes on. -/
theorem follows_unary : (depth : Nat) → {words : List Token} →
    sequel.Follows false sequel.expr (unary depth) (unary (extra + depth)) words
  | 0, _ => follows_fail _
  | depth + 1, words => by
    rw [← Nat.add_assoc, unary, unary]
    refine .peek fun kind word => ?_
    split
    · exact follows_call depth
    · rename_i op sign
      have some : words ≠ [] := by
        refine word ?_
        rintro rfl
        contradiction
      refine .bind (follows_advance some) fun start left => ?_
      refine .bind (follows_unary depth) fun operand left => follows_of_eq ?_
      simp only [Expr.mapSpans, Expr.mapSpans_span, sequel.upTo]

/-- What is read as a call or less is read alike when the text goes on. -/
theorem follows_call : (depth : Nat) → {words : List Token} →
    sequel.Follows false sequel.expr (call depth) (call (extra + depth)) words
  | 0, _ => follows_fail _
  | depth + 1, words => by
    rw [← Nat.add_assoc, call, call]
    exact .bind (follows_primary depth) fun callee left => follows_applied depth callee

/-- What is read as calls and properties of a subject is read alike when the text goes on. -/
theorem follows_applied : (depth : Nat) → (subject : Expr) → {words : List Token} →
    sequel.Follows false sequel.expr (applied depth subject)
      (applied (extra + depth) (sequel.expr subject)) words
  | 0, _, _ => follows_fail _
  | depth + 1, subject, words => by
    rw [← Nat.add_assoc, applied_succ, applied_succ]
    refine .bind (follows_symbol? .leftParen) fun opened left => ?_
    cases opened with
    | some =>
      have list : ∀ left, sequel.Follows false (List.map sequel.expr) _ _ left := fun left =>
        follows_arguments depth argumentLimit
      refine .bind (follows_unlessAt .rightParen rfl list) fun values left => ?_
      refine .bind (follows_symbol _ _) fun close left => ?_
      have called : sequel.expr (.call (subject.span.upTo close) subject values) = .call
          ((sequel.expr subject).span.upTo (sequel.change close)) (sequel.expr subject)
          (values.map sequel.expr) := by
        rw [expr, Expr.mapSpans, Expr.mapAllSpans_eq, sequel.upTo, Expr.mapSpans_span]
      exact called ▸ follows_applied depth _
    | none =>
      refine .bind (follows_symbol? .dot) fun dotted left => ?_
      cases dotted with
      | some =>
        refine .bind (follows_name _) fun (property, span) left => ?_
        have gotten : sequel.expr (.get (subject.span.upTo span) subject property) = .get
            ((sequel.expr subject).span.upTo (sequel.change span)) (sequel.expr subject)
              property := by
          rw [expr, Expr.mapSpans, sequel.upTo, Expr.mapSpans_span]
        dsimp only
        exact gotten ▸ follows_applied depth _
      | none => exact follows_pure subject

/-- What is read as arguments is read alike when the text goes on. -/
theorem follows_arguments : (depth allowed : Nat) → {words : List Token} →
    sequel.Follows false (List.map sequel.expr) (arguments depth allowed)
      (arguments (extra + depth) allowed) words
  | 0, _, _ => follows_fail _
  | _ + 1, 0, _ => follows_fail _
  | depth + 1, allowed + 1, words => by
    rw [← Nat.add_assoc, arguments, arguments]
    refine .bind (follows_expression depth) fun first left => ?_
    refine .bind (follows_symbol? .comma) fun comma left => ?_
    cases comma with
    | some =>
      exact .bind (follows_arguments depth allowed) fun others left =>
        follows_pure (first :: others)
    | none => exact follows_pure [first]

/-- What is read as a primary expression is read alike when the text goes on. -/
theorem follows_primary : (depth : Nat) → {words : List Token} →
    sequel.Follows false sequel.expr (primary depth) (primary (extra + depth)) words
  | 0, _ => follows_fail _
  | depth + 1, words => by
    rw [← Nat.add_assoc, primary, primary]
    refine .peek fun kind word => ?_
    split
    · refine .bind (follows_advance (word (by simp))) fun start left => ?_
      refine .bind (follows_symbol _ _) fun _ left => ?_
      refine .bind (follows_name _) fun (method, span) left => follows_of_eq ?_
      simp only [Expr.mapSpans, sequel.upTo]
    · refine .bind (follows_advance (word (by simp))) fun start left => ?_
      refine .bind (follows_expression depth) fun inner left => ?_
      refine .bind (follows_symbol _ _) fun close left => follows_of_eq ?_
      simp only [Expr.mapSpans, sequel.upTo]
    · refine .here fun span => ?_
      rw [atom?_change]
      cases alone : atom? span kind with
      | none => exact follows_fail _
      | some atom =>
        have some : words ≠ [] := by
          refine word ?_
          rintro rfl
          contradiction
        exact .bind (follows_advance some) fun _ left => follows_pure atom

end

/-! ## Statements -/

/-- The statement with its spans changed. -/
abbrev stmt (sequel : Sequel) : Stmt → Stmt := Stmt.mapSpans sequel.change

/-- The function declaration with its spans changed. -/
abbrev decl (sequel : Sequel) : FunctionDecl → FunctionDecl := FunctionDecl.mapSpans sequel.change

/-- Values that are the same with their spans changed are given when the text goes on. -/
theorem settles_of_eq {image : α → α} {value value' : α} (same : image value = value') :
    sequel.Settles image (pure value) (pure value') words :=
  same ▸ settles_pure value

/-- What is read as parameters is read alike when the text goes on. -/
theorem follows_parameters : (allowed : Nat) → {words : List Token} →
    sequel.Follows false (List.map (Parameter.mapSpan sequel.change)) (parameters allowed)
      (parameters allowed) words
  | 0, _ => follows_fail _
  | allowed + 1, words => by
    rw [parameters]
    refine .bind (follows_name _) fun (parameter, span) left => ?_
    refine .bind (follows_symbol? .comma) fun comma left => ?_
    cases comma with
    | some => exact .bind (follows_parameters allowed) fun others left => follows_pure (_ :: others)
    | none => exact follows_pure [Parameter.mk parameter span]

/-- What is read as an expression that may be missing is read alike when the text goes on. -/
theorem follows_some_expression (depth : Nat) :
    sequel.Follows false (Option.map sequel.expr) (some <$> expression depth)
      (some <$> expression (extra + depth)) words :=
  .bind (follows_expression extra depth) fun value _ => follows_pure (some value)

/-- An expression that is missing where the symbol comes next. -/
theorem follows_optional (depth : Nat) (symbol : Symbol) :
    sequel.Follows false (Option.map sequel.expr) (unlessAt symbol none (some <$> expression depth))
      (unlessAt symbol none (some <$> expression (extra + depth))) words :=
  follows_unlessAt symbol rfl fun _ => follows_some_expression extra depth

/-- What is read as an expression statement is read alike when the text goes on. -/
theorem follows_expressionStatement (depth : Nat) :
    sequel.Follows true sequel.stmt (expressionStatement depth)
      (expressionStatement (extra + depth))
      words := by
  refine .bind (follows_expression extra depth) fun value left => ?_
  refine .close (follows_symbol _ _) fun close left => settles_of_eq ?_
  simp only [Stmt.mapSpans, Expr.mapSpans_span, sequel.upTo]

/-- What is read as a variable declaration is read alike when the text goes on. -/
theorem follows_letStatement (depth : Nat) (start : Span) :
    sequel.Follows true sequel.stmt (letStatement depth start)
      (letStatement (extra + depth) (sequel.change start)) words := by
  rw [letStatement_eq, letStatement_eq]
  refine .bind (follows_name _) fun (declared, _) left => ?_
  refine .bind (follows_afterSymbol .assign rfl fun _ => follows_some_expression extra depth)
    fun initializer left => ?_
  refine .close (follows_symbol _ _) fun close left => settles_of_eq ?_
  simp only [Stmt.mapSpans, sequel.upTo]

/-- What is read as a print statement is read alike when the text goes on. -/
theorem follows_printStatement (depth : Nat) (start : Span) :
    sequel.Follows true sequel.stmt (printStatement depth start)
      (printStatement (extra + depth) (sequel.change start)) words := by
  refine .bind (follows_expression extra depth) fun value left => ?_
  refine .close (follows_symbol _ _) fun close left => settles_of_eq ?_
  simp only [Stmt.mapSpans, sequel.upTo]

/-- What is read as a return statement is read alike when the text goes on. -/
theorem follows_returnStatement (depth : Nat) (start : Span) :
    sequel.Follows true sequel.stmt (returnStatement depth start)
      (returnStatement (extra + depth) (sequel.change start)) words := by
  rw [returnStatement_eq, returnStatement_eq]
  refine .bind (follows_optional extra depth .semicolon) fun value left => ?_
  refine .close (follows_symbol _ _) fun close left => settles_of_eq ?_
  simp only [Stmt.mapSpans, sequel.upTo]

/-- What is read as a break statement is read alike when the text goes on. -/
theorem follows_breakStatement (start : Span) :
    sequel.Follows true sequel.stmt (breakStatement start) (breakStatement (sequel.change start))
      words := by
  refine .close (follows_symbol _ _) fun close left => settles_of_eq ?_
  simp only [Stmt.mapSpans, sequel.upTo]

/-- What is read as the initializer of a loop is read alike when the text goes on. -/
theorem follows_forInitializer (depth : Nat) :
    sequel.Follows false (Option.map sequel.stmt) (forInitializer depth)
      (forInitializer (extra + depth)) words := by
  refine .bind (follows_symbol? .semicolon) fun missing left => ?_
  cases missing with
  | some => exact follows_pure none
  | none =>
    refine .bind (follows_keyword? .let) fun declared left => ?_
    cases declared with
    | some start =>
      exact .bind (follows_letStatement extra depth start) fun stmt _ => follows_pure (some stmt)
    | none =>
      exact .bind (follows_expressionStatement extra depth) fun stmt _ => follows_pure (some stmt)

mutual

/-- What is read as a declaration is read alike when the text goes on. -/
theorem follows_declaration : (depth : Nat) → {words : List Token} →
    sequel.Follows true sequel.stmt (declaration depth) (declaration (extra + depth)) words
  | 0, _ => follows_fail _
  | depth + 1, words => by
    rw [← Nat.add_assoc, declaration, declaration]
    refine .peek fun kind word => ?_
    split
    · refine .bind (follows_advance (word (by simp))) fun start left => ?_
      exact follows_classDeclaration depth start
    · refine .bind (follows_advance (word (by simp))) fun start left => ?_
      refine .close (follows_function depth _) fun decl left => settles_of_eq ?_
      simp only [Stmt.mapSpans, FunctionDecl.mapSpans_span, sequel.upTo]
    · refine .bind (follows_advance (word (by simp))) fun start left => ?_
      exact follows_letStatement extra depth start
    · exact follows_statement depth

/-- What is read as a class declaration is read alike when the text goes on. -/
theorem follows_classDeclaration : (depth : Nat) → (start : Span) → {words : List Token} →
    sequel.Follows true sequel.stmt (classDeclaration depth start)
      (classDeclaration (extra + depth) (sequel.change start)) words
  | 0, _, _ => follows_fail _
  | depth + 1, start, words => by
    rw [← Nat.add_assoc, classDeclaration_succ, classDeclaration_succ]
    refine .bind (follows_name _) fun (className, _) left => ?_
    have below : ∀ left, sequel.Follows false (Option.map (SuperclassName.mapSpan sequel.change))
        superclassName superclassName left := fun left =>
      .bind (follows_name _) fun (superclass, span) _ =>
        follows_pure (some (SuperclassName.mk superclass span))
    refine .bind (follows_afterSymbol .less rfl below) fun superclass left => ?_
    refine .bind (follows_symbol _ _) fun _ left => ?_
    refine .bind (follows_methods depth) fun methods left => ?_
    refine .close (follows_symbol _ _) fun close left => settles_of_eq ?_
    simp only [Stmt.mapSpans, FunctionDecl.mapAllSpans_eq, sequel.upTo]

/-- What is read as methods is read alike when the text goes on. -/
theorem follows_methods : (depth : Nat) → {words : List Token} →
    sequel.Follows false (List.map sequel.decl) (methods depth) (methods (extra + depth)) words
  | 0, _ => follows_fail _
  | depth + 1, words => by
    rw [← Nat.add_assoc, methods, methods]
    refine .bind follows_atEndOfBody fun ended left => ?_
    cases ended with
    | true => exact follows_pure []
    | false =>
      refine .bind (follows_function depth _) fun first left => ?_
      exact .bind (follows_methods depth) fun others left => follows_pure (first :: others)

/-- What is read as a function is read alike when the text goes on. -/
theorem follows_function : (depth : Nat) → (role : String) → {words : List Token} →
    sequel.Follows true sequel.decl (function depth role) (function (extra + depth) role) words
  | 0, _, _ => follows_fail _
  | depth + 1, role, words => by
    rw [← Nat.add_assoc, function_succ, function_succ]
    refine .bind (follows_name _) fun (functionName, start) left => ?_
    refine .bind (follows_symbol _ _) fun _ left => ?_
    have list : ∀ left,
      sequel.Follows false (List.map (Parameter.mapSpan sequel.change)) _ _ left :=
      fun left => follows_parameters argumentLimit
    refine .bind (follows_unlessAt .rightParen rfl list) fun parameters left => ?_
    refine .bind (follows_symbol _ _) fun _ left => ?_
    refine .bind (follows_symbol _ _) fun _ left => ?_
    refine .bind (follows_declarations depth) fun body left => ?_
    refine .close (follows_symbol _ _) fun close left => settles_of_eq ?_
    simp only [FunctionDecl.mapSpans, Stmt.mapAllSpans_eq, sequel.upTo]

/-- What is read as declarations is read alike when the text goes on. -/
theorem follows_declarations : (depth : Nat) → {words : List Token} →
    sequel.Follows false (List.map sequel.stmt) (declarations depth)
      (declarations (extra + depth)) words
  | 0, _ => follows_fail _
  | depth + 1, words => by
    rw [← Nat.add_assoc, declarations, declarations]
    refine .bind follows_atEndOfBody fun ended left => ?_
    cases ended with
    | true => exact follows_pure []
    | false =>
      refine .bind (follows_declaration depth) fun first left => ?_
      exact .bind (follows_declarations depth) fun others left => follows_pure (first :: others)

/-- What is read as a statement is read alike when the text goes on. -/
theorem follows_statement : (depth : Nat) → {words : List Token} →
    sequel.Follows true sequel.stmt (statement depth) (statement (extra + depth)) words
  | 0, _ => follows_fail _
  | depth + 1, words => by
    rw [← Nat.add_assoc, statement, statement]
    refine .peek fun kind word => ?_
    split
    · refine .bind (follows_advance (word (by simp))) fun start left => ?_
      exact follows_forStatement depth start
    · refine .bind (follows_advance (word (by simp))) fun start left => ?_
      exact follows_ifStatement depth start
    · refine .bind (follows_advance (word (by simp))) fun start left => ?_
      exact follows_printStatement extra depth start
    · refine .bind (follows_advance (word (by simp))) fun start left => ?_
      exact follows_returnStatement extra depth start
    · refine .bind (follows_advance (word (by simp))) fun start left => ?_
      exact follows_whileStatement depth start
    · exact .bind (follows_advance (word (by simp))) fun start left => follows_breakStatement start
    · refine .bind (follows_advance (word (by simp))) fun start left => ?_
      refine .bind (follows_declarations depth) fun body left => ?_
      refine .close (follows_symbol _ _) fun close left => settles_of_eq ?_
      simp only [Stmt.mapSpans, Stmt.mapAllSpans_eq, sequel.upTo]
    · exact follows_expressionStatement extra depth

/-- What is read as a `for` statement is read alike when the text goes on. -/
theorem follows_forStatement : (depth : Nat) → (start : Span) → {words : List Token} →
    sequel.Follows true sequel.stmt (forStatement depth start)
      (forStatement (extra + depth) (sequel.change start)) words
  | 0, _, _ => follows_fail _
  | depth + 1, start, words => by
    rw [← Nat.add_assoc, forStatement_succ, forStatement_succ]
    refine .bind (follows_symbol _ _) fun _ left => ?_
    refine .bind (follows_forInitializer extra depth) fun initializer left => ?_
    refine .bind (follows_optional extra depth .semicolon) fun condition left => ?_
    refine .bind (follows_symbol _ _) fun separator left => ?_
    refine .bind (follows_optional extra depth .rightParen) fun increment left => ?_
    refine .bind (follows_symbol _ _) fun _ left => ?_
    refine .close (follows_statement depth) fun body left => settles_of_eq ?_
    exact mapSpans_forLoop sequel.upTo start separator initializer condition increment body

/-- What is read as an `if` statement is read alike when the text goes on. -/
theorem follows_ifStatement : (depth : Nat) → (start : Span) → {words : List Token} →
    sequel.Follows true sequel.stmt (ifStatement depth start)
      (ifStatement (extra + depth) (sequel.change start)) words
  | 0, _, _ => follows_fail _
  | depth + 1, start, words => by
    rw [← Nat.add_assoc, ifStatement, ifStatement]
    refine .bind (follows_symbol _ _) fun _ left => ?_
    refine .bind (follows_expression extra depth) fun condition left => ?_
    refine .bind (follows_symbol _ _) fun _ left => ?_
    refine .close (follows_statement depth) fun thenBranch left => ?_
    refine settles_keyword?_else (fun left => settles_of_eq ?_) fun _ left => ?_
    · simp only [Stmt.mapSpans, Stmt.mapSpans?, Stmt.mapSpans_span, sequel.upTo]
    · dsimp only
      refine Follows.settles ?_
      refine .close (follows_statement depth) fun elseBranch left => settles_of_eq ?_
      simp only [Stmt.mapSpans, Stmt.mapSpans?, Stmt.mapSpans_span, sequel.upTo]

/-- What is read as a `while` statement is read alike when the text goes on. -/
theorem follows_whileStatement : (depth : Nat) → (start : Span) → {words : List Token} →
    sequel.Follows true sequel.stmt (whileStatement depth start)
      (whileStatement (extra + depth) (sequel.change start)) words
  | 0, _, _ => follows_fail _
  | depth + 1, start, words => by
    rw [← Nat.add_assoc, whileStatement, whileStatement]
    refine .bind (follows_symbol _ _) fun _ left => ?_
    refine .bind (follows_expression extra depth) fun condition left => ?_
    refine .bind (follows_symbol _ _) fun _ left => ?_
    refine .close (follows_statement depth) fun body left => settles_of_eq ?_
    simp only [Stmt.mapSpans, Stmt.mapSpans_span, sequel.upTo]

end

end Sequel

end EventScript.Parse
