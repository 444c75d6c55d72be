import EventScript.Proofs.Syntax.Layout

/-!
# What readers take

A reader takes tokens off the front, and `Parse.Takes` says how they go with what it finds. What
each reader finds is written by the tokens that it takes: the lemmas follow the readers, one for
each, by induction on the depth, and end in `Parse.program_takes`.
-/

namespace EventScript.Parse

variable {tokens own : List Token} {α β : Type}

/-- Where the reader succeeds, the tokens that it takes go with what it finds. -/
def Takes (reader : Parse α) (tokens : List Token) (post : α → List Token → Prop) : Prop :=
  ∀ value rest, reader tokens = .ok (value, rest) → ∃ own, tokens = own ++ rest ∧ post value own

section Rules

variable {reader : Parse α} {post : α → List Token → Prop}

/-- What a reader takes it takes in a weaker sense. -/
theorem Takes.mono {weaker : α → List Token → Prop} (takes : Takes reader tokens post)
    (le : ∀ value own, post value own → weaker value own) : Takes reader tokens weaker := by
  intro value rest found
  obtain ⟨own, split, holds⟩ := takes value rest found
  exact ⟨own, split, le value own holds⟩

/-- What two readers in a row take, the second takes behind the first. -/
theorem Takes.bind {next : α → Parse β} {post : β → List Token → Prop}
    (takes : Takes reader tokens fun value own =>
      ∀ rest, Takes (next value) rest fun found more => post found (own ++ more)) :
    Takes (reader >>= next) tokens post := by
  intro value rest found
  obtain ⟨first, middle, start, onward⟩ := exists_of_bind found
  obtain ⟨own, rfl, after⟩ := takes first middle start
  obtain ⟨more, rfl, holds⟩ := after middle value rest onward
  exact ⟨own ++ more, (List.append_assoc ..).symm, holds⟩

/-- What two readers in a row take, the second takes behind the first, if it does so whatever the
first one may find. -/
theorem Takes.then {next : α → Parse β} {found : α → List Token → Prop}
    {post : β → List Token → Prop} (takes : Takes reader tokens found)
    (onward : ∀ value own, found value own →
      ∀ rest, Takes (next value) rest fun value more => post value (own ++ more)) :
    Takes (reader >>= next) tokens post :=
  .bind (takes.mono onward)

/-- Looking at the kind of the next token takes nothing. -/
theorem Takes.peek {next : TokenKind → Parse β} {post : β → List Token → Prop}
    (takes : Takes (next (current tokens).kind) tokens post) :
    Takes (peek >>= next) tokens post := takes

/-- Looking at the span of the next token takes nothing. -/
theorem Takes.here {next : Span → Parse β} {post : β → List Token → Prop}
    (takes : Takes (next (current tokens).span) tokens post) :
    Takes (here >>= next) tokens post := takes

/-- A reader that fails takes whatever one likes. -/
theorem takes_fail (fault : SyntaxFault) : Takes (fail fault) tokens post := by
  intro value rest found
  contradiction

/-- A reader that fails at a span takes whatever one likes. -/
theorem takes_failAt (fault : SyntaxFault) (span : Span) :
    Takes (failAt fault span) tokens post := by
  intro value rest found
  contradiction

/-- A reader takes what it is seen to take. -/
theorem takes_of_eq {value : α} {rest : List Token}
    (same : reader (own ++ rest) = .ok (value, rest))
    (holds : post value own) : Takes reader (own ++ rest) post := by
  intro value' rest' found
  obtain ⟨rfl, rfl⟩ := Prod.mk.inj (Except.ok.inj (same.symm.trans found))
  exact ⟨own, rfl, holds⟩

/-- A reader that takes no token. -/
theorem takes_nothing {value : α} (same : reader tokens = .ok (value, tokens))
    (holds : post value []) :
    Takes reader tokens post :=
  takes_of_eq same holds

/-- A reader that gives a value takes nothing. -/
theorem takes_pure {value : α} (holds : post value []) : Takes (pure value) tokens post :=
  takes_nothing rfl holds

/-- A token that is no mark of the end comes first. -/
theorem exists_of_kind {kind : TokenKind} (same : (current tokens).kind = kind)
    (word : kind ≠ .endOfInput) :
    ∃ token rest, tokens = [token] ++ rest ∧ token.kind = kind ∧
      Written [.word kind token.span] [token] := by
  cases tokens with
  | nil => exact absurd same.symm word
  | cons token rest =>
    obtain rfl : token.kind = kind := same
    exact ⟨token, rest, rfl, rfl, .word .nil⟩

/-- Taking the next token takes one word. -/
theorem takes_advance {kind : TokenKind} (same : (current tokens).kind = kind)
    (word : kind ≠ .endOfInput) :
    Takes advance tokens fun span own => Written [.word kind span] own := by
  obtain ⟨token, rest, rfl, -, written⟩ := exists_of_kind same word
  exact takes_of_eq rfl written

/-- A symbol that may be there is taken as one word if it is. -/
theorem takes_symbol? {post : Option Span → List Token → Prop} (symbol : Symbol)
    (found : ∀ span own, Written [.word (.symbol symbol) span] own → post (some span) own)
    (other : post none []) : Takes (symbol? symbol) tokens post := by
  by_cases same : (current tokens).kind = .symbol symbol
  · obtain ⟨token, rest, rfl, kind, written⟩ := exists_of_kind same nofun
    exact takes_of_eq (symbol?_found kind) (found _ _ written)
  · exact takes_nothing (symbol?_other same) other

/-- A keyword that may be there is taken as one word if it is. -/
theorem takes_keyword? {post : Option Span → List Token → Prop} (keyword : Keyword)
    (found : ∀ span own, Written [.word (.keyword keyword) span] own → post (some span) own)
    (other : post none []) : Takes (keyword? keyword) tokens post := by
  by_cases same : (current tokens).kind = .keyword keyword
  · obtain ⟨token, rest, rfl, kind, written⟩ := exists_of_kind same nofun
    exact takes_of_eq (keyword?_found kind) (found _ _ written)
  · exact takes_nothing (keyword?_other same) other

/-- A symbol that must be there is taken as one word. -/
theorem takes_symbol (symbol : Symbol) (what : String) :
    Takes (Parse.symbol symbol what) tokens
      fun span own => Written [.word (.symbol symbol) span] own := by
  refine .bind (takes_symbol? symbol ?_ ?_)
  · intro span own written rest
    exact takes_pure (written.append .nil)
  · exact fun rest => takes_fail _

/-- A name that must be there is taken as one word. -/
theorem takes_name (what : String) :
    Takes (name what) tokens
      fun found own => Written [.word (.identifier found.1) found.2] own := by
  refine .peek ?_
  split
  · rename_i name kind
    apply (takes_advance kind nofun).then
    intro span own written rest
    exact takes_pure (written.append .nil)
  · exact takes_fail _

/-- What is missing before a symbol takes nothing. -/
theorem takes_unlessAt {missing : α} (symbol : Symbol) (absent : post missing [])
    (present : Takes reader tokens post) : Takes (unlessAt symbol missing reader) tokens post := by
  by_cases same : (current tokens).kind = .symbol symbol
  · exact .bind (takes_nothing (at?_found same) fun _ => takes_pure absent)
  · intro value rest found
    rw [unlessAt, bind_ok (at?_other same)] at found
    exact present value rest found

/-- What is missing without a symbol takes nothing. -/
theorem takes_afterSymbol {missing : α} (symbol : Symbol) (absent : post missing [])
    (present : ∀ span own, Written [.word (.symbol symbol) span] own →
      ∀ rest, Takes reader rest fun value more => post value (own ++ more)) :
    Takes (afterSymbol symbol missing reader) tokens post :=
  .bind (takes_symbol? symbol (fun span own written rest => present span own written rest)
    fun _ => takes_pure absent)

/-- Noticing the end of a body takes nothing. -/
theorem takes_atEndOfBody {post : Bool → List Token → Prop} (holds : ∀ ended, post ended []) :
    Takes atEndOfBody tokens post :=
  takes_nothing (atEndOfBody_eq tokens) (holds _)

end Rules

/-! ## Expressions -/

/-- The tokens write the expression. -/
abbrev WritesExpr (value : Expr) (own : List Token) : Prop := Written [.piece (.expr value)] own

/-- The tokens write the pieces, with commas between them. -/
def WritesList (pieces : List Piece) (own : List Token) : Prop :=
  ∃ items, Item.Listed pieces items ∧ Written items own

/-- A list of one piece is written as the piece is. -/
theorem WritesList.last {piece : Piece} (first : Written [.piece piece] own) :
    WritesList [piece] own :=
  ⟨_, .last piece, first⟩

/-- A list of more pieces is written with commas between them. -/
theorem WritesList.more {piece : Piece} {pieces : List Piece} {comma : Span}
    {before parted after : List Token}
    (first : Written [.piece piece] before) (middle : Written [.word (.symbol .comma) comma] parted)
    (last : WritesList pieces after) (filled : pieces ≠ []) :
    WritesList (piece :: pieces) (before ++ (parted ++ (after ++ []))) := by
  obtain ⟨items, listed, behind⟩ := last
  cases pieces with
  | nil => contradiction
  | cons next others =>
    rw [List.append_nil]
    exact ⟨_, .more piece comma listed, first.append (middle.append behind)⟩

/-- An expression is laid out by the rule for its form. -/
theorem WritesExpr.layout {value : Expr} (writes : WritesExpr value own) :
    ∃ parts, (Piece.expr value).Layout parts ∧ Written parts own := by
  rcases Written.layout writes with laid | ⟨text, other, -⟩
  · exact laid
  · contradiction

/-- A variable is laid out as its name. -/
theorem layout_variable {piece : Piece} {parts : List Item} {span : Span} {name : String}
    (layout : piece.Layout parts) (same : piece = .expr (.variable span name)) :
    parts = [.word (.identifier name) span] := by
  cases layout with
  | atom alone =>
    obtain rfl := Piece.expr.inj same
    unfold atom? at alone
    split at alone <;> cases alone
    rfl
  | join => cases ‹Connective› <;> cases same
  | _ => cases same

/-- A property is laid out as its object and its name. -/
theorem layout_get {piece : Piece} {parts : List Item} {span : Span} {object : Expr} {name : String}
    (layout : piece.Layout parts) (same : piece = .expr (.get span object name)) :
    ∃ dot named, span = object.span.upTo named ∧
      parts = [.piece (.expr object), .word (.symbol .dot) dot,
        .word (.identifier name) named] := by
  cases layout with
  | atom alone =>
    obtain rfl := Piece.expr.inj same
    unfold atom? at alone
    split at alone <;> cases alone
  | join => cases ‹Connective› <;> cases same
  | get object dot named name =>
    cases same
    exact ⟨dot, named, rfl, rfl⟩
  | _ => cases same

/-- An assignment is written with its target, a sign and its value. -/
theorem takes_assignTo {target value : Expr} {sign : Span} {before signed after : List Token}
    (first : WritesExpr target before) (middle : Written [.word (.symbol .assign) sign] signed)
    (last : WritesExpr value after) :
    Takes (assignTo target value sign) tokens fun found more =>
      WritesExpr found (before ++ (signed ++ (after ++ more))) := by
  obtain ⟨parts, layout, inside⟩ := first.layout
  have behind := middle.append (last.append .nil)
  cases target with
  | «variable» span name =>
    obtain rfl := layout_variable layout rfl
    have written := inside.append behind
    exact takes_pure (Piece.Layout.written (.assign span sign name value) written)
  | get span object name =>
    obtain ⟨dot, named, rfl, rfl⟩ := layout_get layout rfl
    have written := inside.append behind
    exact takes_pure (Piece.Layout.written (.set object dot named sign name value) written)
  | _ => exact takes_failAt _ _

mutual

/-- What is read as an expression is laid out in the tokens it is read from. -/
theorem expression_takes : (depth : Nat) → {tokens : List Token} →
    Takes (expression depth) tokens WritesExpr
  | 0, _ => takes_fail _
  | depth + 1, tokens => by
    rw [expression]
    apply (level_takes depth .disjunction).then
    intro target before first rest
    refine .bind (takes_symbol? .assign ?_ ?_)
    · intro sign signed middle rest
      apply (expression_takes depth).then
      intro value after last rest
      exact takes_assignTo first middle last
    · intro rest
      exact takes_pure (first.append .nil)

/-- What is read as operands joined by operators of some strength is laid out in the tokens it is
read from. -/
theorem level_takes : (depth : Nat) → (strength : Level) → {tokens : List Token} →
    Takes (level depth strength) tokens WritesExpr
  | 0, _, _ => takes_fail _
  | depth + 1, strength, tokens => by
    rw [level]
    apply (operand_takes depth strength).then
    intro left before first rest
    exact joined_takes depth strength first

/-- What is read as an operand of such operators is laid out in the tokens it is read from. -/
theorem operand_takes : (depth : Nat) → (strength : Level) → {tokens : List Token} →
    Takes (operand depth strength) tokens WritesExpr
  | 0, _, _ => takes_fail _
  | depth + 1, strength, tokens => by
    rw [operand]
    split
    · exact level_takes depth _
    · exact unary_takes depth

/-- What is read as more operands joined to a first one is laid out in the tokens it is read
from. -/
theorem joined_takes :
    (depth : Nat) → (strength : Level) → {left : Expr} → {tokens own : List Token} →
    WritesExpr left own →
    Takes (joined depth strength left) tokens fun value more => WritesExpr value (own ++ more)
  | 0, _, _, _, _, _ => takes_fail _
  | depth + 1, strength, left, tokens, own, first => by
    rw [joined]
    refine .peek ?_
    split
    · exact takes_pure (first.append .nil)
    · rename_i connective denotes
      have word : (current tokens).kind ≠ .endOfInput := by
        intro mark
        rw [mark] at denotes
        cases strength <;> contradiction
      apply (takes_advance rfl word).then
      intro sign signed middle rest
      apply (operand_takes depth strength).then
      intro right after last rest
      have both : WritesExpr (connective.join left right) (own ++ (signed ++ after)) :=
        Piece.Layout.written (.join denotes left sign right) (first.append (middle.append last))
      refine (joined_takes depth strength both).mono fun value more writes => ?_
      rwa [List.append_assoc, List.append_assoc] at writes

/-- What is read as an operand with signs before it is laid out in the tokens it is read from. -/
theorem unary_takes : (depth : Nat) → {tokens : List Token} → Takes (unary depth) tokens WritesExpr
  | 0, _ => takes_fail _
  | depth + 1, tokens => by
    rw [unary]
    refine .peek ?_
    split
    · exact call_takes depth
    · rename_i op denotes
      have word : (current tokens).kind ≠ .endOfInput := by
        intro mark
        rw [mark] at denotes
        contradiction
      apply (takes_advance rfl word).then
      intro sign signed first rest
      apply (unary_takes depth).then
      intro operand own last rest
      have written := first.append (last.append .nil)
      exact takes_pure (Piece.Layout.written (.unary denotes sign operand) written)

/-- What is read as a call or less is laid out in the tokens it is read from. -/
theorem call_takes : (depth : Nat) → {tokens : List Token} → Takes (call depth) tokens WritesExpr
  | 0, _ => takes_fail _
  | depth + 1, tokens => by
    rw [call]
    apply (primary_takes depth).then
    intro callee own first rest
    exact applied_takes depth first

/-- What is read as calls and properties of a subject is laid out in the tokens it is read from. -/
theorem applied_takes : (depth : Nat) → {subject : Expr} → {tokens own : List Token} →
    WritesExpr subject own →
    Takes (applied depth subject) tokens fun value more => WritesExpr value (own ++ more)
  | 0, _, _, _, _ => takes_fail _
  | depth + 1, subject, tokens, own, first => by
    rw [applied_succ]
    refine .bind (takes_symbol? .leftParen ?_ ?_)
    · intro opening opened second rest
      have list : Takes (unlessAt .rightParen [] (arguments depth argumentLimit)) rest
          fun values own => WritesList (values.map .expr) own :=
        takes_unlessAt .rightParen ⟨[], .none, .nil⟩
          ((arguments_takes depth argumentLimit).mono fun _ _ writes => writes.2)
      apply list.then
      rintro values inner ⟨items, listed, third⟩ rest
      apply (takes_symbol .rightParen _).then
      intro closing closed last rest
      have whole : WritesExpr _ (own ++ (opened ++ (inner ++ closed))) :=
        Piece.Layout.written (.call subject opening closing listed)
          (first.append (second.append (third.append last)))
      refine (applied_takes depth whole).mono fun value more writes => ?_
      rwa [List.append_assoc, List.append_assoc, List.append_assoc] at writes
    · intro rest
      refine .bind (takes_symbol? .dot ?_ ?_)
      · intro dot dotted second rest
        apply (takes_name _).then
        rintro ⟨name, named⟩ inner last rest
        have whole : WritesExpr _ (own ++ (dotted ++ inner)) :=
          Piece.Layout.written (.get subject dot named name) (first.append (second.append last))
        refine (applied_takes depth whole).mono fun value more writes => ?_
        rwa [List.append_assoc, List.append_assoc] at writes
      · intro rest
        exact takes_pure (first.append .nil)

/-- What is read as arguments is laid out in the tokens it is read from. -/
theorem arguments_takes : (depth allowed : Nat) → {tokens : List Token} →
    Takes (arguments depth allowed) tokens fun values own =>
      values ≠ [] ∧ WritesList (values.map .expr) own
  | 0, _, _ => takes_fail _
  | _ + 1, 0, _ => takes_fail _
  | depth + 1, allowed + 1, tokens => by
    rw [arguments]
    apply (expression_takes depth).then
    intro value before first rest
    refine .bind (takes_symbol? .comma ?_ ?_)
    · intro comma parted second rest
      apply (arguments_takes depth allowed).then
      rintro others after ⟨filled, last⟩ rest
      exact takes_pure ⟨List.cons_ne_nil _ _,
        .more first second last (mt List.map_eq_nil_iff.mp filled)⟩
    · intro rest
      exact takes_pure ⟨List.cons_ne_nil _ _, .last (first.append .nil)⟩

/-- What is read as a primary expression is laid out in the tokens it is read from. -/
theorem primary_takes :
    (depth : Nat) → {tokens : List Token} → Takes (primary depth) tokens WritesExpr
  | 0, _ => takes_fail _
  | depth + 1, tokens => by
    rw [primary]
    refine .peek ?_
    split
    · rename_i kind
      apply (takes_advance kind nofun).then
      intro start begun first rest
      apply (takes_symbol .dot _).then
      intro dot dotted second rest
      apply (takes_name _).then
      rintro ⟨method, named⟩ own last rest
      have written := first.append (second.append (last.append .nil))
      exact takes_pure (Piece.Layout.written (.super start dot named method) written)
    · rename_i kind
      apply (takes_advance kind nofun).then
      intro opening opened first rest
      apply (expression_takes depth).then
      intro inner own second rest
      apply (takes_symbol .rightParen _).then
      intro closing closed last rest
      have written := first.append (second.append (last.append .nil))
      exact takes_pure (Piece.Layout.written (.group opening closing inner) written)
    · refine .here ?_
      split
      · exact takes_fail _
      · rename_i atom alone
        have word : (current tokens).kind ≠ .endOfInput := by
          intro mark
          rw [mark] at alone
          contradiction
        obtain ⟨token, rest, rfl, -, written⟩ := exists_of_kind rfl word
        have taken : advance ([token] ++ rest) = .ok (token.span, rest) := rfl
        refine .bind (takes_of_eq taken ?_)
        intro rest
        exact takes_pure (Piece.Layout.written (.atom alone) (written.append .nil))

end

/-! ## Statements -/

/-- The tokens write the statement. -/
abbrev WritesStmt (stmt : Stmt) (own : List Token) : Prop := Written [.piece (.stmt stmt)] own

/-- The tokens write the statements one after the other. -/
abbrev WritesBody (body : List Stmt) (own : List Token) : Prop :=
  Written (body.map fun inner => .piece (.stmt inner)) own

/-- The tokens write an expression that may be missing. -/
abbrev WritesMaybe (value : Option Expr) (own : List Token) : Prop :=
  Written (value.toList.map fun given => .piece (.expr given)) own

/-- The tokens write a piece behind a word, or are none. -/
abbrev WritesBehind (kind : TokenKind) (piece? : Option Piece) (own : List Token) : Prop :=
  ∃ sign, Written (Item.behind kind sign piece?) own

/-- What is read as parameters is laid out in the tokens it is read from. -/
theorem parameters_takes : (allowed : Nat) → {tokens : List Token} →
    Takes (parameters allowed) tokens fun found own =>
      found ≠ [] ∧ WritesList (found.map .parameter) own
  | 0, _ => takes_fail _
  | allowed + 1, tokens => by
    rw [parameters]
    apply (takes_name _).then
    rintro ⟨name, span⟩ own named rest
    have first : Written [.piece (.parameter ⟨name, span⟩)] own :=
      Piece.Layout.written (.parameter name span) named
    refine .bind (takes_symbol? .comma ?_ ?_)
    · intro comma parted middle rest
      apply (parameters_takes allowed).then
      intro others after last rest
      obtain ⟨filled, last⟩ := last
      exact takes_pure ⟨List.cons_ne_nil _ _,
        .more first middle last (mt List.map_eq_nil_iff.mp filled)⟩
    · intro rest
      exact takes_pure ⟨List.cons_ne_nil _ _, .last (first.append .nil)⟩

/-- What is read as an expression that may be missing is laid out in the tokens it is read from. -/
theorem some_expression_takes (depth : Nat) :
    Takes (some <$> expression depth) tokens WritesMaybe := by
  apply (expression_takes depth).then
  intro value own first rest
  exact takes_pure (first.append .nil)

/-- An expression that is missing where the symbol comes next. -/
theorem optional_takes (depth : Nat) (symbol : Symbol) :
    Takes (unlessAt symbol none (some <$> expression depth)) tokens WritesMaybe :=
  takes_unlessAt symbol .nil (some_expression_takes depth)

/-- What is read as an expression statement is laid out in the tokens it is read from. -/
theorem expressionStatement_takes (depth : Nat) :
    Takes (expressionStatement depth) tokens WritesStmt := by
  apply (expression_takes depth).then
  intro value own first rest
  apply (takes_symbol .semicolon _).then
  intro close closed last rest
  have written := first.append (last.append .nil)
  exact takes_pure (Piece.Layout.written (.expression value close) written)

/-- What is read as a variable declaration is laid out in the tokens it is read from. -/
theorem letStatement_takes (depth : Nat) {start : Span}
    (begun : Written [.word (.keyword .let) start] own) :
    Takes (letStatement depth start) tokens fun stmt more => WritesStmt stmt (own ++ more) := by
  rw [letStatement_eq]
  apply (takes_name _).then
  rintro ⟨name, named⟩ declared first rest
  have value : Takes (afterSymbol .assign none (some <$> expression depth)) rest
      fun initializer more => WritesBehind (.symbol .assign) (initializer.map .expr) more := by
    refine takes_afterSymbol .assign ⟨default, .nil⟩ fun sign signed middle rest => ?_
    apply (expression_takes depth).then
    intro value more last rest
    exact takes_pure ⟨sign, middle.append (last.append .nil)⟩
  apply value.then
  rintro initializer more ⟨sign, second⟩ rest
  apply (takes_symbol .semicolon _).then
  intro close closed last rest
  have written := begun.append (first.append (second.append (last.append .nil)))
  exact takes_pure (Piece.Layout.written (.letDecl start named sign close name initializer) written)

/-- What is read as a print statement is laid out in the tokens it is read from. -/
theorem printStatement_takes (depth : Nat) {start : Span}
    (begun : Written [.word (.keyword .print) start] own) :
    Takes (printStatement depth start) tokens fun stmt more => WritesStmt stmt (own ++ more) := by
  apply (expression_takes depth).then
  intro value more first rest
  apply (takes_symbol .semicolon _).then
  intro close closed last rest
  have written := begun.append (first.append (last.append .nil))
  exact takes_pure (Piece.Layout.written (.print start close value) written)

/-- What is read as a return statement is laid out in the tokens it is read from. -/
theorem returnStatement_takes (depth : Nat) {start : Span}
    (begun : Written [.word (.keyword .return) start] own) :
    Takes (returnStatement depth start) tokens fun stmt more => WritesStmt stmt (own ++ more) := by
  rw [returnStatement_eq]
  apply (optional_takes depth .semicolon).then
  intro value more first rest
  apply (takes_symbol .semicolon _).then
  intro close closed last rest
  have written := begun.append (first.append (last.append .nil))
  exact takes_pure (Piece.Layout.written (.return start close value) written)

/-- What is read as a break statement is laid out in the tokens it is read from. -/
theorem breakStatement_takes {start : Span} (begun : Written [.word (.keyword .break) start] own) :
    Takes (breakStatement start) tokens fun stmt more => WritesStmt stmt (own ++ more) := by
  apply (takes_symbol .semicolon _).then
  intro close closed last rest
  have written := begun.append (last.append .nil)
  exact takes_pure (Piece.Layout.written (.break start close) written)

/-- What is read as the initializer of a loop is laid out in the tokens it is read from. -/
theorem forInitializer_takes (depth : Nat) :
    Takes (forInitializer depth) tokens fun initializer own =>
      ∃ absent, Written (Item.clause absent initializer) own := by
  refine .bind (takes_symbol? .semicolon ?_ ?_)
  · intro absent closed first rest
    exact takes_pure ⟨absent, first.append .nil⟩
  · intro rest
    refine .bind (takes_keyword? .let ?_ ?_)
    · intro start own begun rest
      apply (letStatement_takes depth begun).then
      intro stmt more first rest
      refine takes_pure ⟨default, ?_⟩
      rw [List.append_nil]
      exact first
    · intro rest
      apply (expressionStatement_takes depth).then
      intro stmt own first rest
      exact takes_pure ⟨default, first.append .nil⟩

/-- The name of a superclass behind its sign. -/
theorem superclass_takes :
    Takes (afterSymbol .less none superclassName) tokens fun above own =>
      WritesBehind (.symbol .less) (above.map .superclass) own := by
  refine takes_afterSymbol .less ⟨default, .nil⟩ fun sign signed middle rest => ?_
  apply (takes_name _).then
  rintro ⟨name, span⟩ own named rest
  have last : Written [.piece (.superclass ⟨name, span⟩)] own :=
    Piece.Layout.written (.superclass name span) named
  exact takes_pure ⟨sign, middle.append (last.append .nil)⟩

mutual

/-- What is read as a declaration is laid out in the tokens it is read from. -/
theorem declaration_takes : (depth : Nat) → {tokens : List Token} →
    Takes (declaration depth) tokens WritesStmt
  | 0, _ => takes_fail _
  | depth + 1, tokens => by
    rw [declaration]
    refine .peek ?_
    split
    · rename_i kind
      apply (takes_advance kind nofun).then
      intro start own begun rest
      exact classDeclaration_takes depth begun
    · rename_i kind
      apply (takes_advance kind nofun).then
      intro start own begun rest
      apply (function_takes depth _).then
      intro decl more last rest
      have written := begun.append (last.append .nil)
      exact takes_pure (Piece.Layout.written (.funDecl start decl) written)
    · rename_i kind
      apply (takes_advance kind nofun).then
      intro start own begun rest
      exact letStatement_takes depth begun
    · exact statement_takes depth

/-- What is read as a class declaration is laid out in the tokens it is read from. -/
theorem classDeclaration_takes : (depth : Nat) → {start : Span} → {tokens own : List Token} →
    Written [.word (.keyword .classWord) start] own →
    Takes (classDeclaration depth start) tokens fun stmt more => WritesStmt stmt (own ++ more)
  | 0, _, _, _, _ => takes_fail _
  | depth + 1, start, tokens, own, begun => by
    rw [classDeclaration_succ]
    apply (takes_name _).then
    rintro ⟨name, named⟩ declared first rest
    apply superclass_takes.then
    rintro above inherits ⟨sign, second⟩ rest
    apply (takes_symbol .leftBrace _).then
    intro entry entered third rest
    apply (methods_takes depth).then
    intro methods inner fourth rest
    apply (takes_symbol .rightBrace _).then
    intro close closed last rest
    have behind := third.append (fourth.append (last.append .nil))
    have written := begun.append (first.append (second.append behind))
    apply takes_pure
    exact Piece.Layout.written (.classDecl start named sign entry close name above methods) written

/-- What is read as methods is laid out in the tokens it is read from. -/
theorem methods_takes : (depth : Nat) → {tokens : List Token} →
    Takes (methods depth) tokens fun found own =>
      Written (found.map fun method => .piece (.function method)) own
  | 0, _ => takes_fail _
  | depth + 1, tokens => by
    rw [methods]
    refine .bind (takes_atEndOfBody ?_)
    intro ended rest
    cases ended with
    | true => exact takes_pure .nil
    | false =>
      apply (function_takes depth _).then
      intro method own first rest
      apply (methods_takes depth).then
      intro others more last rest
      exact takes_pure (first.row last)

/-- What is read as a function is laid out in the tokens it is read from. -/
theorem function_takes : (depth : Nat) → (role : String) → {tokens : List Token} →
    Takes (function depth role) tokens fun decl own => Written [.piece (.function decl)] own
  | 0, _, _ => takes_fail _
  | depth + 1, role, tokens => by
    rw [function_succ]
    apply (takes_name _).then
    rintro ⟨name, named⟩ declared first rest
    apply (takes_symbol .leftParen _).then
    intro opening opened second rest
    have list : Takes (unlessAt .rightParen [] (parameters argumentLimit)) rest
        fun found own => WritesList (found.map .parameter) own :=
      takes_unlessAt .rightParen ⟨[], .none, .nil⟩
        ((parameters_takes argumentLimit).mono fun _ _ writes => writes.2)
    apply list.then
    rintro parameters given ⟨items, listed, third⟩ rest
    apply (takes_symbol .rightParen _).then
    intro closing ended fourth rest
    apply (takes_symbol .leftBrace _).then
    intro entry entered fifth rest
    apply (declarations_takes depth).then
    intro body inner sixth rest
    apply (takes_symbol .rightBrace _).then
    intro close closed last rest
    have inside := fifth.append (sixth.append (last.append .nil))
    have behind := third.append (fourth.append inside)
    have written := first.append (second.append behind)
    apply takes_pure
    exact Piece.Layout.written (.function name named opening closing entry close listed body)
      written

/-- What is read as declarations is laid out in the tokens it is read from. -/
theorem declarations_takes : (depth : Nat) → {tokens : List Token} →
    Takes (declarations depth) tokens WritesBody
  | 0, _ => takes_fail _
  | depth + 1, tokens => by
    rw [declarations]
    refine .bind (takes_atEndOfBody ?_)
    intro ended rest
    cases ended with
    | true => exact takes_pure .nil
    | false =>
      apply (declaration_takes depth).then
      intro stmt own first rest
      apply (declarations_takes depth).then
      intro others more last rest
      exact takes_pure (first.row last)

/-- What is read as a statement is laid out in the tokens it is read from. -/
theorem statement_takes : (depth : Nat) → {tokens : List Token} →
    Takes (statement depth) tokens WritesStmt
  | 0, _ => takes_fail _
  | depth + 1, tokens => by
    rw [statement]
    refine .peek ?_
    split
    case h_8 => exact expressionStatement_takes depth
    all_goals
      rename_i kind
      apply (takes_advance kind nofun).then
      intro start own begun rest
    · exact forStatement_takes depth begun
    · exact ifStatement_takes depth begun
    · exact printStatement_takes depth begun
    · exact returnStatement_takes depth begun
    · exact whileStatement_takes depth begun
    · exact breakStatement_takes begun
    · apply (declarations_takes depth).then
      intro body inner middle rest
      apply (takes_symbol .rightBrace _).then
      intro close closed last rest
      have written := begun.append (middle.append (last.append .nil))
      exact takes_pure (Piece.Layout.written (.block start close body) written)

/-- What is read as a `for` statement is laid out in the tokens it is read from. -/
theorem forStatement_takes : (depth : Nat) → {start : Span} → {tokens own : List Token} →
    Written [.word (.keyword .for) start] own →
    Takes (forStatement depth start) tokens fun stmt more => WritesStmt stmt (own ++ more)
  | 0, _, _, _, _ => takes_fail _
  | depth + 1, start, tokens, own, begun => by
    rw [forStatement_succ]
    apply (takes_symbol .leftParen _).then
    intro opening opened first rest
    apply (forInitializer_takes depth).then
    rintro initializer given ⟨absent, second⟩ rest
    apply (optional_takes depth .semicolon).then
    intro condition tested third rest
    apply (takes_symbol .semicolon _).then
    intro separator parted fourth rest
    apply (optional_takes depth .rightParen).then
    intro increment stepped fifth rest
    apply (takes_symbol .rightParen _).then
    intro closing closed sixth rest
    apply (statement_takes depth).then
    intro body round last rest
    let text : ForText :=
      ⟨start, opening, initializer, absent, condition, separator, increment, closing, body⟩
    have behind := fourth.append (fifth.append (sixth.append (last.append .nil)))
    have inside : Written text.items _ :=
      begun.append (first.append (second.append (third.append behind)))
    exact takes_pure inside.forText

/-- What is read as an `if` statement is laid out in the tokens it is read from. -/
theorem ifStatement_takes : (depth : Nat) → {start : Span} → {tokens own : List Token} →
    Written [.word (.keyword .if) start] own →
    Takes (ifStatement depth start) tokens fun stmt more => WritesStmt stmt (own ++ more)
  | 0, _, _, _, _ => takes_fail _
  | depth + 1, start, tokens, own, begun => by
    rw [ifStatement]
    apply (takes_symbol .leftParen _).then
    intro opening opened first rest
    apply (expression_takes depth).then
    intro condition tested second rest
    apply (takes_symbol .rightParen _).then
    intro closing closed third rest
    apply (statement_takes depth).then
    intro thenBranch before fourth rest
    refine .bind (takes_keyword? .else ?_ ?_)
    · intro between parted fifth rest
      apply (statement_takes depth).then
      intro elseBranch after last rest
      have behind := fourth.append (fifth.append (last.append .nil))
      have written := begun.append (first.append (second.append (third.append behind)))
      apply takes_pure
      exact Piece.Layout.written
        (.ifElse start opening closing between condition thenBranch elseBranch) written
    · intro rest
      have behind := second.append (third.append (fourth.append .nil))
      have written := begun.append (first.append behind)
      apply takes_pure
      exact Piece.Layout.written (.ifThen start opening closing condition thenBranch) written

/-- What is read as a `while` statement is laid out in the tokens it is read from. -/
theorem whileStatement_takes : (depth : Nat) → {start : Span} → {tokens own : List Token} →
    Written [.word (.keyword .while) start] own →
    Takes (whileStatement depth start) tokens fun stmt more => WritesStmt stmt (own ++ more)
  | 0, _, _, _, _ => takes_fail _
  | depth + 1, start, tokens, own, begun => by
    rw [whileStatement]
    apply (takes_symbol .leftParen _).then
    intro opening opened first rest
    apply (expression_takes depth).then
    intro condition tested second rest
    apply (takes_symbol .rightParen _).then
    intro closing closed third rest
    apply (statement_takes depth).then
    intro body round last rest
    have written := begun.append (first.append (second.append (third.append (last.append .nil))))
    exact takes_pure (Piece.Layout.written (.while start opening closing condition body) written)

end

/-- The statements of a program are written by the tokens that it is read from, up to a mark of the
end. -/
theorem program_takes :
    (depth : Nat) → {tokens : List Token} → Takes (program depth) tokens WritesBody
  | 0, _ => takes_fail _
  | depth + 1, tokens => by
    rw [program]
    refine .peek ?_
    split
    · exact takes_pure .nil
    · apply (declaration_takes depth).then
      intro stmt own first rest
      apply (program_takes depth).then
      intro others more last rest
      exact takes_pure (first.row last)

end EventScript.Parse
