import EventScript.Proofs.Syntax.ExprComplete

/-!
# What can be read is read: statements and whole programs

A statement is read where it stands if no `else` behind it would be drawn in, and a body up to the
brace that closes it. With the readers of all forms, `Phrase.Reads.complete` covers every phrase.
-/

namespace EventScript

namespace Parse

variable {words : List TokenKind} {tokens rest : List Token}

/-! ## Parts of statements -/

/-- With enough depth, the reader finds the expression that may be missing before the symbol. -/
def GivesOptional (words : List TokenKind) (value : Option Expr) : Prop :=
  ∀ ⦃symbol : Symbol⦄ ⦃tokens rest : List Token⦄ ⦃depth : Nat⦄,
    (TokenKind.symbol symbol).binding = 0 → (TokenKind.symbol symbol).opensExpression = false →
    Spells words tokens rest → (current rest).kind = .symbol symbol →
    32 * words.length + 16 ≤ depth →
    ∃ value', unlessAt symbol none (some <$> expression depth) tokens = .ok (value', rest) ∧
      Expr.bare? value' = Expr.bare? value

/-- An expression that is missing is found missing. -/
theorem givesOptional_none : GivesOptional [] none := by
  intro symbol tokens rest depth _ _ spells next _
  obtain rfl : tokens = rest := spells
  refine ⟨none, ?_, rfl⟩
  rw [unlessAt, bind_ok (at?_found next)]
  rfl

/-- An expression that is not missing is found. -/
theorem givesOptional_some {value : Expr} (gives : Gives words 1 16 expression value)
    (starts : StartsWith TokenKind.opensExpression words) : GivesOptional words (some value) := by
  intro symbol tokens rest depth unbound different spells next enough
  obtain ⟨value', found, same⟩ := gives spells (by rw [next, unbound]; decide) enough
  refine ⟨some value', ?_, by simp only [Expr.bare?, same]⟩
  rw [unlessAt, bind_ok (at?_other (spells.current_ne starts different))]
  exact bind_ok found

/-- With enough depth, the reader finds the declaration of a variable. -/
def GivesLet (words : List TokenKind) (stmt : Stmt) : Prop :=
  ∀ ⦃tokens rest : List Token⦄ ⦃depth : Nat⦄, Spells words tokens rest →
    32 * words.length ≤ depth →
    ∃ token after stmt', tokens = token :: after ∧ token.kind = .keyword .let ∧
      letStatement depth token.span after = .ok (stmt', rest) ∧ stmt'.bare = stmt.bare

/-- A variable without a value is found. -/
theorem givesLet_bare {span : Span} {name : String} :
    GivesLet [.keyword .let, .identifier name, .symbol .semicolon] (.letDecl span name none) := by
  intro tokens rest depth spells _
  obtain ⟨start, _, rfl, begins, named, _, rfl, names, last, after, rfl, ends, rfl⟩ := spells
  refine ⟨start, _, .letDecl (start.span.upTo last.span) name none, rfl, begins, ?_, rfl⟩
  have noSign : (current (last :: after)).kind ≠ .symbol .assign := by
    rw [current_cons, ends]
    nofun
  rw [letStatement_eq, bind_ok (name_found names)]
  simp only [afterSymbol, bind_bind]
  rw [bind_ok (symbol?_other noSign)]
  simp only [Option.isSome_none, Bool.false_eq_true, if_false]
  rw [bind_ok (pure_eq none _), bind_ok (symbol_found ends)]
  rfl

/-- A variable with a value is found. -/
theorem givesLet_value {span : Span} {name : String} {value : Expr}
    (gives : Gives words 1 16 expression value) :
    GivesLet (.keyword .let :: .identifier name :: .symbol .assign ::
      (words ++ [.symbol .semicolon]))
      (.letDecl span name (some value)) := by
  intro tokens rest depth spells enough
  obtain ⟨start, _, rfl, begins, named, _, rfl, names, sign, _, rfl, signs, spells⟩ := spells
  obtain ⟨_, inside, last, after, rfl, ends, rfl⟩ := spells_append.mp spells
  simp only [List.length_append, List.length_cons, List.length_nil] at enough
  obtain ⟨value', found, same⟩ := gives inside (by rw [current_cons, ends]; decide)
    (show 32 * words.length + 16 ≤ depth by omega)
  refine ⟨start, _, .letDecl (start.span.upTo last.span) name (some value'), rfl, begins, ?_, ?_⟩
  · rw [letStatement_eq, bind_ok (name_found names)]
    simp only [afterSymbol, bind_bind]
    rw [bind_ok (symbol?_found signs)]
    simp only [Option.isSome_some, if_true]
    have whole : (some <$> expression depth) _ = .ok (some value', last :: after) := bind_ok found
    rw [bind_ok whole, bind_ok (symbol_found ends)]
    rfl
  · simp only [Stmt.bare, Expr.bare?, same]

/-- An expression with its semicolon. -/
theorem expressionStatement_found {value : Expr} {depth : Nat}
    (gives : Gives words 1 16 expression value)
    (spells : Spells (words ++ [.symbol .semicolon]) tokens rest)
    (enough : 32 * words.length + 16 ≤ depth) (span : Span) :
    ∃ stmt, expressionStatement depth tokens = .ok (stmt, rest) ∧
      stmt.bare = (Stmt.expression span value).bare := by
  obtain ⟨_, inside, last, after, rfl, ends, rfl⟩ := spells_append.mp spells
  obtain ⟨value', found, same⟩ := gives inside (by rw [current_cons, ends]; decide) enough
  refine ⟨.expression (value'.span.upTo last.span) value', ?_, by simp only [Stmt.bare, same]⟩
  rw [expressionStatement, bind_ok found, bind_ok (symbol_found ends)]
  rfl

/-- With enough depth, the reader finds the first clause of a `for` statement. -/
def GivesClause (words : List TokenKind) (initializer : Option Stmt) : Prop :=
  ∀ ⦃tokens rest : List Token⦄ ⦃depth : Nat⦄, Spells words tokens rest →
    32 * words.length ≤ depth →
    ∃ initializer', forInitializer depth tokens = .ok (initializer', rest) ∧
      Stmt.bare? initializer' = Stmt.bare? initializer

/-- An initializer that is missing is found missing. -/
theorem givesClause_none : GivesClause [.symbol .semicolon] none := by
  intro tokens rest depth spells _
  obtain ⟨last, after, rfl, ends, rfl⟩ := spells
  refine ⟨none, ?_, rfl⟩
  rw [forInitializer, bind_ok (symbol?_found ends)]
  rfl

/-- A variable is found as an initializer. -/
theorem givesClause_let {stmt : Stmt} (gives : GivesLet words stmt) :
    GivesClause words (some stmt) := by
  intro tokens rest depth spells enough
  obtain ⟨start, after, stmt', rfl, begins, found, same⟩ := gives spells enough
  refine ⟨some stmt', ?_, by simp only [Stmt.bare?, same]⟩
  have noSemicolon : (current (start :: after)).kind ≠ .symbol .semicolon := by
    rw [current_cons, begins]
    exact TokenKind.noConfusion
  rw [forInitializer, bind_ok (symbol?_other noSemicolon)]
  simp only [Option.isSome_none, Bool.false_eq_true, if_false]
  rw [bind_ok (keyword?_found begins)]
  exact bind_ok found

/-- An expression is found as an initializer. -/
theorem givesClause_expression {span : Span} {value : Expr}
    (gives : Gives words 1 16 expression value)
    (starts : StartsWith TokenKind.opensExpression words) :
    GivesClause (words ++ [.symbol .semicolon]) (some (.expression span value)) := by
  intro tokens rest depth spells enough
  simp only [List.length_append, List.length_cons, List.length_nil] at enough
  obtain ⟨stmt, found, same⟩ := expressionStatement_found gives spells
    (show 32 * words.length + 16 ≤ depth by omega) span
  have starts := starts.append [.symbol .semicolon]
  refine ⟨some stmt, ?_, by simp only [Stmt.bare?, same]⟩
  rw [forInitializer, bind_ok (symbol?_other (spells.current_ne starts rfl))]
  simp only [Option.isSome_none, Bool.false_eq_true, if_false]
  rw [bind_ok (keyword?_other (spells.current_ne starts rfl))]
  exact bind_ok found

/-! ## Statements -/

/-- With enough depth, the reader finds the statement, unless an `else` follows an open one. -/
def GivesStmt (words : List TokenKind) (isOpen : Bool) (stmt : Stmt) : Prop :=
  ∀ ⦃tokens rest : List Token⦄ ⦃depth : Nat⦄, Spells words tokens rest →
    (isOpen = true → (current rest).kind ≠ .keyword .else) → 32 * words.length + 17 ≤ depth →
    ∃ stmt', statement depth tokens = .ok (stmt', rest) ∧ stmt'.bare = stmt.bare

/-- With enough depth, the reader finds the declarations of a body. -/
def GivesBody (words : List TokenKind) (body : List Stmt) : Prop :=
  ∀ ⦃tokens rest : List Token⦄ ⦃depth : Nat⦄, Spells words tokens rest →
    endsBody (current rest).kind = true → 32 * words.length + 19 ≤ depth →
    ∃ body', declarations depth tokens = .ok (body', rest) ∧ Stmt.bareAll body' = Stmt.bareAll body

/-- Where a word opens an expression, an expression statement is read. -/
theorem statement_of_expression {token : Token} {after : List Token} {depth : Nat}
    (opens : token.kind.opensExpression = true) :
    statement (depth + 1) (token :: after) = expressionStatement depth (token :: after) := by
  rw [statement, peek_bind, current_cons]
  cases kind : token.kind with
  | keyword keyword =>
    rw [kind] at opens
    cases keyword <;> first | rfl | contradiction
  | symbol symbol =>
    rw [kind] at opens
    cases symbol <;> first | rfl | contradiction
  | _ => rfl

/-- An expression statement is found. -/
theorem givesStmt_expression {span : Span} {value : Expr}
    (gives : Gives words 1 16 expression value)
    (starts : StartsWith TokenKind.opensExpression words) :
    GivesStmt (words ++ [.symbol .semicolon]) false (.expression span value) := by
  intro tokens rest depth spells _ enough
  obtain ⟨depth, rfl⟩ := exists_succ enough (by omega)
  simp only [List.length_append, List.length_cons, List.length_nil] at enough
  obtain ⟨stmt, found, same⟩ := expressionStatement_found gives spells
    (show 32 * words.length + 16 ≤ depth by omega) span
  obtain ⟨first, after, rfl, opens⟩ := spells.exists_first (starts.append [.symbol .semicolon])
  exact ⟨stmt, (statement_of_expression opens).trans found, same⟩

/-- A print statement is found. -/
theorem givesStmt_print {span : Span} {value : Expr} (gives : Gives words 1 16 expression value) :
    GivesStmt (.keyword .print :: (words ++ [.symbol .semicolon])) false (.print span value) := by
  intro tokens rest depth spells _ enough
  obtain ⟨depth, rfl⟩ := exists_succ enough (by omega)
  obtain ⟨start, _, rfl, begins, spells⟩ := spells
  obtain ⟨_, inside, last, after, rfl, ends, rfl⟩ := spells_append.mp spells
  simp only [List.length_append, List.length_cons, List.length_nil] at enough
  obtain ⟨value', found, same⟩ := gives inside (by rw [current_cons, ends]; decide)
    (show 32 * words.length + 16 ≤ depth by omega)
  refine ⟨.print (start.span.upTo last.span) value', ?_, by simp only [Stmt.bare, same]⟩
  rw [statement, peek_bind, current_cons, begins]
  simp only [advance_bind]
  rw [printStatement, bind_ok found, bind_ok (symbol_found ends)]
  rfl

/-- A return statement is found. -/
theorem givesStmt_return {span : Span} {value : Option Expr} (gives : GivesOptional words value) :
    GivesStmt (.keyword .return :: (words ++ [.symbol .semicolon])) false (.return span value) := by
  intro tokens rest depth spells _ enough
  obtain ⟨depth, rfl⟩ := exists_succ enough (by omega)
  obtain ⟨start, _, rfl, begins, spells⟩ := spells
  obtain ⟨_, inside, last, after, rfl, ends, rfl⟩ := spells_append.mp spells
  simp only [List.length_append, List.length_cons, List.length_nil] at enough
  obtain ⟨value', found, same⟩ := gives rfl rfl inside ends
    (show 32 * words.length + 16 ≤ depth by omega)
  refine ⟨.return (start.span.upTo last.span) value', ?_, by simp only [Stmt.bare, same]⟩
  rw [statement, peek_bind, current_cons, begins]
  simp only [advance_bind]
  rw [returnStatement_eq, bind_ok found, bind_ok (symbol_found ends)]
  rfl

/-- A break statement is found. -/
theorem givesStmt_break {span : Span} :
    GivesStmt [.keyword .break, .symbol .semicolon] false (.break span) := by
  intro tokens rest depth spells _ enough
  obtain ⟨depth, rfl⟩ := exists_succ enough (by omega)
  obtain ⟨start, _, rfl, begins, last, after, rfl, ends, rfl⟩ := spells
  refine ⟨.break (start.span.upTo last.span), ?_, rfl⟩
  rw [statement, peek_bind, current_cons, begins]
  simp only [advance_bind]
  rw [breakStatement, bind_ok (symbol_found ends)]
  rfl

/-- A block is found. -/
theorem givesStmt_block {span : Span} {body : List Stmt} (gives : GivesBody words body) :
    GivesStmt (.symbol .leftBrace :: (words ++ [.symbol .rightBrace])) false
      (.block span body) := by
  intro tokens rest depth spells _ enough
  obtain ⟨depth, rfl⟩ := exists_succ enough (by omega)
  obtain ⟨start, _, rfl, begins, spells⟩ := spells
  obtain ⟨_, inside, last, after, rfl, ends, rfl⟩ := spells_append.mp spells
  simp only [List.length_append, List.length_cons, List.length_nil] at enough
  obtain ⟨body', found, same⟩ := gives inside (by rw [current_cons, ends]; rfl)
    (show 32 * words.length + 19 ≤ depth by omega)
  refine ⟨.block (start.span.upTo last.span) body', ?_, by simp only [Stmt.bare, same]⟩
  rw [statement, peek_bind, current_cons, begins]
  simp only [advance_bind]
  rw [bind_ok found, bind_ok (symbol_found ends)]
  rfl

/-- A `while` statement is found. -/
theorem givesStmt_while {span : Span} {condition : Expr} {isOpen : Bool} {body : Stmt}
    {after : List TokenKind} (gives : Gives words 1 16 expression condition)
    (givesBody : GivesStmt after isOpen body) :
    GivesStmt (.keyword .while :: .symbol .leftParen :: (words ++ .symbol .rightParen :: after))
      isOpen
      (.while span condition body) := by
  intro tokens rest depth spells free enough
  obtain ⟨start, _, rfl, begins, opening, _, rfl, opens, spells⟩ := spells
  obtain ⟨_, inside, last, onward, rfl, ends, behind⟩ := spells_append.mp spells
  simp only [List.length_append, List.length_cons] at enough
  obtain ⟨depth, rfl⟩ := exists_succ enough (by omega)
  obtain ⟨depth, rfl⟩ := exists_succ (show 1 ≤ depth by omega) Nat.one_pos
  obtain ⟨condition', found, same⟩ := gives inside (by rw [current_cons, ends]; decide)
    (show 32 * words.length + 16 ≤ depth by omega)
  obtain ⟨body', second, sameBody⟩ := givesBody behind free
    (show 32 * after.length + 17 ≤ depth by omega)
  refine ⟨.while (start.span.upTo body'.span) condition' body', ?_,
    by simp only [Stmt.bare, same, sameBody]⟩
  rw [statement, peek_bind, current_cons, begins]
  simp only [advance_bind]
  rw [whileStatement, bind_ok (symbol_found opens), bind_ok found, bind_ok (symbol_found ends),
    bind_ok second]
  rfl

/-- A `for` statement is found. -/
theorem givesStmt_for {start separator : Span} {initializer : Option Stmt}
    {condition increment : Option Expr} {isOpen : Bool} {body : Stmt}
    {second third after : List TokenKind} (givesFirst : GivesClause words initializer)
    (givesSecond : GivesOptional second condition) (givesThird : GivesOptional third increment)
    (givesBody : GivesStmt after isOpen body) :
    GivesStmt (.keyword .for :: .symbol .leftParen :: (words ++ (second ++ .symbol .semicolon ::
      (third ++ .symbol .rightParen :: after)))) isOpen
      (forLoop start initializer condition separator increment body) := by
  intro tokens rest depth spells free enough
  obtain ⟨begin, _, rfl, begins, opening, _, rfl, opens, spells⟩ := spells
  obtain ⟨_, clause, spells⟩ := spells_append.mp spells
  obtain ⟨_, test, between, _, rfl, separates, spells⟩ := spells_append.mp spells
  obtain ⟨_, step, last, onward, rfl, ends, behind⟩ := spells_append.mp spells
  simp only [List.length_append, List.length_cons] at enough
  obtain ⟨depth, rfl⟩ := exists_succ enough (by omega)
  obtain ⟨depth, rfl⟩ := exists_succ (show 1 ≤ depth by omega) Nat.one_pos
  obtain ⟨initializer', foundFirst, sameFirst⟩ := givesFirst clause
    (show 32 * words.length ≤ depth by omega)
  obtain ⟨condition', foundSecond, sameSecond⟩ := givesSecond rfl rfl test separates
    (show 32 * second.length + 16 ≤ depth by omega)
  obtain ⟨increment', foundThird, sameThird⟩ := givesThird rfl rfl step ends
    (show 32 * third.length + 16 ≤ depth by omega)
  obtain ⟨body', foundBody, sameBody⟩ := givesBody behind free
    (show 32 * after.length + 17 ≤ depth by omega)
  refine ⟨forLoop begin.span initializer' condition' between.span increment' body', ?_,
    bare_forLoop sameFirst sameSecond sameThird sameBody⟩
  rw [statement, peek_bind, current_cons, begins]
  simp only [advance_bind]
  rw [forStatement_succ, bind_ok (symbol_found opens), bind_ok foundFirst, bind_ok foundSecond,
    bind_ok (symbol_found separates), bind_ok foundThird, bind_ok (symbol_found ends),
    bind_ok foundBody]
  rfl

/-- An `if` statement without an `else` is found. -/
theorem givesStmt_if {span : Span} {condition : Expr} {isOpen : Bool} {thenBranch : Stmt}
    {after : List TokenKind} (gives : Gives words 1 16 expression condition)
    (givesThen : GivesStmt after isOpen thenBranch) :
    GivesStmt (.keyword .if :: .symbol .leftParen :: (words ++ .symbol .rightParen :: after)) true
      (.conditional span condition thenBranch none) := by
  intro tokens rest depth spells free enough
  obtain ⟨start, _, rfl, begins, opening, _, rfl, opens, spells⟩ := spells
  obtain ⟨_, inside, last, onward, rfl, ends, behind⟩ := spells_append.mp spells
  simp only [List.length_append, List.length_cons] at enough
  obtain ⟨depth, rfl⟩ := exists_succ enough (by omega)
  obtain ⟨depth, rfl⟩ := exists_succ (show 1 ≤ depth by omega) Nat.one_pos
  obtain ⟨condition', found, same⟩ := gives inside (by rw [current_cons, ends]; decide)
    (show 32 * words.length + 16 ≤ depth by omega)
  obtain ⟨thenBranch', first, sameFirst⟩ := givesThen behind (fun _ => free rfl)
    (show 32 * after.length + 17 ≤ depth by omega)
  refine ⟨.conditional (start.span.upTo thenBranch'.span) condition' thenBranch' none, ?_,
    by simp only [Stmt.bare, Stmt.bare?, same, sameFirst]⟩
  rw [statement, peek_bind, current_cons, begins]
  simp only [advance_bind]
  rw [ifStatement, bind_ok (symbol_found opens), bind_ok found, bind_ok (symbol_found ends),
    bind_ok first, bind_ok (keyword?_other (free rfl))]
  rfl

/-- An `if` statement with an `else` is found. -/
theorem givesStmt_ifElse {span : Span} {condition : Expr} {isOpen : Bool}
    {thenBranch elseBranch : Stmt} {middle after : List TokenKind}
    (gives : Gives words 1 16 expression condition) (givesThen : GivesStmt middle false thenBranch)
    (givesElse : GivesStmt after isOpen elseBranch) :
    GivesStmt (.keyword .if :: .symbol .leftParen :: (words ++ .symbol .rightParen ::
      (middle ++ .keyword .else :: after))) isOpen
      (.conditional span condition thenBranch (some elseBranch)) := by
  intro tokens rest depth spells free enough
  obtain ⟨start, _, rfl, begins, opening, _, rfl, opens, spells⟩ := spells
  obtain ⟨_, inside, last, onward, rfl, ends, spells⟩ := spells_append.mp spells
  obtain ⟨_, between, sign, _, rfl, signs, behind⟩ := spells_append.mp spells
  simp only [List.length_append, List.length_cons] at enough
  obtain ⟨depth, rfl⟩ := exists_succ enough (by omega)
  obtain ⟨depth, rfl⟩ := exists_succ (show 1 ≤ depth by omega) Nat.one_pos
  obtain ⟨condition', found, same⟩ := gives inside (by rw [current_cons, ends]; decide)
    (show 32 * words.length + 16 ≤ depth by omega)
  obtain ⟨thenBranch', first, sameFirst⟩ := givesThen between nofun
    (show 32 * middle.length + 17 ≤ depth by omega)
  obtain ⟨elseBranch', second, sameSecond⟩ := givesElse behind free
    (show 32 * after.length + 17 ≤ depth by omega)
  refine ⟨.conditional (start.span.upTo elseBranch'.span) condition' thenBranch' (some elseBranch'),
    ?_, by simp only [Stmt.bare, Stmt.bare?, same, sameFirst, sameSecond]⟩
  rw [statement, peek_bind, current_cons, begins]
  simp only [advance_bind]
  rw [ifStatement, bind_ok (symbol_found opens), bind_ok found, bind_ok (symbol_found ends),
    bind_ok first, bind_ok (keyword?_found signs)]
  simp only []
  rw [bind_ok second]
  rfl

/-! ## Declarations -/

/-- With enough depth, the reader finds the declaration, unless an `else` follows it. -/
def GivesDecl (words : List TokenKind) (stmt : Stmt) : Prop :=
  ∀ ⦃tokens rest : List Token⦄ ⦃depth : Nat⦄, Spells words tokens rest →
    (current rest).kind ≠ .keyword .else → 32 * words.length + 18 ≤ depth →
    ∃ stmt', declaration depth tokens = .ok (stmt', rest) ∧ stmt'.bare = stmt.bare

/-- With enough depth, the reader finds the function. -/
def GivesFunction (words : List TokenKind) (decl : FunctionDecl) : Prop :=
  ∀ ⦃tokens rest : List Token⦄ ⦃depth : Nat⦄ ⦃role : String⦄, Spells words tokens rest →
    32 * words.length ≤ depth →
    ∃ decl', function depth role tokens = .ok (decl', rest) ∧ decl'.bare = decl.bare

/-- With enough depth, the reader finds the methods of a class. -/
def GivesMethods (words : List TokenKind) (decls : List FunctionDecl) : Prop :=
  ∀ ⦃tokens rest : List Token⦄ ⦃depth : Nat⦄, Spells words tokens rest →
    endsBody (current rest).kind = true → 32 * words.length + 19 ≤ depth →
    ∃ decls', methods depth tokens = .ok (decls', rest) ∧
      FunctionDecl.bareAll decls' = FunctionDecl.bareAll decls

/-- Parameters are found, if they are not more than allowed. -/
theorem parameters_found {parameter : Parameter} {others : List Parameter} {allowed : Nat}
    (spells : Spells (parameterWords (parameter :: others)) tokens rest)
    (ends : (current rest).kind = .symbol .rightParen)
    (few : (parameter :: others).length ≤ allowed) :
    ∃ found, parameters allowed tokens = .ok (found, rest) ∧
      found.map Parameter.bare = (parameter :: others).map Parameter.bare := by
  induction others generalizing parameter tokens allowed with
  | nil =>
    obtain ⟨named, _, rfl, names, rfl⟩ := spells
    obtain ⟨allowed, rfl⟩ := exists_succ few Nat.one_pos
    refine ⟨[⟨parameter.name, named.span⟩], ?_, rfl⟩
    rw [parameters, bind_ok (name_found names)]
    simp only []
    rw [bind_ok (symbol?_other (by rw [ends]; nofun))]
    rfl
  | cons next others ih =>
    obtain ⟨named, _, rfl, names, comma, after, rfl, commas, spells⟩ := spells
    obtain ⟨allowed, rfl⟩ := exists_succ few (Nat.succ_pos _)
    obtain ⟨found, onward, same⟩ := ih spells (Nat.le_of_succ_le_succ few)
    refine ⟨⟨parameter.name, named.span⟩ :: found, ?_, ?_⟩
    · rw [parameters, bind_ok (name_found names)]
      simp only []
      rw [bind_ok (symbol?_found commas)]
      simp only [Option.isSome_some, if_true]
      rw [bind_ok onward]
      rfl
    · rw [List.map_cons, same]
      rfl

/-- The parameters of a function before the bracket that closes them. -/
theorem parameterList_found {list : List Parameter}
    (spells : Spells (parameterWords list) tokens rest)
    (ends : (current rest).kind = .symbol .rightParen) (few : list.length ≤ argumentLimit) :
    ∃ found, unlessAt .rightParen [] (parameters argumentLimit) tokens = .ok (found, rest) ∧
      found.map Parameter.bare = list.map Parameter.bare := by
  cases list with
  | nil =>
    obtain rfl : tokens = rest := spells
    refine ⟨[], ?_, rfl⟩
    rw [unlessAt, bind_ok (at?_found ends)]
    rfl
  | cons parameter others =>
    obtain ⟨found, onward, same⟩ := parameters_found spells ends few
    have starts : StartsWith TokenKind.isIdentifier
        (parameterWords (parameter :: others)) := by
      cases others <;> exact ⟨_, _, rfl, rfl⟩
    refine ⟨found, ?_, same⟩
    rw [unlessAt, bind_ok (at?_other (spells.current_ne starts rfl))]
    exact onward

/-- A function is found. -/
theorem givesFunction {name : String} {list : List Parameter} {body : List Stmt} {span : Span}
    (few : list.length ≤ argumentLimit) (gives : GivesBody words body) :
    GivesFunction (.identifier name :: .symbol .leftParen :: (parameterWords list ++
      .symbol .rightParen :: .symbol .leftBrace :: (words ++ [.symbol .rightBrace])))
      ⟨name, list, body, span⟩ := by
  intro tokens rest depth role spells enough
  obtain ⟨start, _, rfl, names, opening, _, rfl, opens, spells⟩ := spells
  obtain ⟨_, listed, closing, _, rfl, closes, brace, _, rfl, begins, spells⟩ :=
    spells_append.mp spells
  obtain ⟨_, inside, last, after, rfl, ends, rfl⟩ := spells_append.mp spells
  simp only [List.length_append, List.length_cons, List.length_nil] at enough
  obtain ⟨depth, rfl⟩ := exists_succ enough (by omega)
  obtain ⟨list', first, sameList⟩ := parameterList_found listed closes few
  obtain ⟨body', found, same⟩ := gives inside (by rw [current_cons, ends]; rfl)
    (show 32 * words.length + 19 ≤ depth by omega)
  refine ⟨⟨name, list', body', start.span.upTo last.span⟩, ?_,
    by simp only [FunctionDecl.bare, sameList, same]⟩
  rw [function_succ, bind_ok (name_found names)]
  simp only []
  rw [bind_ok (symbol_found opens), bind_ok first, bind_ok (symbol_found closes),
    bind_ok (symbol_found begins), bind_ok found, bind_ok (symbol_found ends)]
  rfl

/-- A class without methods is found to have none. -/
theorem givesMethods_nil : GivesMethods [] [] := by
  intro tokens rest depth spells ends enough
  obtain rfl : tokens = rest := spells
  obtain ⟨depth, rfl⟩ := exists_succ enough (by omega)
  refine ⟨[], ?_, rfl⟩
  rw [methods, bind_ok (atEndOfBody_eq tokens), ends]
  rfl

/-- One more method before others is found. -/
theorem givesMethods_cons {decl : FunctionDecl} {others : List FunctionDecl}
    {after : List TokenKind}
    (gives : GivesFunction words decl) (starts : StartsWith TokenKind.isIdentifier words)
    (givesOthers : GivesMethods after others) : GivesMethods (words ++ after) (decl :: others) := by
  intro tokens rest depth spells ends enough
  have filled := starts.length_pos
  obtain ⟨middle, front, behind⟩ := spells_append.mp spells
  simp only [List.length_append] at enough
  obtain ⟨depth, rfl⟩ := exists_succ enough (by omega)
  obtain ⟨decl', found, same⟩ := @gives _ _ depth "method" front (by omega)
  obtain ⟨others', second, sameOthers⟩ := givesOthers behind ends
    (show 32 * after.length + 19 ≤ depth by omega)
  obtain ⟨first, onward, rfl, opens⟩ := front.exists_first starts
  have goesOn : endsBody (current (first :: onward)).kind = false := by
    rw [current_cons]
    cases kind : first.kind <;> rw [kind] at opens <;> first | rfl | contradiction
  refine ⟨decl' :: others', ?_, by simp only [FunctionDecl.bareAll, same, sameOthers]⟩
  rw [methods, bind_ok (atEndOfBody_eq _), goesOn]
  simp only [Bool.false_eq_true, if_false]
  rw [bind_ok found, bind_ok second]
  rfl

/-- The superclass of a class before the brace that opens its body. -/
theorem superclass_found {superclass : Option SuperclassName}
    (spells : Spells (superclassWords superclass) tokens rest)
    (opens : (current rest).kind = .symbol .leftBrace) :
    ∃ superclass', afterSymbol .less none superclassName tokens = .ok (superclass', rest) ∧
      superclass'.map SuperclassName.bare = superclass.map SuperclassName.bare := by
  cases superclass with
  | none =>
    obtain rfl : tokens = rest := spells
    refine ⟨none, ?_, rfl⟩
    rw [afterSymbol, bind_ok (symbol?_other (by rw [opens]; simp))]
    rfl
  | some superclass =>
    obtain ⟨sign, _, rfl, signs, parent, _, rfl, parents, rfl⟩ := spells
    refine ⟨some ⟨superclass.name, parent.span⟩, ?_, rfl⟩
    rw [afterSymbol, bind_ok (symbol?_found signs)]
    simp only [Option.isSome_some, if_true]
    rw [superclassName, bind_ok (name_found parents)]
    rfl

/-- A class declaration is found. -/
theorem givesDecl_class {span : Span} {name : String} {superclass : Option SuperclassName}
    {decls : List FunctionDecl} (gives : GivesMethods words decls) :
    GivesDecl (.keyword .classWord :: .identifier name :: (superclassWords superclass ++
      .symbol .leftBrace :: (words ++ [.symbol .rightBrace])))
        (.classDecl span name superclass decls) := by
  intro tokens rest depth spells _ enough
  obtain ⟨start, _, rfl, begins, named, _, rfl, names, spells⟩ := spells
  obtain ⟨onward, below, opening, _, rfl, opens, spells⟩ := spells_append.mp spells
  obtain ⟨_, inside, last, after, rfl, ends, rfl⟩ := spells_append.mp spells
  simp only [List.length_append, List.length_cons, List.length_nil] at enough
  obtain ⟨depth, rfl⟩ := exists_succ enough (by omega)
  obtain ⟨depth, rfl⟩ := exists_succ (show 1 ≤ depth by omega) Nat.one_pos
  obtain ⟨decls', found, same⟩ := gives inside (by rw [current_cons, ends]; rfl)
    (show 32 * words.length + 19 ≤ depth by omega)
  obtain ⟨superclass', first, sameSuperclass⟩ := superclass_found below opens
  refine ⟨.classDecl (start.span.upTo last.span) name superclass' decls', ?_,
    by simp only [Stmt.bare, sameSuperclass, same]⟩
  rw [declaration, peek_bind, current_cons, begins]
  simp only [advance_bind]
  rw [classDeclaration_succ, bind_ok (name_found names)]
  simp only []
  rw [bind_ok first, bind_ok (symbol_found opens), bind_ok found, bind_ok (symbol_found ends)]
  rfl

/-- A function declaration is found. -/
theorem givesDecl_function {span : Span} {decl : FunctionDecl} (gives : GivesFunction words decl) :
    GivesDecl (.keyword .fun :: words) (.function span decl) := by
  intro tokens rest depth spells _ enough
  obtain ⟨start, after, rfl, begins, spells⟩ := spells
  rw [List.length_cons] at enough
  obtain ⟨depth, rfl⟩ := exists_succ enough (by omega)
  obtain ⟨decl', found, same⟩ := @gives _ _ depth "function" spells (by omega)
  refine ⟨.function (start.span.upTo decl'.span) decl', ?_, by simp only [Stmt.bare, same]⟩
  rw [declaration, peek_bind, current_cons, begins]
  simp only [advance_bind]
  rw [bind_ok found]
  rfl

/-- A variable is found as a declaration. -/
theorem givesDecl_let {stmt : Stmt} (gives : GivesLet words stmt) : GivesDecl words stmt := by
  intro tokens rest depth spells _ enough
  obtain ⟨depth, rfl⟩ := exists_succ enough (by omega)
  obtain ⟨start, after, stmt', rfl, begins, found, same⟩ := gives spells
    (show 32 * words.length ≤ depth by omega)
  refine ⟨stmt', ?_, same⟩
  rw [declaration, peek_bind, current_cons, begins]
  exact found

/-- Where a word opens a statement, a statement is read. -/
theorem declaration_of_statement {token : Token} {after : List Token} {depth : Nat}
    (opens : (token.kind.opensExpression || token.kind.opensStatement) = true) :
    declaration (depth + 1) (token :: after) = statement depth (token :: after) := by
  rw [declaration, peek_bind, current_cons]
  cases kind : token.kind with
  | keyword keyword =>
    rw [kind] at opens
    cases keyword <;> first | rfl | contradiction
  | _ => rfl

/-- A statement is found as a declaration. -/
theorem givesDecl_statement {isOpen : Bool} {stmt : Stmt} (gives : GivesStmt words isOpen stmt)
    (starts : StartsWith (fun kind => kind.opensExpression || kind.opensStatement) words) :
    GivesDecl words stmt := by
  intro tokens rest depth spells free enough
  obtain ⟨depth, rfl⟩ := exists_succ enough (by omega)
  obtain ⟨stmt', found, same⟩ := gives spells (fun _ => free)
    (show 32 * words.length + 17 ≤ depth by omega)
  obtain ⟨first, after, rfl, opens⟩ := spells.exists_first starts
  exact ⟨stmt', (declaration_of_statement opens).trans found, same⟩

/-- An empty body is found to be empty. -/
theorem givesBody_nil : GivesBody [] [] := by
  intro tokens rest depth spells ends enough
  obtain rfl : tokens = rest := spells
  obtain ⟨depth, rfl⟩ := exists_succ enough (by omega)
  refine ⟨[], ?_, rfl⟩
  rw [declarations, bind_ok (atEndOfBody_eq tokens), ends]
  rfl

/-- No declaration starts with a word at which bodies end. -/
theorem endsBody_eq_false {kind : TokenKind} (opens : kind.opens = true) :
    endsBody kind = false := by
  cases kind with
  | symbol symbol => cases symbol <;> first | rfl | contradiction
  | endOfInput => contradiction
  | _ => rfl

/-- One more declaration before others is found. -/
theorem givesBody_cons {stmt : Stmt} {others : List Stmt} {after : List TokenKind}
    (gives : GivesDecl words stmt) (starts : StartsWith TokenKind.opens words)
    (givesOthers : GivesBody after others)
    (onward : after = [] ∨ StartsWith TokenKind.opens after) :
    GivesBody (words ++ after) (stmt :: others) := by
  intro tokens rest depth spells ends enough
  have filled := starts.length_pos
  obtain ⟨middle, front, behind⟩ := spells_append.mp spells
  simp only [List.length_append] at enough
  obtain ⟨depth, rfl⟩ := exists_succ enough (by omega)
  -- neither the brace behind the body nor another declaration is an `else`
  have free : (current middle).kind ≠ .keyword .else := by
    rcases onward with rfl | starts
    · obtain rfl : middle = rest := behind
      intro same
      rw [same] at ends
      contradiction
    · exact behind.current_ne starts rfl
  obtain ⟨stmt', found, same⟩ := gives front free (show 32 * words.length + 18 ≤ depth by omega)
  obtain ⟨others', second, sameOthers⟩ := givesOthers behind ends
    (show 32 * after.length + 19 ≤ depth by omega)
  obtain ⟨first, onward, rfl, opens⟩ := front.exists_first starts
  refine ⟨stmt' :: others', ?_, by simp only [Stmt.bareAll, same, sameOthers]⟩
  rw [declarations, bind_ok (atEndOfBody_eq _), current_cons, endsBody_eq_false opens]
  simp only [Bool.false_eq_true, if_false]
  rw [bind_ok found, bind_ok second]
  rfl

end Parse

/-! ## All phrases -/

namespace Phrase

open Parse

/-- The reader of the phrase finds it where the words stand. -/
def Complete : Phrase → List TokenKind → Prop
  | .primary value, words => Gives words 9 1 Parse.primary value
  | .call value, words => Enters words 9 2 Parse.call applied value
  | .unary value, words => Gives words 8 3 Parse.unary value
  | .operand strength value, words => GivesOperand words strength value
  | .level strength value, words => EntersLevel words strength value
  | .expression value, words => Gives words 1 16 Parse.expression value
  | .arguments [], words => words = []
  | .arguments (value :: others), words => GivesSome words (value :: others)
  | .optional value, words => GivesOptional words value
  | .letDecl stmt, words => GivesLet words stmt
  | .clause initializer, words => GivesClause words initializer
  | .statement isOpen stmt, words => GivesStmt words isOpen stmt
  | .declaration stmt, words => GivesDecl words stmt
  | .declarations body, words => GivesBody words body
  | .function decl, words => GivesFunction words decl
  | .methods decls, words => GivesMethods words decls

/-- A body that is not empty starts with a word that opens a declaration. -/
theorem Reads.starts_declarations {body : List Stmt} {words : List TokenKind}
    (reads : Reads (.declarations body) words) : words = [] ∨ StartsWith TokenKind.opens words := by
  cases reads with
  | noDeclarations => exact .inl rfl
  | moreDeclarations head => exact .inr (StartsWith.append head.opened _)

/-- What a phrase is read from the reader finds it in. -/
theorem Reads.complete {phrase : Phrase} {words : List TokenKind} (reads : phrase.Reads words) :
    phrase.Complete words := by
  induction reads with
  | super => exact gives_super
  | group _ ih => exact gives_group ih
  | atom alone => exact gives_atom alone
  | primary _ ih => exact enters_primary ih
  | @applied _ _ arguments _ _ _ tail few ihHead ihTail =>
    cases arguments with
    | nil => exact enters_applied ihHead (ihTail ▸ givesList_nil) few
    | cons value others => exact enters_applied ihHead (ihTail.givesList tail.opened) few
  | get _ ih => exact enters_get ih
  | call reads ih => exact gives_call (Enters.gives_call ih) reads.opened
  | prefixed sign _ ih => exact gives_prefixed sign ih
  | tightest last _ ih => exact gives_tightest last ih
  | tighter next _ ih => exact gives_tighter next ih
  | operand _ ih => exact enters_operand ih
  | joined _ sign _ head tail => exact enters_joined head sign tail
  | level _ ih => exact gives_level ih
  | assign _ ih => exact gives_assign ih
  | set head _ ihHead ihTail => exact gives_set ihHead head.opened ihTail
  | noArguments => rfl
  | argument _ ih => exact givesSome_argument ih
  | moreArguments _ _ head tail => exact givesSome_more head tail
  | absent => exact givesOptional_none
  | present reads ih => exact givesOptional_some ih reads.opened
  | letBare => exact givesLet_bare
  | letValue _ ih => exact givesLet_value ih
  | noClause => exact givesClause_none
  | letClause _ ih => exact givesClause_let ih
  | expressionClause reads ih => exact givesClause_expression ih reads.opened
  | expression reads ih => exact givesStmt_expression ih reads.opened
  | print _ ih => exact givesStmt_print ih
  | «return» _ ih => exact givesStmt_return ih
  | «break» => exact givesStmt_break
  | block _ ih => exact givesStmt_block ih
  | «while» _ _ head tail => exact givesStmt_while head tail
  | «for» _ _ _ _ first second third tail => exact givesStmt_for first second third tail
  | «if» _ _ head tail => exact givesStmt_if head tail
  | ifElse _ _ _ head first second => exact givesStmt_ifElse head first second
  | classDecl _ ih => exact givesDecl_class ih
  | funDecl _ ih => exact givesDecl_function ih
  | letDecl _ ih => exact givesDecl_let ih
  | statement reads ih => exact givesDecl_statement ih reads.opened
  | noDeclarations => exact givesBody_nil
  | moreDeclarations head tail ihHead ihTail =>
    exact givesBody_cons ihHead head.opened ihTail tail.starts_declarations
  | function few _ ih => exact givesFunction few ih
  | noMethods => exact givesMethods_nil
  | moreMethods head _ ihHead ihTail => exact givesMethods_cons ihHead head.opened ihTail

/-- A whole program is read up to the mark of the end. -/
theorem Reads.program_found {body : List Stmt} {words : List TokenKind}
    (reads : Reads (.declarations body) words) {tokens rest : List Token}
    (spells : Spells words tokens rest) (mark : (current rest).kind = .endOfInput) {depth : Nat}
    (enough : 32 * words.length + 20 ≤ depth) :
    ∃ found, Parse.program depth tokens = .ok (found, rest) ∧
    Stmt.bareAll found = Stmt.bareAll body := by
  induction body generalizing words tokens depth with
  | nil =>
    cases reads
    obtain rfl : tokens = rest := spells
    obtain ⟨depth, rfl⟩ := exists_succ enough (by omega)
    refine ⟨[], ?_, rfl⟩
    rw [Parse.program, peek_bind, mark]
    rfl
  | cons stmt others ih =>
    cases reads with
    | @moreDeclarations _ _ before after head tail =>
      have starts : StartsWith TokenKind.opens before := head.opened
      have filled := starts.length_pos
      obtain ⟨middle, front, behind⟩ := spells_append.mp spells
      rw [List.length_append] at enough
      obtain ⟨depth, rfl⟩ := exists_succ enough (by omega)
      -- Only what follows a statement that is left open may be an `else`, and here nothing does.
      have free : (current middle).kind ≠ .keyword .else := by
        rcases tail.starts_declarations with rfl | onward
        · obtain rfl : middle = rest := behind
          rw [mark]
          nofun
        · exact behind.current_ne onward rfl
      obtain ⟨stmt', found, same⟩ := head.complete front free
        (show 32 * before.length + 18 ≤ depth by omega)
      obtain ⟨others', second, sameOthers⟩ := ih tail behind
        (show 32 * after.length + 20 ≤ depth by omega)
      obtain ⟨first, onward, rfl, opens⟩ := front.exists_first starts
      refine ⟨stmt' :: others', ?_, by simp only [Stmt.bareAll, same, sameOthers]⟩
      have word : first.kind ≠ .endOfInput := by
        intro ends
        rw [ends] at opens
        contradiction
      rw [Parse.program, peek_bind, current_cons]
      cases kind : first.kind with
      | endOfInput => exact absurd kind word
      | _ =>
        simp only []
        rw [bind_ok found, bind_ok second]
        rfl

end Phrase

end EventScript
