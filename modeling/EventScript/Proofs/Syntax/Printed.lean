import EventScript.Proofs.Syntax.Phrase

/-!
# The words of trees

`Expr.words` and its companions write a tree as words, with no brackets but those of its own groups.
An expression is written as it was read. A statement need not be: a `for` statement is written as
the loop that it means, which may close what was open, but never opens what was closed. So each
phrase can be read from the words of its tree again.
-/

namespace EventScript

/-- The symbol of an operator on two values. -/
def BinaryOp.symbol : BinaryOp → Symbol
  | .add => .plus
  | .subtract => .minus
  | .multiply => .star
  | .divide => .slash
  | .equal => .equalEqual
  | .notEqual => .bangEqual
  | .less => .less
  | .lessEqual => .lessEqual
  | .greater => .greater
  | .greaterEqual => .greaterEqual

/-- The word of an operator that may leave its right operand unevaluated. -/
def LogicalOp.keyword : LogicalOp → Keyword
  | .and => .and
  | .or => .or

/-- The symbol of an operator on one value. -/
def UnaryOp.symbol : UnaryOp → Symbol
  | .negate => .minus
  | .not => .bang

/-- The word of a literal. -/
def Literal.word : Literal → TokenKind
  | .number value => .number value
  | .text value => .text value
  | .bool true => .keyword .true
  | .bool false => .keyword .false
  | .nil => .keyword .nil

mutual

/-- The words of an expression. -/
def Expr.words : Expr → List TokenKind
  | .literal _ value => [value.word]
  | .variable _ name => [.identifier name]
  | .assign _ name value => .identifier name :: .symbol .assign :: value.words
  | .binary _ op left right => left.words ++ .symbol op.symbol :: right.words
  | .logical _ op left right => left.words ++ .keyword op.keyword :: right.words
  | .unary _ op operand => .symbol op.symbol :: operand.words
  | .call _ callee arguments =>
    callee.words ++ .symbol .leftParen :: (Expr.listWords arguments ++ [.symbol .rightParen])
  | .get _ object name => object.words ++ [.symbol .dot, .identifier name]
  | .set _ object name value =>
    object.words ++ .symbol .dot :: .identifier name :: .symbol .assign :: value.words
  | .group _ inner => .symbol .leftParen :: (inner.words ++ [.symbol .rightParen])
  | .this _ => [.keyword .this]
  | .super _ method => [.keyword .super, .symbol .dot, .identifier method]

/-- The words of expressions with commas between them. -/
def Expr.listWords : List Expr → List TokenKind
  | [] => []
  | [value] => value.words
  | value :: next :: others => value.words ++ .symbol .comma :: Expr.listWords (next :: others)

end

/-- The words of an expression that may be missing. -/
def Expr.optionalWords : Option Expr → List TokenKind
  | none => []
  | some value => value.words

mutual

/-- The words of a statement. -/
def Stmt.words : Stmt → List TokenKind
  | .letDecl _ name none => [.keyword .let, .identifier name, .symbol .semicolon]
  | .letDecl _ name (some value) =>
    .keyword .let :: .identifier name :: .symbol .assign :: (value.words ++ [.symbol .semicolon])
  | .function _ decl => .keyword .fun :: decl.words
  | .classDecl _ name superclass methods =>
    .keyword .classWord :: .identifier name :: (superclassWords superclass ++
      .symbol .leftBrace :: (FunctionDecl.listWords methods ++ [.symbol .rightBrace]))
  | .expression _ value => value.words ++ [.symbol .semicolon]
  | .print _ value => .keyword .print :: (value.words ++ [.symbol .semicolon])
  | .block _ body => .symbol .leftBrace :: (Stmt.listWords body ++ [.symbol .rightBrace])
  | .conditional _ condition thenBranch none =>
    .keyword .if :: .symbol .leftParen ::
      (condition.words ++ .symbol .rightParen :: thenBranch.words)
  | .conditional _ condition thenBranch (some elseBranch) =>
    .keyword .if :: .symbol .leftParen :: (condition.words ++ .symbol .rightParen ::
      (thenBranch.words ++ .keyword .else :: elseBranch.words))
  | .while _ condition body =>
    .keyword .while :: .symbol .leftParen :: (condition.words ++ .symbol .rightParen :: body.words)
  | .return _ value => .keyword .return :: (Expr.optionalWords value ++ [.symbol .semicolon])
  | .break _ => [.keyword .break, .symbol .semicolon]

/-- The words of statements one after another. -/
def Stmt.listWords : List Stmt → List TokenKind
  | [] => []
  | stmt :: others => stmt.words ++ Stmt.listWords others

/-- The words of a function declaration. -/
def FunctionDecl.words : FunctionDecl → List TokenKind
  | ⟨name, parameters, body, _⟩ =>
    .identifier name :: .symbol .leftParen :: (parameterWords parameters ++
      .symbol .rightParen :: .symbol .leftBrace :: (Stmt.listWords body ++ [.symbol .rightBrace]))

/-- The words of function declarations one after another. -/
def FunctionDecl.listWords : List FunctionDecl → List TokenKind
  | [] => []
  | decl :: others => decl.words ++ FunctionDecl.listWords others

end

/-- Whether the word is a reserved word or a symbol. -/
def TokenKind.isFixed : TokenKind → Bool
  | .keyword _ | .symbol _ => true
  | _ => false

/-- The words of a program. -/
def Program.words (program : Program) : List TokenKind := Stmt.listWords program

/-! ## Expressions are written as they were read -/

namespace Phrase

/-- The word of a sign that joins operands is the sign. -/
theorem word_of_connective? {strength : Parse.Level} {kind : TokenKind}
    {connective : Parse.Connective}
    (sign : strength.connective? kind = some connective) (left right : Expr) :
    (connective.join left right).words = left.words ++ kind :: right.words := by
  unfold Parse.Level.connective? at sign
  split at sign <;> first
    | contradiction
    | cases sign
      rw [Parse.Connective.join, Expr.words]
      rfl

/-- The word of a unary operator is its sign. -/
theorem word_of_unaryOp? {kind : TokenKind} {op : UnaryOp} (sign : Parse.unaryOp? kind = some op) :
    kind = .symbol op.symbol := by
  unfold Parse.unaryOp? at sign
  split at sign <;> first | contradiction | (cases sign; rfl)

/-- A word that is an expression alone is what the expression is written with. -/
theorem words_of_atom? {span : Span} {kind : TokenKind} {value : Expr}
    (alone : Parse.atom? span kind = some value) : value.words = [kind] := by
  unfold Parse.atom? at alone
  split at alone <;> first
    | contradiction
    | cases alone
      rw [Expr.words]
      done
    | cases alone
      rw [Expr.words]
      rfl

/-- The words of an expression phrase are those of its tree. -/
def Rewords : Phrase → List TokenKind → Prop
  | .primary value, words | .call value, words | .unary value, words | .operand _ value, words
  | .level _ value, words | .expression value, words => value.words = words
  | .arguments values, words => Expr.listWords values = words
  | .optional value, words => Expr.optionalWords value = words
  | .letDecl stmt, words => stmt.words = words
  | .clause (some stmt), words => stmt.words = words
  | _, _ => True

/-- What a phrase is read from can be written again. -/
theorem Reads.rewords {phrase : Phrase} {words : List TokenKind} (reads : phrase.Reads words) :
    phrase.Rewords words := by
  induction reads with
  | super => simp only [Rewords, Expr.words]
  | group _ ih =>
    simp only [Rewords] at ih ⊢
    rw [Expr.words, ih]
  | atom alone => exact words_of_atom? alone
  | primary _ ih | call _ ih | tightest _ _ ih | tighter _ _ ih | operand _ ih | level _ ih
  | present _ ih | letClause _ ih => exact ih
  | applied _ _ _ head tail =>
    simp only [Rewords] at head tail ⊢
    rw [Expr.words, head, tail]
  | get _ ih =>
    simp only [Rewords] at ih ⊢
    rw [Expr.words, ih]
  | prefixed sign _ ih =>
    simp only [Rewords] at ih ⊢
    rw [Expr.words, ih, word_of_unaryOp? sign]
  | joined _ sign _ head tail =>
    simp only [Rewords] at head tail ⊢
    rw [word_of_connective? sign, head, tail]
  | assign _ ih =>
    simp only [Rewords] at ih ⊢
    rw [Expr.words, ih]
  | set _ _ head tail =>
    simp only [Rewords] at head tail ⊢
    rw [Expr.words, head, tail]
  | noArguments => simp only [Rewords, Expr.listWords]
  | argument _ ih =>
    simp only [Rewords] at ih ⊢
    rw [Expr.listWords, ih]
  | moreArguments _ _ head tail =>
    simp only [Rewords] at head tail ⊢
    rw [Expr.listWords, head, tail]
  | absent => rfl
  | letBare => simp only [Rewords, Stmt.words]
  | letValue _ ih =>
    simp only [Rewords] at ih ⊢
    rw [Stmt.words, ih]
  | expressionClause _ ih =>
    simp only [Rewords] at ih ⊢
    rw [Stmt.words, ih]
  | _ => trivial

/-- An expression is written with the words that it is read from. -/
theorem Reads.words_eq {value : Expr} {words : List TokenKind}
    (reads : Reads (.expression value) words) :
    value.words = words :=
  reads.rewords

/-- An expression that may be missing is written with the words that it is read from. -/
theorem Reads.optionalWords_eq {value : Option Expr} {words : List TokenKind}
    (reads : Reads (.optional value) words) : Expr.optionalWords value = words :=
  reads.rewords

/-! ## Statements are read from their words again -/

variable {P : TokenKind → Prop}

/-- What holds of the words that were read holds of the words that are written. -/
def Hands (P : TokenKind → Prop) (read written : List TokenKind) : Prop :=
  (∀ kind ∈ read, P kind) → ∀ kind ∈ written, P kind

/-- What the first words hand on, both do. -/
theorem Hands.left {first written : List TokenKind} (hands : Hands P first written)
    (second : List TokenKind) : Hands P (first ++ second) written :=
  fun all => hands (List.forall_mem_append.mp all).1

/-- What the second words hand on, both do. -/
theorem Hands.right {second written : List TokenKind} (hands : Hands P second written)
    (first : List TokenKind) : Hands P (first ++ second) written :=
  fun all => hands (List.forall_mem_append.mp all).2

/-- A call is an expression. -/
theorem Reads.expression_of_call {value : Expr} {words : List TokenKind}
    (reads : Reads (.call value) words) :
    Reads (.expression value) words := by
  have factor : Reads (.level .factor value) words := .operand (.tightest rfl (.call reads))
  have term : Reads (.level .term value) words := .operand (.tighter rfl factor)
  have comparison : Reads (.level .comparison value) words := .operand (.tighter rfl term)
  have equality : Reads (.level .equality value) words := .operand (.tighter rfl comparison)
  have conjunction : Reads (.level .conjunction value) words := .operand (.tighter rfl equality)
  exact .level (.operand (.tighter rfl conjunction))

/-- The condition of a loop, which is true if it is missing. -/
theorem Reads.condition {condition : Option Expr} {words : List TokenKind} (separator : Span)
    (fixed : ∀ kind, kind.isFixed = true → P kind) (reads : Reads (.optional condition) words) :
    Reads (.expression (condition.getD (.literal separator (.bool true))))
      (condition.getD (.literal separator (.bool true))).words ∧
      Hands P words (condition.getD (.literal separator (.bool true))).words := by
  cases reads with
  | absent =>
    have alone : Reads (.primary (.literal separator (.bool true))) [.keyword .true] :=
      @Reads.atom separator _ _ rfl
    rw [Option.getD_none, Expr.words]
    refine ⟨(Reads.primary alone).expression_of_call, fun _ => ?_⟩
    exact List.forall_mem_singleton.mpr (fixed _ rfl)
  | present reads =>
    rw [Option.getD_some, reads.words_eq]
    exact ⟨reads, id⟩

/-- A phrase is read again from the words of its tree, and these have nothing new in them. -/
def Rereads (P : TokenKind → Prop) : Phrase → List TokenKind → Prop
  | .clause (some stmt), words => Reads (.declaration stmt) stmt.words ∧ Hands P words stmt.words
  | .statement isOpen stmt, words =>
    (∃ isOpen', (isOpen' = true → isOpen = true) ∧ Reads (.statement isOpen' stmt) stmt.words) ∧
      Hands P words stmt.words
  | .declaration stmt, words => Reads (.declaration stmt) stmt.words ∧ Hands P words stmt.words
  | .declarations body, words =>
    Reads (.declarations body) (Stmt.listWords body) ∧ Hands P words (Stmt.listWords body)
  | .function decl, words => Reads (.function decl) decl.words ∧ Hands P words decl.words
  | .methods decls, words =>
    Reads (.methods decls) (FunctionDecl.listWords decls) ∧
    Hands P words (FunctionDecl.listWords decls)
  | _, _ => True

/-- The body of the loop that a `for` statement means, with the step behind it. -/
def forRound (increment : Option Expr) (body : Stmt) : Stmt :=
  match increment with
  | some step => .block body.span [body, .expression step.span step]
  | none => body

/-- The loop that a `for` statement means, without its initializer. -/
def forWhile (start separator : Span) (condition increment : Option Expr) (body : Stmt) : Stmt :=
  .while (start.upTo body.span) (condition.getD (.literal separator (.bool true)))
    (forRound increment body)

/-- Without an initializer a `for` statement is a `while` statement. -/
theorem forLoop_none (start separator : Span) (condition increment : Option Expr) (body : Stmt) :
    Parse.forLoop start none condition separator increment body =
      forWhile start separator condition increment body := by
  cases increment <;> rfl

/-- With an initializer a `for` statement is a block around it and a `while` statement. -/
theorem forLoop_some (start separator : Span) (first : Stmt) (condition increment : Option Expr)
    (body : Stmt) :
    Parse.forLoop start (some first) condition separator increment body =
      .block (start.upTo body.span) [first, forWhile start separator condition increment body] := by
  cases increment <;> rfl

/-- A statement that is written as it was read. -/
theorem rereads_of_words {isOpen : Bool} {stmt : Stmt} {words : List TokenKind}
    (reads : Reads (.statement isOpen stmt) words) (same : stmt.words = words) :
    Rereads P (.statement isOpen stmt) words := by
  subst same
  exact ⟨⟨isOpen, id, reads⟩, id⟩

/-- Two statements one after another in a block of their own. -/
theorem reread_block {span : Span} {first second : Stmt} {words : List TokenKind}
    (fixed : ∀ kind, kind.isFixed = true → P kind) (head : Reads (.declaration first) first.words)
    (tail : Reads (.declaration second) second.words) (handsHead : Hands P words first.words)
    (handsTail : Hands P words second.words) :
    Rereads P (.statement false (.block span [first, second])) words := by
  have written : (Stmt.block span [first, second]).words =
      .symbol .leftBrace :: ((first.words ++ (second.words ++ [])) ++ [.symbol .rightBrace]) := by
    simp only [Stmt.words, Stmt.listWords]
  constructor
  · refine ⟨false, nofun, ?_⟩
    rw [written]
    exact .block (.moreDeclarations head (.moreDeclarations tail .noDeclarations))
  · intro all
    rw [written]
    simp only [List.forall_mem_cons, List.forall_mem_append]
    exact ⟨fixed _ rfl, ⟨handsHead all, handsTail all, nofun⟩, fixed _ rfl, nofun⟩

/-- The round of a loop can be read again from what it is written with. -/
theorem reread_round {isOpen : Bool} {body : Stmt} {increment : Option Expr}
    {third after : List TokenKind}
    (fixed : ∀ kind, kind.isFixed = true → P kind) (step : Reads (.optional increment) third)
    (tail : Rereads P (.statement isOpen body) after) :
    ∃ isOpen', (isOpen' = true → isOpen = true) ∧
      Rereads P (.statement isOpen' (forRound increment body)) (third ++ after) := by
  cases step with
  | absent => exact ⟨isOpen, id, tail⟩
  | @present value _ reads =>
    obtain ⟨⟨isOpen', -, again⟩, hands⟩ := tail
    have written : (Stmt.expression value.span value).words = third ++ [.symbol .semicolon] := by
      rw [Stmt.words, reads.words_eq]
    have stepAgain : Reads (.declaration (.expression value.span value))
        (Stmt.expression value.span value).words := by
      rw [written]
      exact .statement (.expression reads)
    have stepHands : Hands P third (Stmt.expression value.span value).words := by
      intro all
      rw [written]
      exact List.forall_mem_append.mpr ⟨all, List.forall_mem_singleton.mpr (fixed _ rfl)⟩
    exact ⟨false, nofun, reread_block fixed (.statement again) stepAgain (hands.right third)
      (stepHands.left after)⟩

/-- A `while` statement can be read again from what it is written with. -/
theorem reread_while {span : Span} {condition : Expr} {isOpen : Bool} {body : Stmt}
    {before after : List TokenKind} (fixed : ∀ kind, kind.isFixed = true → P kind)
    (head : Reads (.expression condition) condition.words) (test : Hands P before condition.words)
    (tail : Rereads P (.statement isOpen body) after) :
    Rereads P (.statement isOpen (.while span condition body)) (before ++ after) := by
  obtain ⟨⟨isOpen', opens, again⟩, hands⟩ := tail
  have written : (Stmt.while span condition body).words = .keyword .while :: .symbol .leftParen ::
      (condition.words ++ .symbol .rightParen :: body.words) := by
    rw [Stmt.words]
  constructor
  · refine ⟨isOpen', opens, ?_⟩
    rw [written]
    exact .while head again
  · intro all
    obtain ⟨inBefore, inAfter⟩ := List.forall_mem_append.mp all
    rw [written]
    simp only [List.forall_mem_cons, List.forall_mem_append]
    exact ⟨fixed _ rfl, fixed _ rfl, test inBefore, fixed _ rfl, hands inAfter⟩

/-- A `for` statement can be read again from what it is written with. -/
theorem reread_for {start separator : Span} {initializer : Option Stmt}
    {condition increment : Option Expr} {isOpen : Bool} {body : Stmt}
    {first second third after : List TokenKind} (fixed : ∀ kind, kind.isFixed = true → P kind)
    (clause : Rereads P (.clause initializer) first) (test : Reads (.optional condition) second)
    (step : Reads (.optional increment) third) (tail : Rereads P (.statement isOpen body) after) :
    ∃ isOpen', (isOpen' = true → isOpen = true) ∧ Rereads P
      (.statement isOpen' (Parse.forLoop start initializer condition separator increment body))
      (first ++ (second ++ (third ++ after))) := by
  obtain ⟨tested, handsTest⟩ := test.condition separator fixed
  obtain ⟨isOpen', opens, round⟩ := reread_round fixed step tail
  have loop : Rereads P (.statement isOpen' (forWhile start separator condition increment body))
      (second ++ (third ++ after)) :=
    reread_while fixed tested handsTest round
  cases initializer with
  | none =>
    rw [forLoop_none]
    exact ⟨isOpen', opens, loop.1, loop.2.right first⟩
  | some stmt =>
    rw [forLoop_some]
    obtain ⟨⟨_, -, again⟩, hands⟩ := loop
    obtain ⟨declared, handsFirst⟩ := clause
    exact ⟨false, nofun, reread_block fixed declared (.statement again) (handsFirst.left _)
      (hands.right first)⟩

/-- Every phrase is read again from the words of its tree. -/
theorem Reads.rereads {phrase : Phrase} {words : List TokenKind}
    (fixed : ∀ kind, kind.isFixed = true → P kind) (reads : phrase.Reads words) :
    phrase.Rereads P words := by
  -- Expressions come back as they are. A loop written with `for` comes back as what it stands for.
  induction reads with
  | letClause reads =>
    have same : _ = _ := reads.rewords
    exact ⟨.letDecl (same ▸ reads), same ▸ id⟩
  | @expressionClause span value words reads =>
    have same : (Stmt.expression span value).words = words ++ [.symbol .semicolon] := by
      rw [Stmt.words, reads.words_eq]
    refine ⟨?_, same ▸ id⟩
    rw [same]
    exact .statement (.expression reads)
  | expression reads =>
    exact rereads_of_words (.expression reads) (by rw [Stmt.words, reads.words_eq])
  | print reads => exact rereads_of_words (.print reads) (by rw [Stmt.words, reads.words_eq])
  | «return» reads =>
    exact rereads_of_words (.return reads) (by rw [Stmt.words, reads.optionalWords_eq])
  | «break» => exact rereads_of_words .break (by rw [Stmt.words])
  | block _ ih =>
    obtain ⟨again, hands⟩ := ih
    refine ⟨⟨false, nofun, ?_⟩, ?_⟩
    · rw [Stmt.words]
      exact .block again
    · intro all
      rw [Stmt.words]
      simp only [List.forall_mem_cons, List.forall_mem_append] at all ⊢
      exact ⟨all.1, hands all.2.1, all.2.2⟩
  | «while» head _ _ ih =>
    obtain rfl := head.words_eq
    obtain ⟨again, hands⟩ := reread_while fixed head id ih
    refine ⟨again, fun all => hands ?_⟩
    simp only [List.forall_mem_cons, List.forall_mem_append] at all ⊢
    exact ⟨all.2.2.1, all.2.2.2.2⟩
  | «for» _ test step _ ihClause _ _ ih =>
    obtain ⟨isOpen', opens, ⟨isOpen'', opens', again⟩, hands⟩ :=
      reread_for fixed ihClause test step ih
    refine ⟨⟨isOpen'', opens ∘ opens', again⟩, fun all => hands ?_⟩
    simp only [List.forall_mem_cons, List.forall_mem_append] at all ⊢
    exact ⟨all.2.2.1, all.2.2.2.1, all.2.2.2.2.2.1, all.2.2.2.2.2.2.2⟩
  | «if» head _ _ ih =>
    obtain ⟨⟨_, -, again⟩, hands⟩ := ih
    refine ⟨⟨true, fun _ => rfl, ?_⟩, ?_⟩
    · rw [Stmt.words, head.words_eq]
      exact .if head again
    · intro all
      rw [Stmt.words, head.words_eq]
      simp only [List.forall_mem_cons, List.forall_mem_append] at all ⊢
      exact ⟨all.1, all.2.1, all.2.2.1, all.2.2.2.1, hands all.2.2.2.2⟩
  | ifElse head _ _ _ ihFirst ihSecond =>
    obtain ⟨⟨isOpen, shut, first⟩, handsFirst⟩ := ihFirst
    obtain ⟨⟨isOpen', opens, second⟩, handsSecond⟩ := ihSecond
    obtain rfl : isOpen = false := Bool.eq_false_iff.mpr fun opens =>
      Bool.false_ne_true (shut opens)
    refine ⟨⟨isOpen', opens, ?_⟩, ?_⟩
    · rw [Stmt.words, head.words_eq]
      exact .ifElse head first second
    · intro all
      rw [Stmt.words, head.words_eq]
      simp only [List.forall_mem_cons, List.forall_mem_append] at all ⊢
      exact ⟨all.1, all.2.1, all.2.2.1, all.2.2.2.1, handsFirst all.2.2.2.2.1, all.2.2.2.2.2.1,
        handsSecond all.2.2.2.2.2.2⟩
  | classDecl _ ih =>
    obtain ⟨again, hands⟩ := ih
    refine ⟨?_, ?_⟩
    · rw [Stmt.words]
      exact .classDecl again
    · intro all
      rw [Stmt.words]
      simp only [List.forall_mem_cons, List.forall_mem_append] at all ⊢
      exact ⟨all.1, all.2.1, all.2.2.1, all.2.2.2.1, hands all.2.2.2.2.1, all.2.2.2.2.2⟩
  | funDecl _ ih =>
    obtain ⟨again, hands⟩ := ih
    refine ⟨?_, ?_⟩
    · rw [Stmt.words]
      exact .funDecl again
    · intro all
      rw [Stmt.words]
      obtain ⟨sign, inDecl⟩ := List.forall_mem_cons.mp all
      exact List.forall_mem_cons.mpr ⟨sign, hands inDecl⟩
  | letDecl reads =>
    have same : _ = _ := reads.rewords
    exact ⟨same ▸ .letDecl reads, same ▸ id⟩
  | statement _ ih =>
    obtain ⟨⟨_, -, again⟩, hands⟩ := ih
    exact ⟨.statement again, hands⟩
  | noDeclarations =>
    refine ⟨?_, ?_⟩ <;> rw [Stmt.listWords]
    · exact .noDeclarations
    · exact id
  | moreDeclarations _ _ ihHead ihTail =>
    obtain ⟨head, handsHead⟩ := ihHead
    obtain ⟨tail, handsTail⟩ := ihTail
    refine ⟨?_, ?_⟩
    · rw [Stmt.listWords]
      exact .moreDeclarations head tail
    · intro all
      rw [Stmt.listWords]
      obtain ⟨inHead, inTail⟩ := List.forall_mem_append.mp all
      exact List.forall_mem_append.mpr ⟨handsHead inHead, handsTail inTail⟩
  | function few _ ih =>
    obtain ⟨again, hands⟩ := ih
    refine ⟨?_, ?_⟩
    · rw [FunctionDecl.words]
      exact .function few again
    · intro all
      rw [FunctionDecl.words]
      simp only [List.forall_mem_cons, List.forall_mem_append] at all ⊢
      exact ⟨all.1, all.2.1, all.2.2.1, all.2.2.2.1, all.2.2.2.2.1, hands all.2.2.2.2.2.1,
        all.2.2.2.2.2.2⟩
  | noMethods =>
    refine ⟨?_, ?_⟩ <;> rw [FunctionDecl.listWords]
    · exact .noMethods
    · exact id
  | moreMethods _ _ ihHead ihTail =>
    obtain ⟨head, handsHead⟩ := ihHead
    obtain ⟨tail, handsTail⟩ := ihTail
    refine ⟨?_, ?_⟩
    · rw [FunctionDecl.listWords]
      exact .moreMethods head tail
    · intro all
      rw [FunctionDecl.listWords]
      obtain ⟨inHead, inTail⟩ := List.forall_mem_append.mp all
      exact List.forall_mem_append.mpr ⟨handsHead inHead, handsTail inTail⟩
  | _ => trivial

end Phrase

end EventScript
