import EventScript.Proofs.Syntax.Grammar
import EventScript.Proofs.Syntax.Phrase

/-!
# Phrases and derivations

The words of a phrase are those that the grammar derives. From a phrase to a derivation each rule of
`Phrase.Reads` is a step. The other way the grammar says less than the phrases do: it does not say
which `if` an `else` goes with. `Phrase.exists_attached` hands it on to the innermost `if` that can
take it, so there is a phrase for the words all the same.
-/

namespace EventScript

open Grammar Form

/-- The rule for the expressions of a level. -/
def Parse.Level.rule : Level → Nonterminal
  | disjunction => .logicOr
  | conjunction => .logicAnd
  | equality => .equality
  | comparison => .comparison
  | term => .term
  | factor => .factor

/-- The rule for what the operators of a level join. -/
def Parse.Level.operandRule : Level → Nonterminal
  | disjunction => .logicAnd
  | conjunction => .equality
  | equality => .comparison
  | comparison => .term
  | term => .factor
  | factor => .unary

/-- The operators of a level. -/
def Parse.Level.signs : Level → Form
  | disjunction => Form.keyword .or
  | conjunction => Form.keyword .and
  | equality => Form.symbol .bangEqual <|> Form.symbol .equalEqual
  | comparison => Form.symbol .greater <|> Form.symbol .greaterEqual <|> Form.symbol .less <|>
      Form.symbol .lessEqual
  | term => Form.symbol .minus <|> Form.symbol .plus
  | factor => Form.symbol .slash <|> Form.symbol .star

/-- The rule of each level has operands with operators between them. -/
theorem Parse.Level.production_rule (strength : Level) :
    production strength.rule =
      row [.rule strength.operandRule,
        .many (row [strength.signs, .rule strength.operandRule])] := by
  cases strength <;> rfl

/-- The operands of a level with a tighter one are those of the tighter one. -/
theorem Parse.Level.operandRule_of_tighter? {strength tighter : Level}
    (next : strength.tighter? = some tighter) : strength.operandRule = tighter.rule := by
  cases strength <;> first | (cases next; rfl) | contradiction

/-- The operands of the tightest level have signs before them at most. -/
theorem Parse.Level.operandRule_of_tightest {strength : Level} (last : strength.tighter? = none) :
    strength.operandRule = .unary := by
  cases strength <;> first | rfl | contradiction

namespace Grammar

variable {words before after : List TokenKind}

/-- A keyword derives itself. -/
theorem derives_keyword (keyword : Keyword) : Derives (.keyword keyword) [.keyword keyword] :=
  .terminal (.keyword keyword)

/-- A symbol derives itself. -/
theorem derives_symbol (symbol : Symbol) : Derives (.symbol symbol) [.symbol symbol] :=
  .terminal (.symbol symbol)

/-- Any name derives as an identifier. -/
theorem derives_identifier (name : String) : Derives .identifier [.identifier name] :=
  .terminal (.identifier name)

/-- The forms that a choice is between. -/
def Form.alternatives : Form → List Form
  | choice first second => first :: second.alternatives
  | form => [form]

/-- What one of the forms derives, a choice between them derives too. -/
theorem Derives.choose {form alternative : Form} (index : Nat)
    (same : form.alternatives[index]? = some alternative) (derives : Derives alternative words) :
    Derives form words := by
  induction form generalizing index with
  | choice first second _ ih =>
    cases index with
    | zero =>
      obtain rfl := Option.some.inj same
      exact .left derives
    | succ index => exact .right (ih index same)
  | _ =>
    obtain ⟨_, rfl⟩ := List.getElem?_eq_some_iff.mp same
    simpa [Form.alternatives] using derives

/-- One more piece behind what a rule with a repetition at its end derives. -/
theorem Derives.prolong {name : Nonterminal} {first piece : Form}
    (repeats : production name = row [first, .many piece]) (derives : Derives (.rule name) before)
    (last : Derives piece after) : Derives (.rule name) (before ++ after) := by
  cases derives with
  | rule derives =>
    rw [repeats] at derives
    cases derives with
    | @sequence _ _ head tail front behind =>
      refine .rule ?_
      rw [repeats, List.append_assoc]
      exact .sequence front (behind.snoc last)

/-- What a rule with a repetition at its end derives without the repetition. -/
theorem Derives.single {name : Nonterminal} {first piece : Form}
    (repeats : production name = row [first, .many piece]) (derives : Derives first words) :
    Derives (.rule name) words := by
  refine .rule ?_
  rw [repeats, ← List.append_nil words]
  exact .sequence derives .done

/-- The signs of a level are those that join its operands. -/
theorem derives_signs {strength : Parse.Level} {kind : TokenKind} {connective : Parse.Connective}
    (sign : strength.connective? kind = some connective) : Derives strength.signs [kind] := by
  unfold Parse.Level.connective? at sign
  split at sign
  · exact derives_keyword _
  · exact derives_keyword _
  · exact .right (derives_symbol _)
  · exact .left (derives_symbol _)
  · exact .choose 3 rfl (derives_symbol _)
  · exact .choose 1 rfl (derives_symbol _)
  · exact .choose 2 rfl (derives_symbol _)
  · exact .choose 0 rfl (derives_symbol _)
  · exact .right (derives_symbol _)
  · exact .left (derives_symbol _)
  · exact .right (derives_symbol _)
  · exact .left (derives_symbol _)
  · contradiction

/-- The signs of an operand are those of the unary operators. -/
theorem derives_of_unaryOp? {kind : TokenKind} {op : UnaryOp}
    (sign : Parse.unaryOp? kind = some op) :
    Derives (Form.symbol .bang <|> Form.symbol .minus) [kind] := by
  unfold Parse.unaryOp? at sign
  split at sign
  · exact .right (derives_symbol _)
  · exact .left (derives_symbol _)
  · contradiction

/-- A word that is an expression alone derives as one. -/
theorem derives_of_atom? {span : Span} {kind : TokenKind} {value : Expr}
    (alone : Parse.atom? span kind = some value) : Derives (.rule .primary) [kind] := by
  refine .rule ?_
  unfold Parse.atom? at alone
  split at alone
  · exact .choose 0 rfl (derives_keyword _)
  · exact .choose 1 rfl (derives_keyword _)
  · exact .choose 2 rfl (derives_keyword _)
  · exact .choose 3 rfl (derives_keyword _)
  · exact .choose 4 rfl (.terminal (.number _))
  · exact .choose 5 rfl (.terminal (.text _))
  · exact .choose 6 rfl (derives_identifier _)
  · contradiction

/-- An assignment is an expression. -/
theorem derives_expression (derives : Derives (.rule .assignment) words) :
    Derives (.rule .expression) words := .rule derives

/-- One piece is a list, however few there may be. -/
theorem derives_single {form : Form} (derives : Derives form words) (limit : Nat) :
    Derives (row [form, upTo limit (row [symbol .comma, form])]) words := by
  have all := derives.sequence (@Derives.doneUpTo (row [symbol .comma, form]) limit)
  rwa [List.append_nil] at all

/-- One more piece in front of a list. -/
theorem Derives.precede {form : Form} {limit : Nat}
    (derives : Derives (row [form, upTo limit (row [symbol .comma, form])]) after)
    (first : Derives form before) :
    Derives (row [form, upTo (limit + 1) (row [symbol .comma, form])])
      (before ++ .symbol .comma :: after) := by
  cases derives with
  | sequence head tail =>
    exact .sequence first (.againUpTo (.sequence (derives_symbol _) head) tail)

/-- A list of parameters is derived if it is not too long. -/
theorem derives_parameterWords {parameters : List Parameter}
    (few : parameters.length ≤ Parse.argumentLimit) :
    Derives (.optional (.rule .parameters)) (parameterWords parameters) := by
  have nonempty : ∀ (others : List Parameter) (first : Parameter) (limit : Nat),
      others.length ≤ limit →
      Derives (row [identifier, upTo limit (row [symbol .comma, identifier])])
        (parameterWords (first :: others)) := by
    intro others
    induction others with
    | nil => exact fun first limit _ => derives_single (derives_identifier _) limit
    | cons next others ih =>
      intro first limit fits
      cases limit with
      | zero => exact absurd fits (Nat.not_succ_le_zero _)
      | succ limit =>
        exact (ih next limit (Nat.le_of_succ_le_succ fits)).precede (derives_identifier _)
  cases parameters with
  | nil => exact .absent
  | cons first others =>
    have all := nonempty others first _ (Nat.le_of_succ_le_succ few)
    exact .present (.rule all)

end Grammar

namespace Phrase

/-- The grammar derives the words in the role of the phrase. -/
def Derived : Phrase → List TokenKind → Prop
  | .primary _, words => Derives (.rule .primary) words
  | .call _, words => Derives (.rule .call) words
  | .unary _, words => Derives (.rule .unary) words
  | .operand strength _, words => Derives (.rule strength.operandRule) words
  | .level strength _, words => Derives (.rule strength.rule) words
  | .expression _, words => Derives (.rule .assignment) words
  | .arguments [], words => words = []
  | .arguments (_ :: others), words => ∀ limit, others.length ≤ limit →
      Derives (row [.rule .expression, upTo limit (row [symbol .comma, .rule .expression])]) words
  | .optional _, words => Derives (.optional (.rule .expression)) words
  | .letDecl _, words => Derives (.rule .letDecl) words
  | .clause _, words => Derives (.rule .letDecl <|> .rule .exprStmt <|> symbol .semicolon) words
  | .statement _ _, words => Derives (.rule .statement) words
  | .declaration _, words => Derives (.rule .declaration) words
  | .declarations _, words => Derives (.many (.rule .declaration)) words
  | .function _, words => Derives (.rule .function) words
  | .methods _, words => Derives (.many (.rule .function)) words

/-- What a phrase is read from derives by the rules. -/
theorem Reads.derived {phrase : Phrase} {words : List TokenKind} (reads : phrase.Reads words) :
    phrase.Derived words := by
  induction reads with
  | @super _ name =>
    have method := (derives_symbol .dot).sequence (derives_identifier name)
    exact .rule (.choose 8 rfl ((derives_keyword .super).sequence method))
  | group _ ih =>
    have inside := (derives_expression ih).sequence (derives_symbol .rightParen)
    exact .rule (.choose 7 rfl ((derives_symbol .leftParen).sequence inside))
  | atom alone => exact derives_of_atom? alone
  | primary _ ih => exact Derives.single rfl ih
  | @applied _ _ arguments _ after _ _ few head tail =>
    have inside : Derives (.optional (.rule .arguments)) after := by
      cases arguments with
      | nil =>
        cases tail
        exact .absent
      | cons value others =>
        have all := tail _ (Nat.le_of_succ_le_succ few)
        exact .present (.rule all)
    have closed := inside.sequence (derives_symbol .rightParen)
    exact Derives.prolong rfl head (.left ((derives_symbol .leftParen).sequence closed))
  | @get _ _ name _ _ ih =>
    have piece := (derives_symbol .dot).sequence (derives_identifier name)
    exact Derives.prolong rfl ih (.right piece)
  | call _ ih => exact .rule <| .right ih
  | prefixed sign _ ih => exact .rule <| .left <| .sequence (derives_of_unaryOp? sign) ih
  | tightest last _ ih =>
    show Derives (.rule (Parse.Level.operandRule _)) _
    rw [Parse.Level.operandRule_of_tightest last]
    exact ih
  | tighter next _ ih =>
    show Derives (.rule (Parse.Level.operandRule _)) _
    rw [Parse.Level.operandRule_of_tighter? next]
    exact ih
  | operand _ ih => exact Derives.single (Parse.Level.production_rule _) ih
  | joined _ sign _ head tail =>
    exact Derives.prolong (Parse.Level.production_rule _) head (.sequence (derives_signs sign) tail)
  | level _ ih => exact .rule <| .right ih
  | assign _ ih =>
    have value := (derives_symbol .assign).sequence ih
    exact .rule (.left (.sequence .absent ((derives_identifier _).sequence value)))
  | @set _ _ name _ before after _ _ head tail =>
    have target := head.sequence (derives_symbol .dot)
    have value := (derives_symbol .assign).sequence tail
    have all := (Derives.present target).sequence ((derives_identifier name).sequence value)
    rw [List.append_assoc] at all
    exact .rule (.left all)
  | noArguments => rfl
  | argument _ ih => exact fun limit _ => derives_single (derives_expression ih) limit
  | moreArguments _ _ head tail =>
    intro limit fits
    cases limit with
    | zero => exact absurd fits (Nat.not_succ_le_zero _)
    | succ limit =>
      exact (tail limit (Nat.le_of_succ_le_succ fits)).precede (derives_expression head)
  | absent => exact .absent
  | present _ ih => exact .present (derives_expression ih)
  | letBare =>
    have value := (@Derives.absent (row [symbol .assign, .rule .expression])).sequence
      (derives_symbol .semicolon)
    exact .rule ((derives_keyword .let).sequence ((derives_identifier _).sequence value))
  | letValue _ ih =>
    have value := (derives_symbol .assign).sequence (derives_expression ih)
    have value := (Derives.present value).sequence (derives_symbol .semicolon)
    exact .rule ((derives_keyword .let).sequence ((derives_identifier _).sequence value))
  | noClause => exact .choose 2 rfl (derives_symbol _)
  | letClause _ ih => exact .choose 0 rfl ih
  | expressionClause _ ih =>
    have clause := (derives_expression ih).sequence (derives_symbol .semicolon)
    exact .choose 1 rfl (.rule clause)
  | expression _ ih =>
    have stmt := (derives_expression ih).sequence (derives_symbol .semicolon)
    exact .rule (.choose 0 rfl (.rule stmt))
  | «for» _ _ _ _ first second third tail =>
    have step := third.sequence ((derives_symbol .rightParen).sequence tail)
    have test := second.sequence ((derives_symbol .semicolon).sequence step)
    have loop := (derives_symbol .leftParen).sequence (first.sequence test)
    exact .rule (.choose 1 rfl (.rule ((derives_keyword .for).sequence loop)))
  | «if» _ _ head tail =>
    have branch := tail.sequence (@Derives.absent (row [keyword .else, .rule .statement]))
    rw [List.append_nil] at branch
    have test := (derives_expression head).sequence ((derives_symbol .rightParen).sequence branch)
    have stmt := (derives_keyword .if).sequence ((derives_symbol .leftParen).sequence test)
    exact .rule (.choose 2 rfl (.rule stmt))
  | ifElse _ _ _ head first second =>
    have other := (derives_keyword .else).sequence second
    have branches := first.sequence (.present other)
    have test := (derives_expression head).sequence ((derives_symbol .rightParen).sequence branches)
    have stmt := (derives_keyword .if).sequence ((derives_symbol .leftParen).sequence test)
    exact .rule (.choose 2 rfl (.rule stmt))
  | print _ ih =>
    have value := (derives_expression ih).sequence (derives_symbol .semicolon)
    exact .rule (.choose 3 rfl (.rule ((derives_keyword .print).sequence value)))
  | «return» _ ih =>
    have value := ih.sequence (derives_symbol .semicolon)
    exact .rule (.choose 4 rfl (.rule ((derives_keyword .return).sequence value)))
  | «while» _ _ head tail =>
    have test := (derives_expression head).sequence ((derives_symbol .rightParen).sequence tail)
    have loop := (derives_keyword .while).sequence ((derives_symbol .leftParen).sequence test)
    exact .rule (.choose 5 rfl (.rule loop))
  | «break» =>
    have stmt := (derives_keyword .break).sequence (derives_symbol .semicolon)
    exact .rule (.choose 6 rfl (.rule stmt))
  | block _ ih =>
    have body := (derives_symbol .leftBrace).sequence (ih.sequence (derives_symbol .rightBrace))
    exact .rule (.choose 7 rfl (.rule body))
  | @classDecl _ name superclass _ _ _ ih =>
    have named :
        Derives (.optional (row [symbol .less, identifier])) (superclassWords superclass) := by
      cases superclass with
      | none => exact .absent
      | some superclass => exact .present ((derives_symbol _).sequence (derives_identifier _))
    have methods := (derives_symbol .leftBrace).sequence (ih.sequence (derives_symbol .rightBrace))
    have heading := (derives_identifier name).sequence (named.sequence methods)
    exact .rule (.choose 0 rfl (.rule ((derives_keyword .classWord).sequence heading)))
  | funDecl _ ih => exact .rule (.choose 1 rfl (.rule ((derives_keyword .fun).sequence ih)))
  | letDecl _ ih => exact .rule (.choose 2 rfl ih)
  | statement _ ih => exact .rule (.choose 3 rfl ih)
  | noDeclarations => exact .done
  | moreDeclarations _ _ head tail => exact .again head tail
  | function few _ ih =>
    have inside := (derives_symbol .leftBrace).sequence (ih.sequence (derives_symbol .rightBrace))
    have body : Derives (.rule .block) _ := .rule inside
    have rest := (derives_parameterWords few).sequence ((derives_symbol .rightParen).sequence body)
    have list := (derives_symbol .leftParen).sequence rest
    exact .rule ((derives_identifier _).sequence list)
  | noMethods => exact .done
  | moreMethods _ _ head tail => exact .again head tail

/-! ## From derivations to phrases -/

/-- Behind an open statement an `else` with its branch can be read along. -/
theorem Reads.exists_attached {phrase : Phrase} {words : List TokenKind}
    (reads : phrase.Reads words)
    {stmt : Stmt} (same : phrase = .statement true stmt) {isOpen : Bool} {elseBranch : Stmt}
    {after : List TokenKind} (second : Reads (.statement isOpen elseBranch) after) :
    ∃ isOpen' whole, Reads (.statement isOpen' whole) (words ++ .keyword .else :: after) := by
  induction reads generalizing stmt with
  | @«while» span condition _ _ _ _ head _ _ ih =>
    cases same
    obtain ⟨isOpen', body, reads⟩ := ih rfl
    refine ⟨isOpen', .while span condition body, ?_⟩
    simpa using Reads.while head reads
  | @«for» start separator initializer condition increment _ _ _ _ _ _ clause test step _ _
      _ _ ih =>
    cases same
    obtain ⟨isOpen', body, reads⟩ := ih rfl
    refine ⟨isOpen', Parse.forLoop start initializer condition separator increment body, ?_⟩
    simpa using Reads.for clause test step reads
  | @«if» span condition thenOpen thenBranch _ _ head tail _ ih =>
    cases thenOpen with
    | false =>
      refine ⟨isOpen, .conditional span condition thenBranch (some elseBranch), ?_⟩
      simpa using Reads.ifElse head tail second
    | true =>
      obtain ⟨_, branch, reads⟩ := ih rfl
      refine ⟨true, .conditional span condition branch none, ?_⟩
      simpa using Reads.if head reads
  | @ifElse span condition _ thenBranch _ _ _ _ head first _ _ _ ih =>
    cases same
    obtain ⟨isOpen', branch, reads⟩ := ih rfl
    refine ⟨isOpen', .conditional span condition thenBranch (some branch), ?_⟩
    simpa using Reads.ifElse head first reads
  | _ => cases same

/-- The words can be read as a phrase in the role that the rule names. -/
def Readable : Nonterminal → List TokenKind → Prop
  | .program, words => ∃ program, Reads (.declarations program) words
  | .declaration, words | .classDecl, words | .funDecl, words => ∃ stmt,
      Reads (.declaration stmt) words
  | .function, words => ∃ decl, Reads (.function decl) words
  | .parameters, words => ∃ parameters : List Parameter, parameters.length ≤ Parse.argumentLimit ∧
      words = parameterWords parameters
  | .letDecl, words => ∃ stmt, Reads (.letDecl stmt) words
  | .statement, words | .forStmt, words | .ifStmt, words | .printStmt, words | .returnStmt, words
  | .whileStmt, words | .breakStmt, words => ∃ isOpen stmt, Reads (.statement isOpen stmt) words
  | .block, words => ∃ body inner, words = .symbol .leftBrace :: (inner ++ [.symbol .rightBrace]) ∧
      Reads (.declarations body) inner
  | .exprStmt, words => ∃ value inner, words = inner ++ [.symbol .semicolon] ∧
      Reads (.expression value) inner
  | .expression, words | .assignment, words => ∃ value, Reads (.expression value) words
  | .logicOr, words => ∃ value, Reads (.level .disjunction value) words
  | .logicAnd, words => ∃ value, Reads (.level .conjunction value) words
  | .equality, words => ∃ value, Reads (.level .equality value) words
  | .comparison, words => ∃ value, Reads (.level .comparison value) words
  | .term, words => ∃ value, Reads (.level .term value) words
  | .factor, words => ∃ value, Reads (.level .factor value) words
  | .unary, words => ∃ value, Reads (.unary value) words
  | .call, words => ∃ value, Reads (.call value) words
  | .arguments, words => ∃ arguments : List Expr, arguments.length ≤ Parse.argumentLimit ∧
      Reads (.arguments arguments) words
  | .primary, words => ∃ value, Reads (.primary value) words

variable {words : List TokenKind}

/-- An operator of a level is one word. -/
theorem connective_of_signs {strength : Parse.Level}
    (found : strength.signs.Matches Readable words) :
    ∃ kind connective, words = [kind] ∧ strength.connective? kind = some connective := by
  cases strength with
  | disjunction | conjunction =>
    obtain ⟨_, rfl, ⟨⟩⟩ := found
    exact ⟨_, _, rfl, rfl⟩
  | equality | term | factor =>
    rcases found with ⟨_, rfl, ⟨⟩⟩ | ⟨_, rfl, ⟨⟩⟩ <;> exact ⟨_, _, rfl, rfl⟩
  | comparison =>
    rcases found with ⟨_, rfl, ⟨⟩⟩ | ⟨_, rfl, ⟨⟩⟩ | ⟨_, rfl, ⟨⟩⟩ | ⟨_, rfl, ⟨⟩⟩ <;>
      exact ⟨_, _, rfl, rfl⟩

/-- What is readable as an operand is read as one. -/
theorem operand_of_readable {strength : Parse.Level} (found : Readable strength.operandRule words) :
    ∃ value, Reads (.operand strength value) words := by
  cases strength <;> obtain ⟨value, reads⟩ := found
  case factor => exact ⟨value, .tightest rfl reads⟩
  all_goals exact ⟨value, .tighter rfl reads⟩

/-- Operands with operators between them form an expression of their level, from left to right. -/
theorem level_of_matches {strength : Parse.Level}
    (found : (production strength.rule).Matches Readable words) :
    ∃ value, Reads (.level strength value) words := by
  rw [strength.production_rule] at found
  obtain ⟨before, after, rfl, first, count, pieces⟩ := found
  obtain ⟨left, head⟩ := operand_of_readable first
  have all : ∀ {left : Expr} {before : List TokenKind}, Reads (.level strength left) before →
      ∃ value, Reads (.level strength value) (before ++ after) := by
    clear left head first
    induction pieces with
    | nil =>
      intro left before head
      rw [List.append_nil]
      exact ⟨left, head⟩
    | cons piece _ ih =>
      intro left before head
      obtain ⟨_, _, rfl, signs, second⟩ := piece
      obtain ⟨kind, connective, rfl, sign⟩ := connective_of_signs signs
      obtain ⟨right, tail⟩ := operand_of_readable second
      have longer := ih (.joined head sign tail)
      simpa using longer
  exact all (.operand head)

/-- Behind a primary expression calls and properties can be read, from left to right. -/
theorem call_of_matches (found : (production .call).Matches Readable words) :
    Readable .call words := by
  obtain ⟨before, after, rfl, ⟨callee, head⟩, count, pieces⟩ := found
  have all : ∀ {callee : Expr} {before : List TokenKind}, Reads (.call callee) before →
      Readable .call (before ++ after) := by
    clear callee head
    induction pieces with
    | nil =>
      intro callee before head
      rw [List.append_nil]
      exact ⟨callee, head⟩
    | cons piece _ ih =>
      intro callee before head
      rcases piece with applied | property
      · obtain ⟨_, _, rfl, ⟨_, rfl, ⟨⟩⟩, _, _, rfl, arguments, ⟨_, rfl, ⟨⟩⟩⟩ := applied
        rcases arguments with rfl | ⟨arguments, few, tail⟩
        · have longer := ih (@Reads.applied default _ _ _ _ head .noArguments (Nat.zero_le _))
          simpa using longer
        · have longer := ih (@Reads.applied default _ _ _ _ head tail few)
          simpa using longer
      · obtain ⟨_, _, rfl, ⟨_, rfl, ⟨⟩⟩, ⟨_, rfl, ⟨name⟩⟩⟩ := property
        have longer := ih (@Reads.get default _ name _ head)
        simpa using longer
  exact all (.primary head)

/-- What matches the rule for parameters is readable as parameters. -/
theorem parameters_of_matches (found : (production .parameters).Matches Readable words) :
    Readable .parameters words := by
  obtain ⟨_, after, rfl, ⟨_, rfl, ⟨name⟩⟩, count, few, pieces⟩ := found
  have all : ∀ first : Parameter, ∃ others : List Parameter, others.length = count ∧
      .identifier first.name :: after = parameterWords (first :: others) := by
    clear few
    induction pieces with
    | nil => exact fun first => ⟨[], rfl, rfl⟩
    | cons piece _ ih =>
      intro first
      obtain ⟨_, _, rfl, ⟨_, rfl, ⟨⟩⟩, ⟨_, rfl, ⟨name⟩⟩⟩ := piece
      obtain ⟨others, length, same⟩ := ih ⟨name, default⟩
      refine ⟨⟨name, default⟩ :: others, congrArg Nat.succ length, ?_⟩
      rw [parameterWords, ← same]
      rfl
  obtain ⟨others, length, same⟩ := all ⟨name, default⟩
  refine ⟨⟨name, default⟩ :: others, ?_, same⟩
  rw [List.length_cons, length]
  exact Nat.succ_le_succ few

/-- What matches the rule for arguments is readable as arguments. -/
theorem arguments_of_matches (found : (production .arguments).Matches Readable words) :
    Readable .arguments words := by
  obtain ⟨_, after, rfl, ⟨first, head⟩, count, few, pieces⟩ := found
  have all : ∀ {first : Expr} {before : List TokenKind}, Reads (.expression first) before →
      ∃ others : List Expr, others.length = count ∧
        Reads (.arguments (first :: others)) (before ++ after) := by
    clear few first head
    induction pieces with
    | nil =>
      intro first before head
      rw [List.append_nil]
      exact ⟨[], rfl, .argument head⟩
    | cons piece _ ih =>
      intro first before head
      obtain ⟨_, _, rfl, ⟨_, rfl, ⟨⟩⟩, ⟨next, reads⟩⟩ := piece
      obtain ⟨others, length, tail⟩ := ih reads
      exact ⟨next :: others, congrArg Nat.succ length, .moreArguments head tail⟩
  obtain ⟨others, length, reads⟩ := all head
  refine ⟨first :: others, ?_, reads⟩
  rw [List.length_cons, length]
  exact Nat.succ_le_succ few

/-- What matches the rule for primary expressions is readable as one. -/
theorem primary_of_matches (found : (production .primary).Matches Readable words) :
    Readable .primary words := by
  rcases found with ⟨_, rfl, ⟨⟩⟩ | ⟨_, rfl, ⟨⟩⟩ | ⟨_, rfl, ⟨⟩⟩ | ⟨_, rfl, ⟨⟩⟩ | ⟨_, rfl, ⟨⟩⟩ |
      ⟨_, rfl, ⟨⟩⟩ | ⟨_, rfl, ⟨name⟩⟩ | grouped | inherited
  · exact ⟨.literal default (.bool true), .atom rfl⟩
  · exact ⟨.literal default (.bool false), .atom rfl⟩
  · exact ⟨.literal default .nil, .atom rfl⟩
  · exact ⟨.this default, .atom rfl⟩
  · exact ⟨.literal default (.number _), .atom rfl⟩
  · exact ⟨.literal default (.text _), .atom rfl⟩
  · exact ⟨.variable default name, .atom rfl⟩
  · obtain ⟨_, _, rfl, ⟨_, rfl, ⟨⟩⟩, _, _, rfl, ⟨inner, reads⟩, ⟨_, rfl, ⟨⟩⟩⟩ := grouped
    exact ⟨.group default inner, .group reads⟩
  · obtain ⟨_, _, rfl, ⟨_, rfl, ⟨⟩⟩, _, _, rfl, ⟨_, rfl, ⟨⟩⟩, ⟨_, rfl, ⟨method⟩⟩⟩ := inherited
    exact ⟨.super default method, .super⟩

/-- What matches the rule for assignments is readable as one. -/
theorem assignment_of_matches (found : (production .assignment).Matches Readable words) :
    Readable .assignment words := by
  rcases found with assigned | ⟨value, reads⟩
  · obtain ⟨_, _, rfl, target, _, _, rfl, ⟨_, rfl, ⟨name⟩⟩, _, _, rfl, ⟨_, rfl, ⟨⟩⟩,
      ⟨value, tail⟩⟩ := assigned
    rcases target with rfl | ⟨_, _, rfl, ⟨object, head⟩, ⟨_, rfl, ⟨⟩⟩⟩
    · exact ⟨.assign default name value, .assign tail⟩
    · refine ⟨.set default object name value, ?_⟩
      rw [List.append_assoc]
      exact .set head tail
  · exact ⟨value, .level reads⟩

/-- What matches the rule for variable declarations is readable as one. -/
theorem letDecl_of_matches (found : (production .letDecl).Matches Readable words) :
    Readable .letDecl words := by
  obtain ⟨_, _, rfl, ⟨_, rfl, ⟨⟩⟩, _, _, rfl, ⟨_, rfl, ⟨name⟩⟩, _, _, rfl, value,
    ⟨_, rfl, ⟨⟩⟩⟩ := found
  rcases value with rfl | ⟨_, _, rfl, ⟨_, rfl, ⟨⟩⟩, ⟨value, reads⟩⟩
  · exact ⟨.letDecl default name none, .letBare⟩
  · exact ⟨.letDecl default name (some value), .letValue reads⟩

/-- An expression that may be missing. -/
theorem optional_of_matches (found : (Form.optional (.rule .expression)).Matches Readable words) :
    ∃ value, Reads (.optional value) words := by
  rcases found with rfl | ⟨value, reads⟩
  · exact ⟨none, .absent⟩
  · exact ⟨some value, .present reads⟩

/-- What matches the rule for `for` statements is readable as one. -/
theorem forStmt_of_matches (found : (production .forStmt).Matches Readable words) :
    Readable .forStmt words := by
  obtain ⟨_, _, rfl, ⟨_, rfl, ⟨⟩⟩, _, _, rfl, ⟨_, rfl, ⟨⟩⟩, _, _, rfl, clause, _, _, rfl, test,
    _, _, rfl, ⟨_, rfl, ⟨⟩⟩, _, _, rfl, step, _, _, rfl, ⟨_, rfl, ⟨⟩⟩, ⟨isOpen, body, tail⟩⟩ :=
    found
  obtain ⟨condition, second⟩ := optional_of_matches test
  obtain ⟨increment, third⟩ := optional_of_matches step
  rcases clause with ⟨stmt, first⟩ | ⟨value, _, rfl, reads⟩ | ⟨_, rfl, ⟨⟩⟩
  · exact ⟨isOpen, _, @Reads.for default default _ _ _ _ _ _ _ _ _ (.letClause first) second third
      tail⟩
  · have first := @Reads.expressionClause default _ _ reads
    exact ⟨isOpen, _, @Reads.for default default _ _ _ _ _ _ _ _ _ first second third tail⟩
  · exact ⟨isOpen, _, @Reads.for default default _ _ _ _ _ _ _ _ _ .noClause second third tail⟩

/-- What matches the rule for `if` statements is readable as one. -/
theorem ifStmt_of_matches (found : (production .ifStmt).Matches Readable words) :
    Readable .ifStmt words := by
  obtain ⟨_, _, rfl, ⟨_, rfl, ⟨⟩⟩, _, _, rfl, ⟨_, rfl, ⟨⟩⟩, _, _, rfl, ⟨condition, head⟩, _, _, rfl,
    ⟨_, rfl, ⟨⟩⟩, _, _, rfl, ⟨thenOpen, thenBranch, first⟩, branch⟩ := found
  have bare := @Reads.if default _ _ _ _ _ head first
  rcases branch with rfl | ⟨_, _, rfl, ⟨_, rfl, ⟨⟩⟩, ⟨isOpen, elseBranch, second⟩⟩
  · rw [List.append_nil]
    exact ⟨true, .conditional default condition thenBranch none, bare⟩
  · obtain ⟨isOpen', whole, reads⟩ := bare.exists_attached rfl second
    refine ⟨isOpen', whole, ?_⟩
    simpa using reads

/-- Pieces that are readable as declarations are read as a body. -/
theorem declarations_of_pieces {count : Nat}
    (pieces : Pieces (Form.Matches Readable (.rule .declaration)) count words) :
    ∃ body, Reads (.declarations body) words := by
  induction pieces with
  | nil => exact ⟨[], .noDeclarations⟩
  | cons piece _ ih =>
    obtain ⟨stmt, head⟩ := piece
    obtain ⟨others, tail⟩ := ih
    exact ⟨stmt :: others, .moreDeclarations head tail⟩

/-- Pieces that are readable as functions are read as methods. -/
theorem methods_of_pieces {count : Nat}
    (pieces : Pieces (Form.Matches Readable (.rule .function)) count words) :
    ∃ decls, Reads (.methods decls) words := by
  induction pieces with
  | nil => exact ⟨[], .noMethods⟩
  | cons piece _ ih =>
    obtain ⟨decl, head⟩ := piece
    obtain ⟨others, tail⟩ := ih
    exact ⟨decl :: others, .moreMethods head tail⟩

/-- What matches the rule for functions is readable as one. -/
theorem function_of_matches (found : (production .function).Matches Readable words) :
    Readable .function words := by
  obtain ⟨_, _, rfl, ⟨_, rfl, ⟨name⟩⟩, _, _, rfl, ⟨_, rfl, ⟨⟩⟩, _, _, rfl, list, _, _, rfl,
    ⟨_, rfl, ⟨⟩⟩, ⟨body, _, rfl, reads⟩⟩ := found
  rcases list with rfl | ⟨parameters, few, rfl⟩
  · exact ⟨⟨name, [], body, default⟩, .function (Nat.zero_le _) reads⟩
  · exact ⟨⟨name, parameters, body, default⟩, .function few reads⟩

/-- What matches the rule for class declarations is readable as one. -/
theorem classDecl_of_matches (found : (production .classDecl).Matches Readable words) :
    Readable .classDecl words := by
  obtain ⟨_, _, rfl, ⟨_, rfl, ⟨⟩⟩, _, _, rfl, ⟨_, rfl, ⟨name⟩⟩, _, _, rfl, named, _, _, rfl,
    ⟨_, rfl, ⟨⟩⟩, _, _, rfl, ⟨count, pieces⟩, ⟨_, rfl, ⟨⟩⟩⟩ := found
  obtain ⟨methods, reads⟩ := methods_of_pieces pieces
  rcases named with rfl | ⟨_, _, rfl, ⟨_, rfl, ⟨⟩⟩, ⟨_, rfl, ⟨superclass⟩⟩⟩
  · exact ⟨.classDecl default name none methods, .classDecl reads⟩
  · exact ⟨.classDecl default name (some ⟨superclass, default⟩) methods, .classDecl reads⟩

/-- What matches the rule for statements is readable as one. -/
theorem statement_of_matches (found : (production .statement).Matches Readable words) :
    Readable .statement words := by
  rcases found with ⟨value, _, rfl, reads⟩ | reads | reads | reads | reads | reads | reads |
      ⟨body, _, rfl, reads⟩
  · exact ⟨false, .expression default value, .expression reads⟩
  · exact reads
  · exact reads
  · exact reads
  · exact reads
  · exact reads
  · exact reads
  · exact ⟨false, .block default body, .block reads⟩

/-- What matches the rule for declarations is readable as one. -/
theorem declaration_of_matches (found : (production .declaration).Matches Readable words) :
    Readable .declaration words := by
  rcases found with reads | reads | ⟨stmt, reads⟩ | ⟨isOpen, stmt, reads⟩
  · exact reads
  · exact reads
  · exact ⟨stmt, .letDecl reads⟩
  · exact ⟨stmt, .statement reads⟩

/-- Whatever a rule makes of words that can be read can be read. -/
theorem readable_of_matches (name : Nonterminal) (words : List TokenKind)
    (found : (production name).Matches Readable words) : Readable name words := by
  cases name with
  | program =>
    obtain ⟨count, pieces⟩ := found
    exact declarations_of_pieces pieces
  | declaration => exact declaration_of_matches found
  | classDecl => exact classDecl_of_matches found
  | funDecl =>
    -- Words have no spans, so any will do for the tree.
    obtain ⟨_, _, rfl, ⟨_, rfl, ⟨⟩⟩, ⟨decl, reads⟩⟩ := found
    exact ⟨.function default decl, .funDecl reads⟩
  | function => exact function_of_matches found
  | parameters => exact parameters_of_matches found
  | letDecl => exact letDecl_of_matches found
  | statement => exact statement_of_matches found
  | exprStmt =>
    obtain ⟨inner, _, rfl, ⟨value, reads⟩, ⟨_, rfl, ⟨⟩⟩⟩ := found
    exact ⟨value, inner, rfl, reads⟩
  | forStmt => exact forStmt_of_matches found
  | ifStmt => exact ifStmt_of_matches found
  | printStmt =>
    obtain ⟨_, _, rfl, ⟨_, rfl, ⟨⟩⟩, _, _, rfl, ⟨value, reads⟩, ⟨_, rfl, ⟨⟩⟩⟩ := found
    exact ⟨false, .print default value, .print reads⟩
  | returnStmt =>
    obtain ⟨_, _, rfl, ⟨_, rfl, ⟨⟩⟩, _, _, rfl, value, ⟨_, rfl, ⟨⟩⟩⟩ := found
    obtain ⟨value, reads⟩ := optional_of_matches value
    exact ⟨false, .return default value, .return reads⟩
  | whileStmt =>
    obtain ⟨_, _, rfl, ⟨_, rfl, ⟨⟩⟩, _, _, rfl, ⟨_, rfl, ⟨⟩⟩, _, _, rfl, ⟨condition, head⟩,
      _, _, rfl, ⟨_, rfl, ⟨⟩⟩, ⟨isOpen, body, tail⟩⟩ := found
    exact ⟨isOpen, .while default condition body, .while head tail⟩
  | breakStmt =>
    obtain ⟨_, _, rfl, ⟨_, rfl, ⟨⟩⟩, ⟨_, rfl, ⟨⟩⟩⟩ := found
    exact ⟨false, .break default, .break⟩
  | block =>
    obtain ⟨_, _, rfl, ⟨_, rfl, ⟨⟩⟩, inner, _, rfl, ⟨count, pieces⟩, ⟨_, rfl, ⟨⟩⟩⟩ := found
    obtain ⟨body, reads⟩ := declarations_of_pieces pieces
    exact ⟨body, inner, rfl, reads⟩
  | expression => exact found
  | assignment => exact assignment_of_matches found
  | logicOr => exact @level_of_matches _ .disjunction found
  | logicAnd => exact @level_of_matches _ .conjunction found
  | equality => exact @level_of_matches _ .equality found
  | comparison => exact @level_of_matches _ .comparison found
  | term => exact @level_of_matches _ .term found
  | factor => exact @level_of_matches _ .factor found
  | unary =>
    rcases found with ⟨_, _, rfl, sign, ⟨operand, reads⟩⟩ | ⟨value, reads⟩
    · rcases sign with ⟨_, rfl, ⟨⟩⟩ | ⟨_, rfl, ⟨⟩⟩
      · exact ⟨.unary default .not operand, .prefixed rfl reads⟩
      · exact ⟨.unary default .negate operand, .prefixed rfl reads⟩
    · exact ⟨value, .call reads⟩
  | call => exact call_of_matches found
  | arguments => exact arguments_of_matches found
  | primary => exact primary_of_matches found

/-- The words of programs are those that the grammar derives. -/
theorem exists_program_iff {words : List TokenKind} :
    (∃ program, Reads (.declarations program) words) ↔ Derives (.rule .program) words :=
  ⟨fun ⟨_, reads⟩ => .rule reads.derived, fun derives => derives.matches readable_of_matches⟩

end Phrase

end EventScript
