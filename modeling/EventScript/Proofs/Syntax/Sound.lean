import EventScript.Proofs.Syntax.Phrase
import EventScript.Proofs.Syntax.Reader

/-!
# What readers find

Whatever a reader finds reads from the words that it took, and a fault points at one of the tokens.
The lemmas follow the readers, one for each, by induction on the depth. The two loops are judged by
what they make of a left part: `joined` of an expression of its level, `applied` of a call.
-/

namespace EventScript.Parse

open Phrase

variable {source tokens : List Token}

/-- The reader finds a phrase of the given sort in the words that it takes. -/
def Finds {α : Type} (source : List Token) (reader : Parse α) (phrase : α → Phrase)
    (tokens : List Token) : Prop :=
  Yields source reader tokens fun value rest =>
    ∃ words, Passes source tokens words rest ∧ (phrase value).Reads words

mutual

/-- What is read as an expression is a phrase of that sort. -/
theorem expression_finds : (depth : Nat) → {tokens : List Token} → Left source tokens →
    Finds source (expression depth) .expression tokens
  | 0, _, left => yields_fail left
  | depth + 1, tokens, left => by
    rw [Finds, expression]
    apply (level_finds depth .disjunction left).then
    rintro target rest ⟨before, passed, head⟩
    refine .bind (yields_symbol? passed.left ?_ ?_)
    · intro sign rest signed points
      apply (expression_finds depth signed.left).then
      rintro value rest ⟨after, onward, tail⟩
      have all := passed.trans (signed.trans onward)
      unfold assignTo
      split
      · have words := (head.call_of_isTarget rfl (.inl rfl)).words_of_variable
        subst words
        exact ⟨_, all, .assign tail⟩
      · obtain ⟨object, rfl, front⟩ := (head.call_of_isTarget rfl (.inl rfl)).words_of_get
        refine ⟨_, all, ?_⟩
        rw [List.append_assoc]
        exact .set front tail
      · obtain ⟨token, member, span⟩ := points
        exact yields_failAt ⟨token, member, span⟩
    · intro _
      exact ⟨before, passed, .level head⟩

/-- What is read as operands joined by operators of some strength is a phrase of that sort. -/
theorem level_finds : (depth : Nat) → (strength : Level) → {tokens : List Token} →
    Left source tokens → Finds source (level depth strength) (.level strength) tokens
  | 0, _, _, left => yields_fail left
  | depth + 1, strength, tokens, left => by
    rw [Finds, level]
    apply (operand_finds depth strength left).then
    rintro first rest ⟨before, passed, head⟩
    apply (joined_finds depth passed.left (.operand head)).mono
    rintro value rest ⟨after, onward, reads⟩
    exact ⟨_, passed.trans onward, reads⟩

/-- What is read as an operand of such operators is a phrase of that sort. -/
theorem operand_finds : (depth : Nat) → (strength : Level) → {tokens : List Token} →
    Left source tokens → Finds source (operand depth strength) (.operand strength) tokens
  | 0, _, _, left => yields_fail left
  | depth + 1, strength, tokens, left => by
    rw [Finds, operand]
    split
    · rename_i tighter next
      apply (level_finds depth tighter left).mono
      rintro value rest ⟨words, passed, reads⟩
      exact ⟨words, passed, .tighter next reads⟩
    · rename_i last
      apply (unary_finds depth left).mono
      rintro value rest ⟨words, passed, reads⟩
      exact ⟨words, passed, .tightest last reads⟩

/-- What is read as more operands joined to a first one is a phrase of that sort. -/
theorem joined_finds : (depth : Nat) → {strength : Level} → {first : Expr} →
    {before : List TokenKind} → {tokens : List Token} → Left source tokens →
    Reads (.level strength first) before →
    Yields source (joined depth strength first) tokens fun value rest =>
      ∃ words, Passes source tokens words rest ∧ Reads (.level strength value) (before ++ words)
  | 0, _, _, _, _, left, _ => yields_fail left
  | depth + 1, strength, first, before, tokens, left, head => by
    rw [joined]
    refine .bind (yields_peek ?_)
    split
    · refine ⟨[], left.passes, ?_⟩
      rw [List.append_nil]
      exact head
    · rename_i connective sign
      have word : (current tokens).kind ≠ .endOfInput := by
        intro mark
        rw [mark] at sign
        cases strength <;> contradiction
      apply (yields_advance left rfl word).then
      intro _ rest signed
      apply (operand_finds depth strength signed.left).then
      rintro second rest ⟨middle, passed, tail⟩
      apply (joined_finds depth passed.left (.joined head sign tail)).mono
      rintro value rest ⟨after, onward, reads⟩
      refine ⟨_, signed.trans (passed.trans onward), ?_⟩
      simpa using reads

/-- What is read as an operand with signs before it is a phrase of that sort. -/
theorem unary_finds : (depth : Nat) → {tokens : List Token} → Left source tokens →
    Finds source (unary depth) .unary tokens
  | 0, _, left => yields_fail left
  | depth + 1, tokens, left => by
    rw [Finds, unary]
    refine .bind (yields_peek ?_)
    split
    · apply (call_finds depth left).mono
      rintro value rest ⟨words, passed, reads⟩
      exact ⟨words, passed, .call reads⟩
    · rename_i op sign
      have word : (current tokens).kind ≠ .endOfInput := by
        intro mark
        rw [mark] at sign
        contradiction
      apply (yields_advance left rfl word).then
      intro _ rest signed
      apply (unary_finds depth signed.left).then
      rintro value rest ⟨words, passed, reads⟩
      exact ⟨_, signed.trans passed, .prefixed sign reads⟩

/-- What is read as a call or less is a phrase of that sort. -/
theorem call_finds : (depth : Nat) → {tokens : List Token} → Left source tokens →
    Finds source (call depth) .call tokens
  | 0, _, left => yields_fail left
  | depth + 1, tokens, left => by
    rw [Finds, call]
    apply (primary_finds depth left).then
    rintro callee rest ⟨before, passed, head⟩
    apply (applied_finds depth passed.left (.primary head)).mono
    rintro value rest ⟨after, onward, reads⟩
    exact ⟨_, passed.trans onward, reads⟩

/-- What is read as calls and properties of a subject is a phrase of that sort. -/
theorem applied_finds : (depth : Nat) → {subject : Expr} → {before : List TokenKind} →
    {tokens : List Token} → Left source tokens → Reads (.call subject) before →
    Yields source (applied depth subject) tokens fun value rest =>
      ∃ words, Passes source tokens words rest ∧ Reads (.call value) (before ++ words)
  | 0, _, _, _, left, _ => yields_fail left
  | depth + 1, subject, before, tokens, left, head => by
    rw [applied_succ]
    refine .bind (yields_symbol? left ?_ ?_)
    · intro _ rest opened _
      have list : Yields source (unlessAt .rightParen [] (arguments depth argumentLimit)) rest
          fun values onward => ∃ words, Passes source rest words onward ∧
            values.length ≤ argumentLimit ∧ Reads (.arguments values) words :=
        yields_unlessAt ⟨[], opened.left.passes, Nat.zero_le _, .noArguments⟩
          ((arguments_finds depth argumentLimit opened.left).mono
            fun values onward ⟨words, passed, few, _, reads⟩ => ⟨words, passed, few, reads⟩)
      apply list.then
      rintro values rest ⟨middle, passed, few, tail⟩
      apply (yields_symbol passed.left).then
      intro close rest closed
      apply (applied_finds depth closed.left (.applied head tail few)).mono
      rintro value rest ⟨after, onward, reads⟩
      refine ⟨_, opened.trans (passed.trans (closed.trans onward)), ?_⟩
      simpa using reads
    · intro _
      refine .bind (yields_symbol? left ?_ ?_)
      · intro _ rest dotted _
        apply (yields_name dotted.left).then
        rintro ⟨name, span⟩ rest named
        apply (applied_finds depth named.left (.get head)).mono
        rintro value rest ⟨after, onward, reads⟩
        refine ⟨_, dotted.trans (named.trans onward), ?_⟩
        simpa using reads
      · intro _
        refine ⟨[], left.passes, ?_⟩
        rw [List.append_nil]
        exact head

/-- What is read as arguments is a phrase of that sort. -/
theorem arguments_finds : (depth allowed : Nat) → {tokens : List Token} → Left source tokens →
    Yields source (arguments depth allowed) tokens fun values rest =>
      ∃ words, Passes source tokens words rest ∧ values.length ≤ allowed ∧ values ≠ [] ∧
        Reads (.arguments values) words
  | 0, _, _, left => yields_fail left
  | _ + 1, 0, _, left => yields_fail left
  | depth + 1, allowed + 1, tokens, left => by
    rw [arguments]
    apply (expression_finds depth left).then
    rintro first rest ⟨before, passed, head⟩
    refine .bind (yields_symbol? passed.left ?_ ?_)
    · intro _ rest comma _
      apply (arguments_finds depth allowed comma.left).then
      rintro values rest ⟨after, onward, few, some, tail⟩
      obtain ⟨next, others, rfl⟩ := List.exists_cons_of_ne_nil some
      exact ⟨_, passed.trans (comma.trans onward), Nat.succ_le_succ few, List.cons_ne_nil _ _,
        .moreArguments head tail⟩
    · intro _
      exact ⟨before, passed, Nat.succ_le_succ (Nat.zero_le _), List.cons_ne_nil _ _, .argument head⟩

/-- What is read as a primary expression is a phrase of that sort. -/
theorem primary_finds : (depth : Nat) → {tokens : List Token} → Left source tokens →
    Finds source (primary depth) .primary tokens
  | 0, _, left => yields_fail left
  | depth + 1, tokens, left => by
    rw [Finds, primary]
    refine .bind (yields_peek ?_)
    split
    · rename_i kind
      apply (yields_advance left kind nofun).then
      intro start rest begun
      apply (yields_symbol begun.left).then
      intro _ rest dotted
      apply (yields_name dotted.left).then
      rintro ⟨method, span⟩ rest named
      exact ⟨_, begun.trans (dotted.trans named), .super⟩
    · rename_i kind
      apply (yields_advance left kind nofun).then
      intro start rest opened
      apply (expression_finds depth opened.left).then
      rintro inner rest ⟨words, passed, reads⟩
      apply (yields_symbol passed.left).then
      intro close rest closed
      exact ⟨_, opened.trans (passed.trans closed), .group reads⟩
    · refine .bind (yields_here ?_)
      split
      · exact yields_fail left
      · rename_i atom alone
        have word : (current tokens).kind ≠ .endOfInput := by
          intro mark
          rw [mark] at alone
          contradiction
        apply (yields_advance left rfl word).then
        exact fun _ rest passed => ⟨_, passed, .atom alone⟩

end

/-! ## Statements -/

/-- What is read as parameters is a phrase of that sort. -/
theorem parameters_finds : (allowed : Nat) → {tokens : List Token} → Left source tokens →
    Yields source (parameters allowed) tokens fun found rest =>
      Passes source tokens (parameterWords found) rest ∧ found.length ≤ allowed ∧ found ≠ []
  | 0, _, left => yields_fail left
  | allowed + 1, tokens, left => by
    rw [parameters]
    apply (yields_name left).then
    rintro ⟨name, span⟩ rest named
    refine .bind (yields_symbol? named.left ?_ ?_)
    · intro _ rest comma _
      apply (parameters_finds allowed comma.left).then
      rintro others rest ⟨onward, few, some⟩
      obtain ⟨next, others, rfl⟩ := List.exists_cons_of_ne_nil some
      exact ⟨named.trans (comma.trans onward), Nat.succ_le_succ few, List.cons_ne_nil _ _⟩
    · intro _
      exact ⟨named, Nat.succ_le_succ (Nat.zero_le _), List.cons_ne_nil _ _⟩

/-- An expression that is missing where the symbol comes next. -/
theorem optional_finds (depth : Nat) (symbol : Symbol) (left : Left source tokens) :
    Finds source (unlessAt symbol none (some <$> expression depth)) .optional tokens := by
  refine yields_unlessAt ⟨[], left.passes, .absent⟩ ?_
  apply (expression_finds depth left).then
  rintro value rest ⟨words, passed, reads⟩
  exact ⟨words, passed, .present reads⟩

/-- What is read as an expression statement is a phrase of that sort. -/
theorem expressionStatement_finds (depth : Nat) (left : Left source tokens) :
    Yields source (expressionStatement depth) tokens fun stmt rest => ∃ span value words,
      stmt = .expression span value ∧
        Passes source tokens (words ++ [.symbol .semicolon]) rest ∧
        Reads (.expression value) words := by
  apply (expression_finds depth left).then
  rintro value rest ⟨words, passed, reads⟩
  apply (yields_symbol passed.left).then
  intro close rest closed
  exact ⟨_, value, words, rfl, passed.trans closed, reads⟩

/-- What is read as a variable declaration is a phrase of that sort. -/
theorem letStatement_finds (depth : Nat) (start : Span) {rest : List Token}
    (begun : Passes source tokens [.keyword .let] rest) :
    Yields source (letStatement depth start) rest fun stmt rest =>
      ∃ words, Passes source tokens words rest ∧ Reads (.letDecl stmt) words := by
  rw [letStatement_eq]
  apply (yields_name begun.left).then
  rintro ⟨name, _⟩ rest named
  refine .bind (yields_afterSymbol named.left ?_ fun rest assigned => ?_)
  · apply (yields_symbol named.left).then
    intro close rest closed
    exact ⟨_, begun.trans (named.trans closed), .letBare⟩
  · apply (expression_finds depth assigned.left).then
    rintro value rest ⟨words, passed, reads⟩
    apply (yields_symbol passed.left).then
    intro close rest closed
    have all := begun.trans (named.trans (assigned.trans (passed.trans closed)))
    exact ⟨_, all, .letValue reads⟩

/-- What is read as the initializer of a loop is a phrase of that sort. -/
theorem forInitializer_finds (depth : Nat) (left : Left source tokens) :
    Finds source (forInitializer depth) .clause tokens := by
  refine .bind (yields_symbol? left ?_ ?_)
  · exact fun _ rest closed _ => ⟨_, closed, .noClause⟩
  · intro _
    refine .bind (yields_keyword? left ?_ ?_)
    · intro start rest begun
      apply (letStatement_finds depth start begun).then
      rintro stmt rest ⟨words, passed, reads⟩
      exact ⟨words, passed, .letClause reads⟩
    · intro _
      apply (expressionStatement_finds depth left).then
      rintro stmt rest ⟨span, value, words, rfl, passed, reads⟩
      exact ⟨_, passed, .expressionClause reads⟩

/-- What a reader of statements finds. No `else` is left behind an open statement. -/
def Completes (source tokens : List Token) (stmt : Stmt) (rest : List Token) : Prop :=
  ∃ isOpen words, Passes source tokens words rest ∧ Reads (.statement isOpen stmt) words ∧
    (isOpen = true → (current rest).kind ≠ .keyword .else)

/-- A statement that takes no other statement along is not open. -/
theorem completes {stmt : Stmt} {words : List TokenKind} {rest : List Token}
    (passed : Passes source tokens words rest) (reads : Reads (.statement false stmt) words) :
    Completes source tokens stmt rest :=
  ⟨false, words, passed, reads, nofun⟩

/-- What is read as a print statement is a phrase of that sort. -/
theorem printStatement_finds (depth : Nat) (start : Span) {rest : List Token}
    (begun : Passes source tokens [.keyword .print] rest) :
    Yields source (printStatement depth start) rest (Completes source tokens) := by
  apply (expression_finds depth begun.left).then
  rintro value rest ⟨words, passed, reads⟩
  apply (yields_symbol passed.left).then
  intro close rest closed
  exact completes (begun.trans (passed.trans closed)) (.print reads)

/-- What is read as a return statement is a phrase of that sort. -/
theorem returnStatement_finds (depth : Nat) (start : Span) {rest : List Token}
    (begun : Passes source tokens [.keyword .return] rest) :
    Yields source (returnStatement depth start) rest (Completes source tokens) := by
  rw [returnStatement_eq]
  apply (optional_finds depth .semicolon begun.left).then
  rintro value rest ⟨words, passed, reads⟩
  apply (yields_symbol passed.left).then
  intro close rest closed
  exact completes (begun.trans (passed.trans closed)) (.return reads)

/-- What is read as a break statement is a phrase of that sort. -/
theorem breakStatement_finds (start : Span) {rest : List Token}
    (begun : Passes source tokens [.keyword .break] rest) :
    Yields source (breakStatement start) rest (Completes source tokens) :=
  (yields_symbol begun.left).then fun _ _ closed => completes (begun.trans closed) .break

mutual

/-- What is read as a declaration is a phrase of that sort. -/
theorem declaration_finds : (depth : Nat) → {tokens : List Token} → Left source tokens →
    Yields source (declaration depth) tokens fun stmt rest =>
      ∃ words, Passes source tokens words rest ∧ Reads (.declaration stmt) words
  | 0, _, left => yields_fail left
  | depth + 1, tokens, left => by
    rw [declaration]
    refine .bind (yields_peek ?_)
    split
    · rename_i kind
      apply (yields_advance left kind nofun).then
      intro start rest begun
      exact classDeclaration_finds depth start begun
    · rename_i kind
      apply (yields_advance left kind nofun).then
      intro start rest begun
      apply (function_finds depth _ begun.left).then
      rintro decl rest ⟨words, passed, reads⟩
      exact ⟨_, begun.trans passed, .funDecl reads⟩
    · rename_i kind
      apply (yields_advance left kind nofun).then
      intro start rest begun
      apply (letStatement_finds depth start begun).mono
      rintro stmt rest ⟨words, passed, reads⟩
      exact ⟨words, passed, .letDecl reads⟩
    · apply (statement_finds depth left).mono
      rintro stmt rest ⟨isOpen, words, passed, reads, -⟩
      exact ⟨words, passed, .statement reads⟩

/-- What is read as a class declaration is a phrase of that sort. -/
theorem classDeclaration_finds : (depth : Nat) → (start : Span) → {tokens rest : List Token} →
    Passes source tokens [.keyword .classWord] rest →
    Yields source (classDeclaration depth start) rest fun stmt rest =>
      ∃ words, Passes source tokens words rest ∧ Reads (.declaration stmt) words
  | 0, _, _, _, begun => yields_fail begun.left
  | depth + 1, start, tokens, rest, begun => by
    rw [classDeclaration_succ]
    apply (yields_name begun.left).then
    rintro ⟨name, _⟩ rest named
    have inherits : Yields source (afterSymbol .less none superclassName) rest
        fun superclass onward => Passes source rest (superclassWords superclass) onward := by
      refine yields_afterSymbol named.left named.left.passes fun onward signed => ?_
      apply (yields_name signed.left).then
      exact fun superclass rest below => signed.trans below
    apply inherits.then
    intro superclass rest below
    apply (yields_symbol below.left).then
    intro _ rest opened
    apply (methods_finds depth opened.left).then
    rintro decls rest ⟨words, passed, reads⟩
    apply (yields_symbol passed.left).then
    intro close rest closed
    have inside := opened.trans (passed.trans closed)
    exact ⟨_, begun.trans (named.trans (below.trans inside)), .classDecl reads⟩

/-- What is read as methods is a phrase of that sort. -/
theorem methods_finds : (depth : Nat) → {tokens : List Token} → Left source tokens →
    Finds source (methods depth) .methods tokens
  | 0, _, left => yields_fail left
  | depth + 1, tokens, left => by
    rw [Finds, methods]
    refine .bind (yields_of_eq (atEndOfBody_eq tokens) ?_)
    split
    · exact ⟨[], left.passes, .noMethods⟩
    · apply (function_finds depth _ left).then
      rintro decl rest ⟨before, passed, head⟩
      apply (methods_finds depth passed.left).then
      rintro others rest ⟨after, onward, tail⟩
      exact ⟨_, passed.trans onward, .moreMethods head tail⟩

/-- What is read as a function is a phrase of that sort. -/
theorem function_finds : (depth : Nat) → (role : String) → {tokens : List Token} →
    Left source tokens → Finds source (function depth role) .function tokens
  | 0, _, _, left => yields_fail left
  | depth + 1, role, tokens, left => by
    rw [Finds, function_succ]
    apply (yields_name left).then
    rintro ⟨name, _⟩ rest named
    apply (yields_symbol named.left).then
    intro _ rest opened
    have list : Yields source (unlessAt .rightParen [] (parameters argumentLimit)) rest
        fun found onward => Passes source rest (parameterWords found) onward ∧
          found.length ≤ argumentLimit :=
      yields_unlessAt ⟨opened.left.passes, Nat.zero_le _⟩
        ((parameters_finds argumentLimit opened.left).mono
          fun found onward ⟨passed, few, _⟩ => ⟨passed, few⟩)
    apply list.then
    rintro parameters rest ⟨listed, few⟩
    apply (yields_symbol listed.left).then
    intro _ rest closed
    apply (yields_symbol closed.left).then
    intro _ rest begun
    apply (declarations_finds depth begun.left).then
    rintro body rest ⟨words, passed, reads⟩
    apply (yields_symbol passed.left).then
    intro close rest ended
    have inside := begun.trans (passed.trans ended)
    have all := named.trans (opened.trans (listed.trans (closed.trans inside)))
    exact ⟨_, all, .function few reads⟩

/-- What is read as declarations is a phrase of that sort. -/
theorem declarations_finds : (depth : Nat) → {tokens : List Token} → Left source tokens →
    Finds source (declarations depth) .declarations tokens
  | 0, _, left => yields_fail left
  | depth + 1, tokens, left => by
    rw [Finds, declarations]
    refine .bind (yields_of_eq (atEndOfBody_eq tokens) ?_)
    split
    · exact ⟨[], left.passes, .noDeclarations⟩
    · apply (declaration_finds depth left).then
      rintro stmt rest ⟨before, passed, head⟩
      apply (declarations_finds depth passed.left).then
      rintro others rest ⟨after, onward, tail⟩
      exact ⟨_, passed.trans onward, .moreDeclarations head tail⟩

/-- What is read as a statement is a phrase of that sort. -/
theorem statement_finds : (depth : Nat) → {tokens : List Token} → Left source tokens →
    Yields source (statement depth) tokens (Completes source tokens)
  | 0, _, left => yields_fail left
  | depth + 1, tokens, left => by
    rw [statement]
    refine .bind (yields_peek ?_)
    split
    · rename_i kind
      apply (yields_advance left kind nofun).then
      intro start rest begun
      exact forStatement_finds depth start begun
    · rename_i kind
      apply (yields_advance left kind nofun).then
      intro start rest begun
      exact ifStatement_finds depth start begun
    · rename_i kind
      apply (yields_advance left kind nofun).then
      intro start rest begun
      exact printStatement_finds depth start begun
    · rename_i kind
      apply (yields_advance left kind nofun).then
      intro start rest begun
      exact returnStatement_finds depth start begun
    · rename_i kind
      apply (yields_advance left kind nofun).then
      intro start rest begun
      exact whileStatement_finds depth start begun
    · rename_i kind
      apply (yields_advance left kind nofun).then
      intro start rest begun
      exact breakStatement_finds start begun
    · rename_i kind
      apply (yields_advance left kind nofun).then
      intro start rest begun
      apply (declarations_finds depth begun.left).then
      rintro body rest ⟨words, passed, reads⟩
      apply (yields_symbol passed.left).then
      intro close rest ended
      exact completes (begun.trans (passed.trans ended)) (.block reads)
    · apply (expressionStatement_finds depth left).mono
      rintro stmt rest ⟨span, value, words, rfl, passed, reads⟩
      exact completes passed (.expression reads)

/-- What is read as a `for` statement is a phrase of that sort. -/
theorem forStatement_finds : (depth : Nat) → (start : Span) → {tokens rest : List Token} →
    Passes source tokens [.keyword .for] rest →
    Yields source (forStatement depth start) rest (Completes source tokens)
  | 0, _, _, _, begun => yields_fail begun.left
  | depth + 1, start, tokens, rest, begun => by
    rw [forStatement_succ]
    apply (yields_symbol begun.left).then
    intro _ rest opened
    apply (forInitializer_finds depth opened.left).then
    rintro initializer rest ⟨first, clause, firstReads⟩
    apply (optional_finds depth .semicolon clause.left).then
    rintro condition rest ⟨second, tested, secondReads⟩
    apply (yields_symbol tested.left).then
    intro separator rest separated
    apply (optional_finds depth .rightParen separated.left).then
    rintro increment rest ⟨third, stepped, thirdReads⟩
    apply (yields_symbol stepped.left).then
    intro _ rest closed
    apply (statement_finds depth closed.left).then
    rintro body rest ⟨isOpen, after, passed, reads, free⟩
    have behind := separated.trans (stepped.trans (closed.trans passed))
    have all := begun.trans (opened.trans (clause.trans (tested.trans behind)))
    exact ⟨isOpen, _, all, .for firstReads secondReads thirdReads reads, free⟩

/-- What is read as an `if` statement is a phrase of that sort. -/
theorem ifStatement_finds : (depth : Nat) → (start : Span) → {tokens rest : List Token} →
    Passes source tokens [.keyword .if] rest →
    Yields source (ifStatement depth start) rest (Completes source tokens)
  | 0, _, _, _, begun => yields_fail begun.left
  | depth + 1, start, tokens, rest, begun => by
    rw [ifStatement]
    apply (yields_symbol begun.left).then
    intro _ rest opened
    apply (expression_finds depth opened.left).then
    rintro condition rest ⟨before, tested, head⟩
    apply (yields_symbol tested.left).then
    intro _ rest closed
    apply (statement_finds depth closed.left).then
    rintro thenBranch rest ⟨thenOpen, middle, passed, first, free⟩
    have upToHere := begun.trans (opened.trans (tested.trans (closed.trans passed)))
    refine .bind (yields_keyword? passed.left ?_ ?_)
    · intro _ onward otherwise
      apply (statement_finds depth otherwise.left).then
      rintro elseBranch rest ⟨isOpen, after, ended, second, free'⟩
      have shut : thenOpen = false := by
        obtain ⟨token, _, rfl, same, _⟩ := otherwise.spells
        exact Bool.eq_false_iff.mpr fun opens => free opens same
      subst shut
      have behind := closed.trans (passed.trans (otherwise.trans ended))
      have all := begun.trans (opened.trans (tested.trans behind))
      exact ⟨isOpen, _, all, .ifElse head first second, free'⟩
    · intro none
      exact ⟨true, _, upToHere, .if head first, fun _ => none⟩

/-- What is read as a `while` statement is a phrase of that sort. -/
theorem whileStatement_finds : (depth : Nat) → (start : Span) → {tokens rest : List Token} →
    Passes source tokens [.keyword .while] rest →
    Yields source (whileStatement depth start) rest (Completes source tokens)
  | 0, _, _, _, begun => yields_fail begun.left
  | depth + 1, start, tokens, rest, begun => by
    rw [whileStatement]
    apply (yields_symbol begun.left).then
    intro _ rest opened
    apply (expression_finds depth opened.left).then
    rintro condition rest ⟨before, tested, head⟩
    apply (yields_symbol tested.left).then
    intro _ rest closed
    apply (statement_finds depth closed.left).then
    rintro body rest ⟨isOpen, after, passed, reads, free⟩
    have all := begun.trans (opened.trans (tested.trans (closed.trans passed)))
    exact ⟨isOpen, _, all, .while head reads, free⟩

end

/-- What is read as a program is a phrase of that sort. -/
theorem program_finds : (depth : Nat) → {tokens : List Token} → Left source tokens →
    Yields source (program depth) tokens fun found rest =>
      ∃ words, Passes source tokens words rest ∧ Reads (.declarations found) words ∧
        (current rest).kind = .endOfInput
  | 0, _, left => yields_fail left
  | depth + 1, tokens, left => by
    rw [program]
    refine .bind (yields_peek ?_)
    split
    · rename_i mark
      exact ⟨[], left.passes, .noDeclarations, mark⟩
    · apply (declaration_finds depth left).then
      rintro stmt rest ⟨before, passed, head⟩
      apply (program_finds depth passed.left).then
      rintro others rest ⟨after, onward, tail, mark⟩
      exact ⟨_, passed.trans onward, .moreDeclarations head tail, mark⟩

end EventScript.Parse
