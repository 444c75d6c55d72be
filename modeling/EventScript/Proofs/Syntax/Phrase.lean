import EventScript.Syntax.Parse

/-!
# Phrases and their words

`Phrase.Reads` relates each form of syntax tree to the words that it can be read from, with one rule
for each way to write a form. The rules follow the trees, so operators that associate to the left
have the tree of their left operand as a premise. An `else` goes with the nearest `if`: a statement
is open when an `else` behind it would go with an `if` inside of it, and no `if` whose first branch
is open has an `else`. Nothing here refers to a reader.
-/

namespace EventScript

/-- The names of parameters with commas between them. -/
def parameterWords : List Parameter → List TokenKind
  | [] => []
  | [parameter] => [.identifier parameter.name]
  | parameter :: next :: others =>
    .identifier parameter.name :: .symbol .comma :: parameterWords (next :: others)

/-- The superclass of a class declaration, after its sign. -/
def superclassWords : Option SuperclassName → List TokenKind
  | none => []
  | some superclass => [.symbol .less, .identifier superclass.name]

/-- A syntax tree and the role that it plays. -/
inductive Phrase where
  | primary (value : Expr)
  | call (value : Expr)
  | unary (value : Expr)
  /-- What the operators of a level join. -/
  | operand (strength : Parse.Level) (value : Expr)
  | level (strength : Parse.Level) (value : Expr)
  | expression (value : Expr)
  | arguments (values : List Expr)
  /-- An expression that may be missing. -/
  | optional (value : Option Expr)
  | letDecl (stmt : Stmt)
  /-- The first clause of a `for` statement. -/
  | clause (initializer : Option Stmt)
  /-- A statement, and whether an `else` behind it would go with an `if` inside of it. -/
  | statement (isOpen : Bool) (stmt : Stmt)
  | declaration (stmt : Stmt)
  | declarations (body : List Stmt)
  | function (decl : FunctionDecl)
  | methods (decls : List FunctionDecl)

/-- The words that a phrase can be read from. -/
inductive Phrase.Reads : Phrase → List TokenKind → Prop where
  | super {span : Span} {method : String} :
      Reads (.primary (.super span method))
        [.keyword .super, .symbol .dot, .identifier method]
  | group {span : Span} {inner : Expr} {words : List TokenKind}
      (value : Reads (.expression inner) words) :
      Reads (.primary (.group span inner)) (.symbol .leftParen :: (words ++ [.symbol .rightParen]))
  | atom {span : Span} {kind : TokenKind} {value : Expr}
      (alone : Parse.atom? span kind = some value) : Reads (.primary value) [kind]
  | primary {value : Expr} {words : List TokenKind} (reads : Reads (.primary value) words) :
      Reads (.call value) words
  | applied {span : Span} {callee : Expr} {arguments : List Expr} {before after : List TokenKind}
      (head : Reads (.call callee) before) (tail : Reads (.arguments arguments) after)
      (few : arguments.length ≤ Parse.argumentLimit) :
      Reads (.call (.call span callee arguments))
        (before ++ .symbol .leftParen :: (after ++ [.symbol .rightParen]))
  | get {span : Span} {object : Expr} {name : String} {words : List TokenKind}
      (head : Reads (.call object) words) :
      Reads (.call (.get span object name)) (words ++ [.symbol .dot, .identifier name])
  | call {value : Expr} {words : List TokenKind} (reads : Reads (.call value) words) :
      Reads (.unary value) words
  | prefixed {span : Span} {kind : TokenKind} {op : UnaryOp} {operand : Expr}
      {words : List TokenKind} (sign : Parse.unaryOp? kind = some op)
      (reads : Reads (.unary operand) words) :
      Reads (.unary (.unary span op operand)) (kind :: words)
  | tightest {strength : Parse.Level} {value : Expr} {words : List TokenKind}
      (last : strength.tighter? = none) (reads : Reads (.unary value) words) :
      Reads (.operand strength value) words
  | tighter {strength tighter : Parse.Level} {value : Expr} {words : List TokenKind}
      (next : strength.tighter? = some tighter) (reads : Reads (.level tighter value) words) :
      Reads (.operand strength value) words
  | operand {strength : Parse.Level} {value : Expr} {words : List TokenKind}
      (reads : Reads (.operand strength value) words) : Reads (.level strength value) words
  | joined {strength : Parse.Level} {left right : Expr} {kind : TokenKind}
      {connective : Parse.Connective} {before after : List TokenKind}
      (head : Reads (.level strength left) before)
      (sign : strength.connective? kind = some connective)
      (tail : Reads (.operand strength right) after) :
      Reads (.level strength (connective.join left right)) (before ++ kind :: after)
  | level {value : Expr} {words : List TokenKind}
      (reads : Reads (.level .disjunction value) words) :
      Reads (.expression value) words
  | assign {span : Span} {name : String} {value : Expr} {words : List TokenKind}
      (reads : Reads (.expression value) words) :
      Reads (.expression (.assign span name value)) (.identifier name :: .symbol .assign :: words)
  | set {span : Span} {object : Expr} {name : String} {value : Expr} {before after : List TokenKind}
      (head : Reads (.call object) before) (tail : Reads (.expression value) after) :
      Reads (.expression (.set span object name value))
        (before ++ .symbol .dot :: .identifier name :: .symbol .assign :: after)
  | noArguments : Reads (.arguments []) []
  | argument {value : Expr} {words : List TokenKind} (reads : Reads (.expression value) words) :
      Reads (.arguments [value]) words
  | moreArguments {value next : Expr} {others : List Expr} {before after : List TokenKind}
      (head : Reads (.expression value) before) (tail : Reads (.arguments (next :: others)) after) :
      Reads (.arguments (value :: next :: others)) (before ++ .symbol .comma :: after)
  | absent : Reads (.optional none) []
  | present {value : Expr} {words : List TokenKind} (reads : Reads (.expression value) words) :
      Reads (.optional (some value)) words
  | letBare {span : Span} {name : String} :
      Reads (.letDecl (.letDecl span name none))
        [.keyword .let, .identifier name, .symbol .semicolon]
  | letValue {span : Span} {name : String} {value : Expr} {words : List TokenKind}
      (reads : Reads (.expression value) words) :
      Reads (.letDecl (.letDecl span name (some value)))
        (.keyword .let :: .identifier name :: .symbol .assign :: (words ++ [.symbol .semicolon]))
  | noClause : Reads (.clause none) [.symbol .semicolon]
  | letClause {stmt : Stmt} {words : List TokenKind} (reads : Reads (.letDecl stmt) words) :
      Reads (.clause (some stmt)) words
  | expressionClause {span : Span} {value : Expr} {words : List TokenKind}
      (reads : Reads (.expression value) words) :
      Reads (.clause (some (.expression span value))) (words ++ [.symbol .semicolon])
  | expression {span : Span} {value : Expr} {words : List TokenKind}
      (reads : Reads (.expression value) words) :
      Reads (.statement false (.expression span value)) (words ++ [.symbol .semicolon])
  | print {span : Span} {value : Expr} {words : List TokenKind}
      (reads : Reads (.expression value) words) :
      Reads (.statement false (.print span value))
        (.keyword .print :: (words ++ [.symbol .semicolon]))
  | return {span : Span} {value : Option Expr} {words : List TokenKind}
      (reads : Reads (.optional value) words) :
      Reads (.statement false (.return span value))
        (.keyword .return :: (words ++ [.symbol .semicolon]))
  | break {span : Span} :
      Reads (.statement false (.break span)) [.keyword .break, .symbol .semicolon]
  | block {span : Span} {body : List Stmt} {words : List TokenKind}
      (reads : Reads (.declarations body) words) :
      Reads (.statement false (.block span body))
        (.symbol .leftBrace :: (words ++ [.symbol .rightBrace]))
  | while {span : Span} {condition : Expr} {isOpen : Bool} {body : Stmt}
      {before after : List TokenKind} (head : Reads (.expression condition) before)
      (tail : Reads (.statement isOpen body) after) :
      Reads (.statement isOpen (.while span condition body))
        (.keyword .while :: .symbol .leftParen :: (before ++ .symbol .rightParen :: after))
  | for {start separator : Span} {initializer : Option Stmt} {condition increment : Option Expr}
      {isOpen : Bool} {body : Stmt} {first second third after : List TokenKind}
      (clause : Reads (.clause initializer) first) (test : Reads (.optional condition) second)
      (step : Reads (.optional increment) third) (tail : Reads (.statement isOpen body) after) :
      Reads (.statement isOpen (Parse.forLoop start initializer condition separator increment body))
        (.keyword .for :: .symbol .leftParen :: (first ++ (second ++ .symbol .semicolon ::
          (third ++ .symbol .rightParen :: after))))
  | if {span : Span} {condition : Expr} {isOpen : Bool} {thenBranch : Stmt}
      {before after : List TokenKind} (head : Reads (.expression condition) before)
      (tail : Reads (.statement isOpen thenBranch) after) :
      Reads (.statement true (.conditional span condition thenBranch none))
        (.keyword .if :: .symbol .leftParen :: (before ++ .symbol .rightParen :: after))
  | ifElse {span : Span} {condition : Expr} {isOpen : Bool} {thenBranch elseBranch : Stmt}
      {before middle after : List TokenKind} (head : Reads (.expression condition) before)
      (first : Reads (.statement false thenBranch) middle)
      (second : Reads (.statement isOpen elseBranch) after) :
      Reads (.statement isOpen (.conditional span condition thenBranch (some elseBranch)))
        (.keyword .if :: .symbol .leftParen :: (before ++ .symbol .rightParen ::
          (middle ++ .keyword .else :: after)))
  | classDecl {span : Span} {name : String} {superclass : Option SuperclassName}
      {decls : List FunctionDecl} {words : List TokenKind} (reads : Reads (.methods decls) words) :
      Reads (.declaration (.classDecl span name superclass decls))
        (.keyword .classWord :: .identifier name :: (superclassWords superclass ++
          .symbol .leftBrace :: (words ++ [.symbol .rightBrace])))
  | funDecl {span : Span} {decl : FunctionDecl} {words : List TokenKind}
      (reads : Reads (.function decl) words) :
      Reads (.declaration (.function span decl)) (.keyword .fun :: words)
  | letDecl {stmt : Stmt} {words : List TokenKind} (reads : Reads (.letDecl stmt) words) :
      Reads (.declaration stmt) words
  | statement {isOpen : Bool} {stmt : Stmt} {words : List TokenKind}
      (reads : Reads (.statement isOpen stmt) words) : Reads (.declaration stmt) words
  | noDeclarations : Reads (.declarations []) []
  | moreDeclarations {stmt : Stmt} {others : List Stmt} {before after : List TokenKind}
      (head : Reads (.declaration stmt) before) (tail : Reads (.declarations others) after) :
      Reads (.declarations (stmt :: others)) (before ++ after)
  | function {name : String} {parameters : List Parameter} {body : List Stmt} {span : Span}
      {words : List TokenKind} (few : parameters.length ≤ Parse.argumentLimit)
      (reads : Reads (.declarations body) words) :
      Reads (.function ⟨name, parameters, body, span⟩)
        (.identifier name :: .symbol .leftParen :: (parameterWords parameters ++
          .symbol .rightParen :: .symbol .leftBrace :: (words ++ [.symbol .rightBrace])))
  | noMethods : Reads (.methods []) []
  | moreMethods {decl : FunctionDecl} {others : List FunctionDecl} {before after : List TokenKind}
      (head : Reads (.function decl) before) (tail : Reads (.methods others) after) :
      Reads (.methods (decl :: others)) (before ++ after)

/-! ## First words -/

namespace TokenKind

/-- Whether the word is a name. -/
def isIdentifier : TokenKind → Bool
  | .identifier _ => true
  | _ => false

/-- Whether a call can start with the word. -/
def opensCall : TokenKind → Bool
  | .identifier _ | .number _ | .text _ => true
  | .keyword .true | .keyword .false | .keyword .nil | .keyword .this | .keyword .super => true
  | .symbol .leftParen => true
  | _ => false

/-- Whether an expression can start with the word. -/
def opensExpression (kind : TokenKind) : Bool :=
  kind.opensCall || (Parse.unaryOp? kind).isSome

/-- Whether a statement other than an expression can start with the word. -/
def opensStatement : TokenKind → Bool
  | .keyword .for | .keyword .if | .keyword .print | .keyword .return => true
  | .keyword .while | .keyword .break | .symbol .leftBrace => true
  | _ => false

/-- Whether a declaration other than a statement can start with the word. -/
def opensDeclaration : TokenKind → Bool
  | .keyword .classWord | .keyword .fun | .keyword .let => true
  | _ => false

/-- Whether a declaration can start with the word. -/
def opens (kind : TokenKind) : Bool :=
  kind.opensExpression || kind.opensStatement || kind.opensDeclaration

/-- What opens a call opens an expression. -/
theorem opensExpression_of_opensCall {kind : TokenKind} (opensIt : kind.opensCall = true) :
    kind.opensExpression = true := by
  rw [opensExpression, opensIt, Bool.true_or]

end TokenKind

/-- The words start with one of a certain sort. -/
def StartsWith (opens : TokenKind → Bool) (words : List TokenKind) : Prop :=
  ∃ kind after, words = kind :: after ∧ opens kind = true

/-- Words start as they do when more words follow. -/
theorem StartsWith.append {opens : TokenKind → Bool} {words : List TokenKind}
    (starts : StartsWith opens words) (more : List TokenKind) :
    StartsWith opens (words ++ more) := by
  obtain ⟨kind, after, rfl, opensIt⟩ := starts
  exact ⟨kind, after ++ more, rfl, opensIt⟩

/-- Words that start in one way start in any wider one. -/
theorem StartsWith.mono {opens opens' : TokenKind → Bool} {words : List TokenKind}
    (starts : StartsWith opens words) (mono : ∀ kind, opens kind = true → opens' kind = true) :
    StartsWith opens' words := by
  obtain ⟨kind, after, rfl, opensIt⟩ := starts
  exact ⟨kind, after, rfl, mono kind opensIt⟩

/-- Words that start with something are not missing. -/
theorem StartsWith.length_pos {opens : TokenKind → Bool} {words : List TokenKind}
    (starts : StartsWith opens words) : 0 < words.length := by
  obtain ⟨kind, after, rfl, -⟩ := starts
  exact Nat.succ_pos _

namespace Phrase

open TokenKind in
/-- How the words of a phrase start, for the phrases that have any. -/
def Opened : Phrase → List TokenKind → Prop
  | .primary _, words | .call _, words => StartsWith opensCall words
  | .unary _, words | .operand _ _, words | .level _ _, words | .expression _, words
  | .arguments (_ :: _), words | .optional (some _), words =>
    StartsWith opensExpression words
  | .letDecl _, words => StartsWith opensDeclaration words
  | .statement _ _,
      words => StartsWith (fun kind => kind.opensExpression || kind.opensStatement) words
  | .declaration _, words => StartsWith opens words
  | .function _, words => StartsWith isIdentifier words
  | _, _ => True

/-- A word that is an expression alone opens a call. -/
theorem opensCall_of_atom? {span : Span} {kind : TokenKind} {value : Expr}
    (alone : Parse.atom? span kind = some value) : kind.opensCall = true := by
  unfold Parse.atom? at alone
  split at alone <;> first | rfl | contradiction

/-- The sign of a unary operator opens an expression. -/
theorem opensExpression_of_unaryOp? {kind : TokenKind} {op : UnaryOp}
    (sign : Parse.unaryOp? kind = some op) : kind.opensExpression = true := by
  rw [TokenKind.opensExpression, sign, Option.isSome_some, Bool.or_true]

variable {phrase : Phrase} {words : List TokenKind}

/-- What a phrase is read from starts as such phrases do. -/
theorem Reads.opened (reads : phrase.Reads words) : phrase.Opened words := by
  induction reads with
  | super => exact ⟨_, _, rfl, rfl⟩
  | group => exact ⟨_, _, rfl, rfl⟩
  | atom alone => exact ⟨_, _, rfl, opensCall_of_atom? alone⟩
  | prefixed sign => exact ⟨_, _, rfl, opensExpression_of_unaryOp? sign⟩
  | call _ ih => exact ih.mono fun _ => TokenKind.opensExpression_of_opensCall
  | set _ _ ih _ =>
    exact (StartsWith.append ih _).mono fun _ => TokenKind.opensExpression_of_opensCall
  | primary _ ih | tightest _ _ ih | tighter _ _ ih | operand _ ih | level _ ih
  | argument _ ih | present _ ih => exact ih
  | assign => exact ⟨_, _, rfl, rfl⟩
  | applied _ _ _ ih _ | get _ ih | joined _ _ _ ih _
  | moreArguments _ _ ih _ => exact StartsWith.append ih _
  | expression _ ih => exact (StartsWith.append ih _).mono fun kind opensIt => by rw [opensIt]; rfl
  | letBare | letValue => exact ⟨_, _, rfl, rfl⟩
  | print | «return» | «break» | block | «while» | «for» | «if» | ifElse => exact ⟨_, _, rfl, rfl⟩
  | classDecl | funDecl => exact ⟨_, _, rfl, rfl⟩
  | letDecl _ ih => exact ih.mono fun kind opensIt => by rw [TokenKind.opens, opensIt, Bool.or_true]
  | statement _ ih =>
    exact ih.mono fun kind opensIt => by rw [TokenKind.opens, opensIt, Bool.true_or]
  | function => exact ⟨_, _, rfl, rfl⟩
  | noArguments | absent | noClause | letClause | expressionClause | noDeclarations
  | moreDeclarations | noMethods | moreMethods => trivial

end Phrase

/-! ## What can be assigned -/

/-- Whether the expression can stand left of an equals sign. -/
def Expr.isTarget : Expr → Bool
  | .variable _ _ | .get _ _ _ => true
  | _ => false

namespace Phrase

/-- Operands that are joined are no target of an assignment. -/
theorem isTarget_join (connective : Parse.Connective) (left right : Expr) :
    (connective.join left right).isTarget = false := by
  cases connective <;> rfl

/-- What can be assigned is a call, at whatever level it was read. -/
theorem Reads.call_of_isTarget {phrase : Phrase} {words : List TokenKind}
    (reads : phrase.Reads words)
    {strength : Parse.Level} {value : Expr} (target : value.isTarget = true)
    (role : phrase = .level strength value ∨ phrase = .operand strength value ∨
      phrase = .unary value) :
    Reads (.call value) words := by
  induction reads generalizing strength with
  | call reads =>
    rcases role with same | same | same <;> cases same
    exact reads
  | prefixed =>
    rcases role with same | same | same <;> cases same
    contradiction
  | tightest _ _ ih =>
    rcases role with same | same | same <;> cases same
    exact @ih .factor (.inr (.inr rfl))
  | tighter _ _ ih =>
    rcases role with same | same | same <;> cases same
    exact ih (.inl rfl)
  | operand _ ih =>
    rcases role with same | same | same <;> cases same
    exact ih (.inr (.inl rfl))
  | joined =>
    rcases role with same | same | same <;> cases same
    rw [isTarget_join] at target
    contradiction
  | _ => rcases role with same | same | same <;> cases same

/-- A variable is read from its name alone. -/
theorem Reads.words_of_variable {words : List TokenKind} {span : Span} {name : String}
    (reads : Reads (.call (.variable span name)) words) : words = [.identifier name] := by
  cases reads with
  | primary reads =>
    cases reads with
    | @atom place kind _ alone =>
      unfold Parse.atom? at alone
      split at alone <;> cases alone
      rfl

/-- A property is read from an object, a point and a name. -/
theorem Reads.words_of_get {words : List TokenKind} {span : Span} {object : Expr} {name : String}
    (reads : Reads (.call (.get span object name)) words) :
    ∃ before, words = before ++ [.symbol .dot, .identifier name] ∧ Reads (.call object) before := by
  cases reads with
  | get head => exact ⟨_, rfl, head⟩
  | primary reads =>
    cases reads with
    | @atom place kind _ alone =>
      unfold Parse.atom? at alone
      split at alone <;> cases alone

end Phrase

end EventScript
