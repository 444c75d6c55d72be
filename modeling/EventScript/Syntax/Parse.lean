import EventScript.Syntax
import EventScript.Token.Scan

/-!
# Reading programs

`Program.ofTokens` reads a program by recursive descent, and `Program.ofText` scans first. A
reader of some form, a `Parse`, takes tokens off the front of a list and leaves the rest.
Operators are read by `Level`s of binding strength, all of which associate to the left; assignment
and the operators on one value associate to the right. A `for` statement is read as the block and
`while` loop that it means.

The mutually recursive readers take a bound on their depth. `Program.ofTokens` computes it from
the number of tokens, generously enough never to be reached.
-/

namespace EventScript

/-- Why tokens form no program. -/
inductive SyntaxFault where
  /-- Something else should stand at this token. -/
  | expected (what : String)
  | tooManyParameters
  | tooManyArguments
  /-- What stands left of an equals sign cannot be assigned. -/
  | invalidTarget
deriving DecidableEq, Inhabited

namespace SyntaxFault

/-- The wording of the fault. -/
def message : SyntaxFault → String
  | expected what => "Expect " ++ what ++ "."
  | tooManyParameters => "Can't have more than 255 parameters."
  | tooManyArguments => "Can't have more than 255 arguments."
  | invalidTarget => "Invalid assignment target."

/-- The fault as a diagnostic that points at `span`. -/
def diagnostic (fault : SyntaxFault) (span : Span) : Diagnostic :=
  { kind := .parser, message := fault.message, span := some span }

end SyntaxFault

/-- How a diagnostic describes the token it points at. -/
def Token.description (token : Token) : String :=
  match token.kind with
  | .endOfInput => "at end"
  | _ => "at '" ++ token.lexeme ++ "'"

/-- A reader takes tokens off the front and leaves the rest, or fails. -/
def Parse (α : Type) : Type := List Token → Except Diagnostic (α × List Token)

namespace Parse

@[inline] instance : Monad Parse where
  pure value := fun tokens => .ok (value, tokens)
  bind reader next := fun tokens =>
    match reader tokens with
    | .ok (value, rest) => next value rest
    | .error diagnostic => .error diagnostic

/-- The token to be read next. -/
def current (tokens : List Token) : Token :=
  tokens.headD ⟨.endOfInput, "", default⟩

/-- Fails at the next token. -/
def fail {α : Type} (fault : SyntaxFault) : Parse α := fun tokens =>
  let token := current tokens
  .error ((fault.diagnostic token.span).withNote token.description)

/-- Fails at a span that was read before. -/
def failAt {α : Type} (fault : SyntaxFault) (span : Span) : Parse α := fun _ =>
  .error (fault.diagnostic span)

/-- The kind of the next token. -/
def peek : Parse TokenKind := fun tokens =>
  .ok ((current tokens).kind, tokens)

/-- The span of the next token. -/
def here : Parse Span := fun tokens =>
  .ok ((current tokens).span, tokens)

/-- Takes the next token, whatever it is, and gives its span. -/
def advance : Parse Span := fun tokens =>
  .ok ((current tokens).span, tokens.tail)

/-- Takes the symbol if it comes next. -/
def symbol? (symbol : Symbol) : Parse (Option Span) := do
  match ← peek with
  | .symbol found => if found = symbol then return some (← advance) else return none
  | _ => return none

/-- Takes the reserved word if it comes next. -/
def keyword? (keyword : Keyword) : Parse (Option Span) := do
  match ← peek with
  | .keyword found => if found = keyword then return some (← advance) else return none
  | _ => return none

/-- Takes the symbol, or fails for want of `what`. -/
def symbol (symbol : Symbol) (what : String) : Parse Span := do
  match ← symbol? symbol with
  | some span => return span
  | none => fail (.expected what)

/-- Takes a name, or fails for want of `what`. -/
def name (what : String) : Parse (String × Span) := do
  match ← peek with
  | .identifier name => return (name, ← advance)
  | _ => fail (.expected what)

/-- Whether the symbol comes next. -/
def at? (symbol : Symbol) : Parse Bool := do
  match ← peek with
  | .symbol found => return found = symbol
  | _ => return false

/-- Whether nothing is left, or the closing brace of a body comes next. -/
def atEndOfBody : Parse Bool := do
  match ← peek with
  | .symbol found => return found = .rightBrace
  | .endOfInput => return true
  | _ => return false

/-- The most parameters or arguments there may be. -/
def argumentLimit : Nat := 255

/-- An operator between two expressions. -/
inductive Connective where
  | binary (op : BinaryOp)
  | logical (op : LogicalOp)
deriving DecidableEq, Inhabited

/-- The expression that joins two others. -/
def Connective.join (connective : Connective) (left right : Expr) : Expr :=
  match connective with
  | binary op => .binary (left.span.upTo right.span) op left right
  | logical op => .logical (left.span.upTo right.span) op left right

/-- Levels of binding strength, the loosest first. -/
inductive Level where
  | disjunction | conjunction | equality | comparison | term | factor
deriving DecidableEq, Inhabited

namespace Level

/-- The next tighter level. -/
def tighter? : Level → Option Level
  | disjunction => some conjunction
  | conjunction => some equality
  | equality => some comparison
  | comparison => some term
  | term => some factor
  | factor => none

/-- The operator of this level that a token denotes. -/
def connective? : Level → TokenKind → Option Connective
  | disjunction, .keyword .or => some (.logical .or)
  | conjunction, .keyword .and => some (.logical .and)
  | equality, .symbol .equalEqual => some (.binary .equal)
  | equality, .symbol .bangEqual => some (.binary .notEqual)
  | comparison, .symbol .lessEqual => some (.binary .lessEqual)
  | comparison, .symbol .greaterEqual => some (.binary .greaterEqual)
  | comparison, .symbol .less => some (.binary .less)
  | comparison, .symbol .greater => some (.binary .greater)
  | term, .symbol .plus => some (.binary .add)
  | term, .symbol .minus => some (.binary .subtract)
  | factor, .symbol .star => some (.binary .multiply)
  | factor, .symbol .slash => some (.binary .divide)
  | _, _ => none

end Level

/-- The operator on one value that a token denotes. -/
def unaryOp? : TokenKind → Option UnaryOp
  | .symbol .minus => some .negate
  | .symbol .bang => some .not
  | _ => none

/-- The assignment of `value` to what stands left of the equals sign at `sign`. -/
def assignTo (target value : Expr) (sign : Span) : Parse Expr :=
  let span := target.span.upTo value.span
  match target with
  | .variable _ name => pure (.assign span name value)
  | .get _ object name => pure (.set span object name value)
  | _ => failAt .invalidTarget sign

/-- The expression that a token stands for by itself. -/
def atom? (span : Span) : TokenKind → Option Expr
  | .keyword .true => some (.literal span (.bool true))
  | .keyword .false => some (.literal span (.bool false))
  | .keyword .nil => some (.literal span .nil)
  | .keyword .this => some (.this span)
  | .number value => some (.literal span (.number value))
  | .text value => some (.literal span (.text value))
  | .identifier name => some (.variable span name)
  | _ => none

mutual

/-- An assignment, or an expression of the loosest level. -/
def expression : Nat → Parse Expr
  | 0 => fail (.expected "expression")
  | depth + 1 => do
    let target ← level depth .disjunction
    match ← symbol? .assign with
    | none => return target
    | some sign =>
      let value ← expression depth
      assignTo target value sign

/-- Operands of the next tighter level, joined by the operators of this one. -/
def level : Nat → Level → Parse Expr
  | 0, _ => fail (.expected "expression")
  | depth + 1, strength => do
    let left ← operand depth strength
    joined depth strength left

/-- What the operators of a level join. -/
def operand : Nat → Level → Parse Expr
  | 0, _ => fail (.expected "expression")
  | depth + 1, strength =>
    match strength.tighter? with
    | some tighter => level depth tighter
    | none => unary depth

/-- The operators of a level that follow `left`, with their right operands. -/
def joined : Nat → Level → Expr → Parse Expr
  | 0, _, _ => fail (.expected "expression")
  | depth + 1, strength, left => do
    match strength.connective? (← peek) with
    | none => return left
    | some connective =>
      let _ ← advance
      let right ← operand depth strength
      joined depth strength (connective.join left right)

/-- An operator on one value before its operand, or a call. -/
def unary : Nat → Parse Expr
  | 0 => fail (.expected "expression")
  | depth + 1 => do
    match unaryOp? (← peek) with
    | none => call depth
    | some op =>
      let sign ← advance
      let operand ← unary depth
      return .unary (sign.upTo operand.span) op operand

/-- A primary expression with the calls and properties that follow it. -/
def call : Nat → Parse Expr
  | 0 => fail (.expected "expression")
  | depth + 1 => do
    let callee ← primary depth
    applied depth callee

/-- The calls and properties that follow `subject`. -/
def applied : Nat → Expr → Parse Expr
  | 0, _ => fail (.expected "expression")
  | depth + 1, subject => do
    if (← symbol? .leftParen).isSome then
      let arguments ← if ← at? .rightParen then pure [] else arguments depth argumentLimit
      let close ← symbol .rightParen "')' after arguments"
      applied depth (.call (subject.span.upTo close) subject arguments)
    else if (← symbol? .dot).isSome then
      let (property, span) ← name "property name after '.'"
      applied depth (.get (subject.span.upTo span) subject property)
    else return subject

/-- One or more arguments, at most as many as `allowed`. -/
def arguments : Nat → Nat → Parse (List Expr)
  | 0, _ => fail (.expected "expression")
  | _ + 1, 0 => fail .tooManyArguments
  | depth + 1, allowed + 1 => do
    let first ← expression depth
    if (← symbol? .comma).isSome then
      return first :: (← arguments depth allowed)
    else return [first]

/-- A literal, a name, `this`, `super` with a method, or an expression in brackets. -/
def primary : Nat → Parse Expr
  | 0 => fail (.expected "expression")
  | depth + 1 => do
    let kind ← peek
    match kind with
    | .keyword .super =>
      let start ← advance
      let _ ← symbol .dot "'.' after 'super'"
      let (method, span) ← name "superclass method name"
      return .super (start.upTo span) method
    | .symbol .leftParen =>
      let start ← advance
      let inner ← expression depth
      let close ← symbol .rightParen "')' after expression"
      return .group (start.upTo close) inner
    | _ =>
      match atom? (← here) kind with
      | none => fail (.expected "expression")
      | some atom =>
        let _ ← advance
        return atom

end

/-- One or more parameters, at most as many as `allowed`. -/
def parameters : Nat → Parse (List Parameter)
  | 0 => fail .tooManyParameters
  | allowed + 1 => do
    let (parameter, span) ← name "parameter name"
    if (← symbol? .comma).isSome then
      return ⟨parameter, span⟩ :: (← parameters allowed)
    else return [⟨parameter, span⟩]

/-- An expression and the semicolon that ends its statement. -/
def expressionStatement (depth : Nat) : Parse Stmt := do
  let value ← expression depth
  let close ← symbol .semicolon "';' after expression"
  return .expression (value.span.upTo close) value

/-- What follows `let`, which starts at `start`. -/
def letStatement (depth : Nat) (start : Span) : Parse Stmt := do
  let (declared, _) ← name "variable name"
  let initializer ← if (← symbol? .assign).isSome then some <$> expression depth else pure none
  let close ← symbol .semicolon "';' after variable declaration"
  return .letDecl (start.upTo close) declared initializer

/-- What follows `print`. -/
def printStatement (depth : Nat) (start : Span) : Parse Stmt := do
  let value ← expression depth
  let close ← symbol .semicolon "';' after value"
  return .print (start.upTo close) value

/-- What follows `return`. -/
def returnStatement (depth : Nat) (start : Span) : Parse Stmt := do
  let value ← if ← at? .semicolon then pure none else some <$> expression depth
  let close ← symbol .semicolon "';' after return value"
  return .return (start.upTo close) value

/-- What follows `break`. -/
def breakStatement (start : Span) : Parse Stmt := do
  let close ← symbol .semicolon "';' after 'break'"
  return .break (start.upTo close)

/-- The first clause of a `for` statement, up to its semicolon. -/
def forInitializer (depth : Nat) : Parse (Option Stmt) := do
  if (← symbol? .semicolon).isSome then return none
  else match ← keyword? .let with
    | some start => return some (← letStatement depth start)
    | none => return some (← expressionStatement depth)

/-- The loop that a `for` statement means. The increment follows the body in a block of its own, a
missing condition is true, and the initializer precedes the loop in a block around both. -/
def forLoop (start : Span) (initializer : Option Stmt) (condition : Option Expr) (separator : Span)
    (increment : Option Expr) (body : Stmt) : Stmt :=
  let span := start.upTo body.span
  let round := match increment with
    | some step => .block body.span [body, .expression step.span step]
    | none => body
  let condition := condition.getD (.literal separator (.bool true))
  let loop := Stmt.while span condition round
  match initializer with
  | some first => .block span [first, loop]
  | none => loop

mutual

/-- A declaration or a statement. -/
def declaration : Nat → Parse Stmt
  | 0 => fail (.expected "expression")
  | depth + 1 => do
    match ← peek with
    | .keyword .classWord => classDeclaration depth (← advance)
    | .keyword .fun =>
      let start ← advance
      let decl ← function depth "function"
      return .function (start.upTo decl.span) decl
    | .keyword .let => letStatement depth (← advance)
    | _ => statement depth

/-- What follows `class`. -/
def classDeclaration : Nat → Span → Parse Stmt
  | 0, _ => fail (.expected "expression")
  | depth + 1, start => do
    let (className, _) ← name "class name"
    let superclass ← if (← symbol? .less).isSome then
        let (superclass, span) ← name "superclass name"
        pure (some ⟨superclass, span⟩)
      else pure none
    let _ ← symbol .leftBrace "'\x7b' before class body"
    let methods ← methods depth
    let close ← symbol .rightBrace "'\x7d' after class body"
    return .classDecl (start.upTo close) className superclass methods

/-- The methods up to the end of a class body. -/
def methods : Nat → Parse (List FunctionDecl)
  | 0 => fail (.expected "expression")
  | depth + 1 => do
    if ← atEndOfBody then return []
    else
      let first ← function depth "method"
      return first :: (← methods depth)

/-- The name, parameters and body of a function or method. -/
def function : Nat → String → Parse FunctionDecl
  | 0, _ => fail (.expected "expression")
  | depth + 1, role => do
    let (functionName, start) ← name (role ++ " name")
    let _ ← symbol .leftParen ("'(' after " ++ role ++ " name")
    let parameters ← if ← at? .rightParen then pure [] else parameters argumentLimit
    let _ ← symbol .rightParen "')' after parameters"
    let _ ← symbol .leftBrace ("'\x7b' before " ++ role ++ " body")
    let body ← declarations depth
    let close ← symbol .rightBrace "'\x7d' after block"
    return ⟨functionName, parameters, body, start.upTo close⟩

/-- The declarations up to the end of a body. -/
def declarations : Nat → Parse (List Stmt)
  | 0 => fail (.expected "expression")
  | depth + 1 => do
    if ← atEndOfBody then return []
    else
      let first ← declaration depth
      return first :: (← declarations depth)

/-- A statement other than a declaration. -/
def statement : Nat → Parse Stmt
  | 0 => fail (.expected "expression")
  | depth + 1 => do
    match ← peek with
    | .keyword .for => forStatement depth (← advance)
    | .keyword .if => ifStatement depth (← advance)
    | .keyword .print => printStatement depth (← advance)
    | .keyword .return => returnStatement depth (← advance)
    | .keyword .while => whileStatement depth (← advance)
    | .keyword .break => breakStatement (← advance)
    | .symbol .leftBrace =>
      let start ← advance
      let body ← declarations depth
      let close ← symbol .rightBrace "'\x7d' after block"
      return .block (start.upTo close) body
    | _ => expressionStatement depth

/-- What follows `for`. -/
def forStatement : Nat → Span → Parse Stmt
  | 0, _ => fail (.expected "expression")
  | depth + 1, start => do
    let _ ← symbol .leftParen "'(' after 'for'"
    let initializer ← forInitializer depth
    let condition ← if ← at? .semicolon then pure none else some <$> expression depth
    let separator ← symbol .semicolon "';' after loop condition"
    let increment ← if ← at? .rightParen then pure none else some <$> expression depth
    let _ ← symbol .rightParen "')' after for clauses"
    let body ← statement depth
    return forLoop start initializer condition separator increment body

/-- What follows `if`. An `else` belongs to the nearest `if`. -/
def ifStatement : Nat → Span → Parse Stmt
  | 0, _ => fail (.expected "expression")
  | depth + 1, start => do
    let _ ← symbol .leftParen "'(' after 'if'"
    let condition ← expression depth
    let _ ← symbol .rightParen "')' after if condition"
    let thenBranch ← statement depth
    match ← keyword? .else with
    | none => return .conditional (start.upTo thenBranch.span) condition thenBranch none
    | some _ =>
      let elseBranch ← statement depth
      return .conditional (start.upTo elseBranch.span) condition thenBranch (some elseBranch)

/-- What follows `while`. -/
def whileStatement : Nat → Span → Parse Stmt
  | 0, _ => fail (.expected "expression")
  | depth + 1, start => do
    let _ ← symbol .leftParen "'(' after 'while'"
    let condition ← expression depth
    let _ ← symbol .rightParen "')' after condition"
    let body ← statement depth
    return .while (start.upTo body.span) condition body

end

/-- The declarations up to the end of the text. -/
def program : Nat → Parse Program
  | 0 => fail (.expected "expression")
  | depth + 1 => do
    match ← peek with
    | .endOfInput => return []
    | _ =>
      let first ← declaration depth
      return first :: (← program depth)

/-- A depth that reading `count` tokens never exceeds. -/
def depthFor (count : Nat) : Nat := 32 * (count + 1)

end Parse

namespace Program

/-- The program that the tokens form, or the first fault. -/
def ofTokens (tokens : List Token) : Except Diagnostic Program :=
  match Parse.program (Parse.depthFor tokens.length) tokens with
  | .ok (program, _) => .ok program
  | .error diagnostic => .error diagnostic

/-- The program that a text forms, or the first fault of its tokens, or else of its syntax. -/
def ofText (source : String) : Except Diagnostic Program :=
  match Token.ofText source with
  | .ok tokens => ofTokens tokens
  | .error diagnostic => .error diagnostic

end Program

end EventScript
