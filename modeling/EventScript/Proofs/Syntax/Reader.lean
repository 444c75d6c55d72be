import EventScript.Syntax.Parse

/-!
# Readers

The rules for readers at work. `Spells` says that tokens are words in a row before the rest of them.
What the small readers do is given by equations, for runs that are to succeed, and by rules for
`Yields`, for runs that may fail: the fault then points at one of the tokens, since no reader takes
the mark of the end, so there is always a token left to point at.
-/

namespace EventScript.Parse

variable {source tokens rest : List Token} {words : List TokenKind} {α β : Type}

/-- The tokens are the words in a row, and then the rest. -/
def Spells : List TokenKind → List Token → List Token → Prop
  | [], tokens, rest => tokens = rest
  | kind :: words, tokens, rest =>
    ∃ token after, tokens = token :: after ∧ token.kind = kind ∧ Spells words after rest

/-- Words one after the other are spelled by tokens one after the other. -/
theorem spells_append {first second : List TokenKind} :
    Spells (first ++ second) tokens rest ↔
      ∃ middle, Spells first tokens middle ∧ Spells second middle rest := by
  induction first generalizing tokens with
  | nil => exact ⟨fun spells => ⟨tokens, rfl, spells⟩, fun ⟨_, same, spells⟩ => same ▸ spells⟩
  | cons kind first ih =>
    constructor
    · rintro ⟨token, after, rfl, same, spells⟩
      obtain ⟨middle, head, tail⟩ := ih.mp spells
      exact ⟨middle, ⟨token, after, rfl, same, head⟩, tail⟩
    · rintro ⟨middle, ⟨token, after, rfl, same, head⟩, tail⟩
      exact ⟨token, after, rfl, same, ih.mpr ⟨middle, head, tail⟩⟩

/-- Tokens that spell words, and then more, spell both. -/
theorem Spells.trans {first second : List TokenKind} {middle : List Token}
    (head : Spells first tokens middle) (tail : Spells second middle rest) :
    Spells (first ++ second) tokens rest :=
  spells_append.mpr ⟨middle, head, tail⟩

/-- Tokens are of the kinds that they spell. -/
theorem Spells.kinds (spells : Spells words tokens rest) :
    tokens.map Token.kind = words ++ rest.map Token.kind := by
  induction words generalizing tokens with
  | nil => exact congrArg _ spells
  | cons kind words ih =>
    obtain ⟨token, after, rfl, rfl, spells⟩ := spells
    exact congrArg _ (ih spells)

/-- Tokens spell their kinds. -/
theorem spells_kinds (tokens rest : List Token) :
    Spells (tokens.map Token.kind) (tokens ++ rest) rest := by
  induction tokens with
  | nil => rfl
  | cons token tokens ih => exact ⟨token, tokens ++ rest, rfl, rfl, ih⟩

/-! ## What the small readers do -/

section Equations

variable {token : Token} {symbol : Symbol} {keyword : Keyword}

/-- One reader after another reads what the first one leaves. -/
theorem bind_eq (reader : Parse α) (next : α → Parse β) (tokens : List Token) :
    (reader >>= next) tokens =
      match reader tokens with
      | .ok (value, rest) => next value rest
      | .error diagnostic => .error diagnostic := rfl

/-- After a reader that finds something the next one reads what is left. -/
theorem bind_ok {reader : Parse α} {next : α → Parse β} {value : α}
    (found : reader tokens = .ok (value, rest)) : (reader >>= next) tokens = next value rest := by
  rw [bind_eq, found]

/-- Looking at the kind of the next token takes nothing. -/
@[simp] theorem peek_bind (next : TokenKind → Parse β) (tokens : List Token) :
    (peek >>= next) tokens = next (current tokens).kind tokens := rfl

/-- Looking at the span of the next token takes nothing. -/
@[simp] theorem here_bind (next : Span → Parse β) (tokens : List Token) :
    (here >>= next) tokens = next (current tokens).span tokens := rfl

/-- Taking the next token leaves the others. -/
@[simp] theorem advance_bind (next : Span → Parse β) (token : Token) (rest : List Token) :
    (advance >>= next) (token :: rest) = next token.span rest := rfl

/-- A reader that gives a value takes nothing. -/
@[simp] theorem pure_eq (value : α) (tokens : List Token) :
    (pure value : Parse α) tokens = .ok (value, tokens) := rfl

/-- The next token is the first one. -/
@[simp] theorem current_cons (token : Token) (rest : List Token) :
    current (token :: rest) = token := rfl

/-- A symbol that is there is taken. -/
theorem symbol?_found (kind : token.kind = .symbol symbol) :
    symbol? symbol (token :: rest) = .ok (some token.span, rest) := by
  rw [symbol?, peek_bind, current_cons, kind]
  simp only [if_pos]
  rfl

/-- A symbol that is not there is not taken. -/
theorem symbol?_other (other : (current tokens).kind ≠ .symbol symbol) :
    symbol? symbol tokens = .ok (none, tokens) := by
  rw [symbol?, peek_bind]
  cases kind : (current tokens).kind with
  | symbol found =>
    have different : found ≠ symbol := fun same => other (kind.trans (congrArg _ same))
    simp only [if_neg different]
    rfl
  | _ => rfl

/-- A keyword that is there is taken. -/
theorem keyword?_found (kind : token.kind = .keyword keyword) :
    keyword? keyword (token :: rest) = .ok (some token.span, rest) := by
  rw [keyword?, peek_bind, current_cons, kind]
  simp only [if_pos]
  rfl

/-- A keyword that is not there is not taken. -/
theorem keyword?_other (other : (current tokens).kind ≠ .keyword keyword) :
    keyword? keyword tokens = .ok (none, tokens) := by
  rw [keyword?, peek_bind]
  cases kind : (current tokens).kind with
  | keyword found =>
    have different : found ≠ keyword := fun same => other (kind.trans (congrArg _ same))
    simp only [if_neg different]
    rfl
  | _ => rfl

/-- A symbol that must be there is taken. -/
theorem symbol_found {what : String} (kind : token.kind = .symbol symbol) :
    Parse.symbol symbol what (token :: rest) = .ok (token.span, rest) :=
  bind_ok (symbol?_found kind)

/-- A name that must be there is taken. -/
theorem name_found {name what : String} (kind : token.kind = .identifier name) :
    Parse.name what (token :: rest) = .ok ((name, token.span), rest) := by
  rw [Parse.name, peek_bind, current_cons, kind]
  rfl

/-- A symbol that comes next is noticed. -/
theorem at?_found (kind : (current tokens).kind = .symbol symbol) :
    at? symbol tokens = .ok (true, tokens) := by
  rw [at?, peek_bind, kind]
  simp only [decide_true]
  rfl

/-- A symbol that does not come next is not noticed. -/
theorem at?_other (other : (current tokens).kind ≠ .symbol symbol) :
    at? symbol tokens = .ok (false, tokens) := by
  rw [at?, peek_bind]
  cases kind : (current tokens).kind with
  | symbol found =>
    have different : found ≠ symbol := fun same => other (kind.trans (congrArg _ same))
    simp only [different, decide_false]
    rfl
  | _ => rfl

/-- Whether a body ends at the word. -/
def endsBody : TokenKind → Bool
  | .symbol .rightBrace | .endOfInput => true
  | _ => false

/-- A body ends where the next token ends it. -/
theorem atEndOfBody_eq (tokens : List Token) :
    atEndOfBody tokens = .ok (endsBody (current tokens).kind, tokens) := by
  rw [atEndOfBody, peek_bind]
  cases (current tokens).kind with
  | symbol symbol => cases symbol <;> rfl
  | _ => rfl

end Equations

/-! ## Parts that may be missing

A part of a form that may be missing is a reader of its own here, so the forms around it go on in
one way. -/

/-- Reads nothing if the symbol comes next, without taking it. -/
def unlessAt (symbol : Symbol) (missing : α) (reader : Parse α) : Parse α := do
  if ← at? symbol then pure missing else reader

/-- Reads on only if the symbol comes next, and takes it. -/
def afterSymbol (symbol : Symbol) (missing : α) (reader : Parse α) : Parse α := do
  if (← symbol? symbol).isSome then reader else pure missing

/-- The name of a superclass. -/
def superclassName : Parse (Option SuperclassName) := do
  let (superclass, span) ← name "superclass name"
  return some ⟨superclass, span⟩

/-- It does not matter how readers one after another are put together. -/
theorem bind_bind {γ : Type} (reader : Parse α) (next : α → Parse β) (last : β → Parse γ) :
    (reader >>= next) >>= last = reader >>= fun value => next value >>= last := by
  funext tokens
  rw [bind_eq, bind_eq, bind_eq]
  cases reader tokens <;> rfl

/-- What comes after a part that a symbol stands for comes after both cases. -/
theorem unlessAt_bind (symbol : Symbol) (missing : α) (reader : Parse α) (next : α → Parse β) :
    unlessAt symbol missing reader >>= next =
      at? symbol >>= fun found => if found then pure missing >>= next else reader >>= next := by
  rw [unlessAt, bind_bind]
  congr 1
  funext found
  cases found <;> rfl

/-- What comes after a part that needs a symbol comes after both cases. -/
theorem afterSymbol_bind (symbol : Symbol) (missing : α) (reader : Parse α) (next : α → Parse β) :
    afterSymbol symbol missing reader >>= next =
      symbol? symbol >>= fun found =>
        if found.isSome then reader >>= next else pure missing >>= next := by
  rw [afterSymbol, bind_bind]
  congr 1
  funext found
  cases found <;> rfl

/-- The reader of calls and properties, step by step. -/
theorem applied_succ (depth : Nat) (subject : Expr) : applied (depth + 1) subject = (do
    if (← symbol? .leftParen).isSome then
      let arguments ← unlessAt .rightParen [] (arguments depth argumentLimit)
      let close ← symbol .rightParen "')' after arguments"
      applied depth (.call (subject.span.upTo close) subject arguments)
    else if (← symbol? .dot).isSome then
      let (property, span) ← name "property name after '.'"
      applied depth (.get (subject.span.upTo span) subject property)
    else return subject) := by
  simp only [unlessAt_bind]
  rw [applied]

/-- The reader of functions, step by step. -/
theorem function_succ (depth : Nat) (role : String) : function (depth + 1) role = (do
    let (functionName, start) ← name (role ++ " name")
    let _ ← symbol .leftParen ("'(' after " ++ role ++ " name")
    let parameters ← unlessAt .rightParen [] (parameters argumentLimit)
    let _ ← symbol .rightParen "')' after parameters"
    let _ ← symbol .leftBrace ("'\x7b' before " ++ role ++ " body")
    let body ← declarations depth
    let close ← symbol .rightBrace "'\x7d' after block"
    return ⟨functionName, parameters, body, start.upTo close⟩) := by
  simp only [unlessAt_bind]
  rw [function]

/-- The reader of variable declarations, step by step. -/
theorem letStatement_eq (depth : Nat) (start : Span) : letStatement depth start = (do
    let (declared, _) ← name "variable name"
    let initializer ← afterSymbol .assign none (some <$> expression depth)
    let close ← symbol .semicolon "';' after variable declaration"
    return .letDecl (start.upTo close) declared initializer) := by
  simp only [afterSymbol_bind]
  rw [letStatement]

/-- The reader of class declarations, step by step. -/
theorem classDeclaration_succ (depth : Nat) (start : Span) :
    classDeclaration (depth + 1) start = (do
    let (className, _) ← name "class name"
    let superclass ← afterSymbol .less none superclassName
    let _ ← symbol .leftBrace "'\x7b' before class body"
    let methods ← methods depth
    let close ← symbol .rightBrace "'\x7d' after class body"
    return .classDecl (start.upTo close) className superclass methods) := by
  simp only [afterSymbol_bind, superclassName, bind_bind]
  rw [classDeclaration]
/-- The reader of `for` statements, step by step. -/
theorem forStatement_succ (depth : Nat) (start : Span) : forStatement (depth + 1) start = (do
    let _ ← symbol .leftParen "'(' after 'for'"
    let initializer ← forInitializer depth
    let condition ← unlessAt .semicolon none (some <$> expression depth)
    let separator ← symbol .semicolon "';' after loop condition"
    let increment ← unlessAt .rightParen none (some <$> expression depth)
    let _ ← symbol .rightParen "')' after for clauses"
    let body ← statement depth
    return forLoop start initializer condition separator increment body) := by
  simp only [unlessAt_bind]
  rw [forStatement]

/-- The reader of return statements, step by step. -/
theorem returnStatement_eq (depth : Nat) (start : Span) : returnStatement depth start = (do
    let value ← unlessAt .semicolon none (some <$> expression depth)
    let close ← symbol .semicolon "';' after return value"
    return .return (start.upTo close) value) := by
  simp only [unlessAt_bind]
  rw [returnStatement]

/-! ## Readers that may fail -/

/-- What is left of the tokens of a text. The mark of the end comes last. -/
structure Left (source tokens : List Token) : Prop where
  part : ∀ token ∈ tokens, token ∈ source
  marked : ∃ before mark, tokens = before ++ [mark] ∧ mark.kind = .endOfInput

/-- There is always a token left, and more of them unless it is the mark of the end. -/
theorem Left.exists_cons (left : Left source tokens) :
    ∃ token after, tokens = token :: after ∧ token ∈ source ∧
      (token.kind ≠ .endOfInput → Left source after) := by
  obtain ⟨part, before, mark, rfl, marked⟩ := left
  cases before with
  | nil =>
    exact ⟨mark, [], rfl, part mark (List.mem_singleton_self mark),
      fun other => absurd marked other⟩
  | cons token before =>
    have member := part token List.mem_cons_self
    refine ⟨token, before ++ [mark], rfl, member, fun _ => ⟨?_, before, mark, rfl, marked⟩⟩
    exact fun other inRest => part other (List.mem_cons_of_mem token inRest)

/-- The diagnostic reports a fault of syntax at one of the tokens. -/
def PointsInto (source : List Token) (diagnostic : Diagnostic) : Prop :=
  diagnostic.kind = .parser ∧ ∃ token ∈ source, diagnostic.span = some token.span

/-- The reader fails with a fault that points at one of the tokens, or what it finds and what it
leaves are as they should. -/
def Yields (source : List Token) (reader : Parse α) (tokens : List Token)
    (post : α → List Token → Prop) : Prop :=
  match reader tokens with
  | .ok (value, rest) => post value rest
  | .error diagnostic => PointsInto source diagnostic

/-- The words have been read, and some tokens are left. -/
structure Passes (source tokens : List Token) (words : List TokenKind) (rest : List Token) :
    Prop where
  spells : Spells words tokens rest
  left : Left source rest

/-- Where tokens are left, no words have been read from there. -/
theorem Left.passes (left : Left source tokens) : Passes source tokens [] tokens := ⟨rfl, left⟩

/-- Words that have been read one after the other have been read. -/
theorem Passes.trans {first second : List TokenKind} {middle : List Token}
    (head : Passes source tokens first middle) (tail : Passes source middle second rest) :
    Passes source tokens (first ++ second) rest :=
  ⟨head.spells.trans tail.spells, tail.left⟩

section Rules

variable {post : α → List Token → Prop}

/-- What a reader yields it yields in a weaker sense. -/
theorem Yields.mono {reader : Parse α} {weaker : α → List Token → Prop}
    (yields : Yields source reader tokens post)
    (mono : ∀ value rest, post value rest → weaker value rest) :
    Yields source reader tokens weaker := by
  unfold Yields at yields ⊢
  split
  · rename_i found
    rw [found] at yields
    exact mono _ _ yields
  · rename_i failed
    rw [failed] at yields
    exact yields

/-- A reader after another is judged by what it makes of what that one found. -/
theorem Yields.bind {reader : Parse α} {next : α → Parse β} {post : β → List Token → Prop}
    (yields : Yields source reader tokens fun value rest => Yields source (next value) rest post) :
    Yields source (reader >>= next) tokens post := by
  unfold Yields at yields ⊢
  rw [bind_eq]
  cases found : reader tokens with
  | ok result =>
    obtain ⟨value, rest⟩ := result
    rw [found] at yields
    exact yields
  | error diagnostic =>
    rw [found] at yields
    exact yields

/-- A reader after another is judged by what it makes of all that the first one may find. -/
theorem Yields.then {reader : Parse α} {next : α → Parse β} {found : α → List Token → Prop}
    {post : β → List Token → Prop} (yields : Yields source reader tokens found)
    (onward : ∀ value rest, found value rest → Yields source (next value) rest post) :
    Yields source (reader >>= next) tokens post :=
  .bind (yields.mono onward)

/-- A reader yields what it is seen to find. -/
theorem yields_of_eq {reader : Parse α} {value : α} (found : reader tokens = .ok (value, rest))
    (holds : post value rest) : Yields source reader tokens post := by
  unfold Yields
  rw [found]
  exact holds

/-- A reader that fails points at one of the tokens that are left. -/
theorem yields_fail {fault : SyntaxFault} (left : Left source tokens) :
    Yields source (fail fault : Parse α) tokens post := by
  obtain ⟨token, after, rfl, member, -⟩ := left.exists_cons
  exact ⟨rfl, token, member, rfl⟩

/-- A reader that fails at the span of a token points at one. -/
theorem yields_failAt {fault : SyntaxFault} {span : Span}
    (points : ∃ token ∈ source, token.span = span) :
    Yields source (failAt fault span : Parse α) tokens post := by
  obtain ⟨token, member, rfl⟩ := points
  exact ⟨rfl, token, member, rfl⟩

/-- Looking at the kind of the next token leaves the tokens. -/
theorem yields_peek {post : TokenKind → List Token → Prop}
    (holds : post (current tokens).kind tokens) :
    Yields source peek tokens post := holds

/-- Looking at the span of the next token leaves the tokens. -/
theorem yields_here {post : Span → List Token → Prop} (holds : post (current tokens).span tokens) :
    Yields source here tokens post := holds

/-- Taking the next token reads one word. -/
theorem yields_advance {kind : TokenKind} (left : Left source tokens)
    (same : (current tokens).kind = kind) (word : kind ≠ .endOfInput) :
    Yields source advance tokens fun _ rest => Passes source tokens [kind] rest := by
  obtain ⟨token, after, rfl, -, onward⟩ := left.exists_cons
  obtain rfl : token.kind = kind := same
  exact ⟨⟨token, after, rfl, rfl, rfl⟩, onward word⟩

/-- A symbol that may be there is read as a word if it is. -/
theorem yields_symbol? {post : Option Span → List Token → Prop} {symbol : Symbol}
    (left : Left source tokens)
    (found : ∀ span rest, Passes source tokens [.symbol symbol] rest →
      (∃ token ∈ source, token.span = span) → post (some span) rest)
    (other : (current tokens).kind ≠ .symbol symbol → post none tokens) :
    Yields source (symbol? symbol) tokens post := by
  by_cases kind : (current tokens).kind = .symbol symbol
  · obtain ⟨token, after, rfl, member, onward⟩ := left.exists_cons
    have here : token.kind = .symbol symbol := kind
    have passes : Passes source (token :: after) [.symbol symbol] after :=
      ⟨⟨token, after, rfl, here, rfl⟩, onward (by rw [here]; nofun)⟩
    exact yields_of_eq (symbol?_found here) (found _ after passes ⟨token, member, rfl⟩)
  · exact yields_of_eq (symbol?_other kind) (other kind)

/-- A keyword that may be there is read as a word if it is. -/
theorem yields_keyword? {post : Option Span → List Token → Prop} {keyword : Keyword}
    (left : Left source tokens)
    (found : ∀ span rest, Passes source tokens [.keyword keyword] rest → post (some span) rest)
    (other : (current tokens).kind ≠ .keyword keyword → post none tokens) :
    Yields source (keyword? keyword) tokens post := by
  by_cases kind : (current tokens).kind = .keyword keyword
  · obtain ⟨token, after, rfl, -, onward⟩ := left.exists_cons
    have here : token.kind = .keyword keyword := kind
    have passes : Passes source (token :: after) [.keyword keyword] after :=
      ⟨⟨token, after, rfl, here, rfl⟩, onward (by rw [here]; nofun)⟩
    exact yields_of_eq (keyword?_found here) (found _ after passes)
  · exact yields_of_eq (keyword?_other kind) (other kind)

/-- A symbol that must be there is read as a word. -/
theorem yields_symbol {symbol : Symbol} {what : String} (left : Left source tokens) :
    Yields source (Parse.symbol symbol what) tokens
      fun _ rest => Passes source tokens [.symbol symbol] rest := by
  refine .bind (yields_symbol? left ?_ ?_)
  · exact fun span rest passes _ => passes
  · exact fun _ => yields_fail left

/-- A name that must be there is read as a word. -/
theorem yields_name {what : String} (left : Left source tokens) :
    Yields source (Parse.name what) tokens
      fun found rest => Passes source tokens [.identifier found.1] rest := by
  refine .bind (yields_peek ?_)
  split
  · rename_i name kind
    apply (yields_advance left kind nofun).then
    exact fun span rest passes => passes
  · exact yields_fail left

/-- What is missing before a symbol reads no words. -/
theorem yields_unlessAt {post : α → List Token → Prop} {symbol : Symbol} {missing : α}
    {reader : Parse α} (absent : post missing tokens)
    (present : Yields source reader tokens post) :
    Yields source (unlessAt symbol missing reader) tokens post := by
  by_cases kind : (current tokens).kind = .symbol symbol
  · exact .bind (yields_of_eq (at?_found kind) absent)
  · exact .bind (yields_of_eq (at?_other kind) present)

/-- What is missing without a symbol reads no words. -/
theorem yields_afterSymbol {post : α → List Token → Prop} {symbol : Symbol} {missing : α}
    {reader : Parse α} (left : Left source tokens) (absent : post missing tokens)
    (present : ∀ rest, Passes source tokens [.symbol symbol] rest →
      Yields source reader rest post) :
    Yields source (afterSymbol symbol missing reader) tokens post :=
  .bind (yields_symbol? left (fun _ rest passes _ => present rest passes) fun _ => absent)

end Rules

end EventScript.Parse
