import EventScript.Proofs.Syntax.Extent

/-!
# How the parts of a program are laid out

A part of a program that has a span, a `Piece`, is written as a row of words and of smaller pieces.
`Piece.Layout` has one rule for each form, and `ForText` lays out a `for` statement, which is
written otherwise than the loop that it means is built. `Written` says that tokens write out such a
row, all the way down. Which forms may stand as an operand of which, the rules leave to
`Phrase.Reads`; what they add to it is where each piece is written, and which span it has.

The span of a piece runs from the first of the tokens that write it to the last (`Written.of`), as
it does so in each layout (`Piece.Layout.ends`, `ForText.ends`).
-/

namespace EventScript

/-- A part of a program that has a span. -/
inductive Piece where
  | expr (value : Expr)
  | stmt (form : Stmt)
  | function (decl : FunctionDecl)
  | parameter (declared : Parameter)
  | superclass (named : SuperclassName)

namespace Piece

/-- The span of a piece of syntax. -/
def span : Piece → Span
  | expr value => value.span
  | stmt form => form.span
  | function decl => decl.span
  | parameter declared => declared.span
  | superclass named => named.span

/-- What a piece directly consists of. -/
def children : Piece → List Piece
  | expr value => value.parts.map expr
  | stmt form => form.superclass?.toList.map superclass ++ form.exprs.map expr ++
      form.parts.map stmt ++
      form.functions.map function
  | function decl => decl.parameters.map parameter ++ decl.body.map stmt
  | parameter _ | superclass _ => []

end Piece

/-- What pieces are written as: words, each with its span, and other pieces. -/
inductive Item where
  | word (kind : TokenKind) (span : Span)
  | piece (inner : Piece)

namespace Item

/-- The span of an item. -/
def span : Item → Span
  | word _ span => span
  | piece inner => inner.span

/-- A piece behind a word, or neither of them. -/
def behind (kind : TokenKind) (sign : Span) : Option Piece → List Item
  | some inner => [word kind sign, piece inner]
  | none => []

/-- The first clause of a `for` statement. A semicolon stands for a missing one. -/
def clause (absent : Span) : Option Stmt → List Item
  | some first => [piece (.stmt first)]
  | none => [word (.symbol .semicolon) absent]

/-- Pieces with commas between them. -/
inductive Listed : List Piece → List Item → Prop where
  | none : Listed [] []
  | last (piece : Piece) : Listed [piece] [.piece piece]
  | more (piece : Piece) (comma : Span) {next : Piece} {others : List Piece} {items : List Item}
      (listed : Listed (next :: others) items) :
      Listed (piece :: next :: others) (.piece piece :: .word (.symbol .comma) comma :: items)

end Item

open Item (Listed)

/-- The words and pieces that a piece is written as, with one rule for each form. -/
inductive Piece.Layout : Piece → List Item → Prop where
  | atom {span : Span} {kind : TokenKind} {value : Expr}
      (alone : Parse.atom? span kind = some value) :
      Layout (.expr value) [.word kind span]
  | super (start dot named : Span) (method : String) :
      Layout (.expr (.super (start.upTo named) method))
        [.word (.keyword .super) start, .word (.symbol .dot) dot, .word (.identifier method) named]
  | group (opening closing : Span) (inner : Expr) :
      Layout (.expr (.group (opening.upTo closing) inner))
        [.word (.symbol .leftParen) opening, .piece (.expr inner),
          .word (.symbol .rightParen) closing]
  | call (callee : Expr) (opening closing : Span) {arguments : List Expr} {items : List Item}
      (listed : Listed (arguments.map .expr) items) :
      Layout (.expr (.call (callee.span.upTo closing) callee arguments))
        (.piece (.expr callee) :: .word (.symbol .leftParen) opening ::
          (items ++ [.word (.symbol .rightParen) closing]))
  | get (object : Expr) (dot named : Span) (name : String) :
      Layout (.expr (.get (object.span.upTo named) object name))
        [.piece (.expr object), .word (.symbol .dot) dot, .word (.identifier name) named]
  | unary {kind : TokenKind} {op : UnaryOp} (denotes : Parse.unaryOp? kind = some op) (sign : Span)
      (operand : Expr) :
      Layout (.expr (.unary (sign.upTo operand.span) op operand))
        [.word kind sign, .piece (.expr operand)]
  | join {strength : Parse.Level} {kind : TokenKind} {connective : Parse.Connective}
      (denotes : strength.connective? kind = some connective) (left : Expr) (sign : Span)
      (right : Expr) :
      Layout (.expr (connective.join left right))
        [.piece (.expr left), .word kind sign, .piece (.expr right)]
  | assign (named sign : Span) (name : String) (value : Expr) :
      Layout (.expr (.assign (named.upTo value.span) name value))
        [.word (.identifier name) named, .word (.symbol .assign) sign, .piece (.expr value)]
  | set (object : Expr) (dot named sign : Span) (name : String) (value : Expr) :
      Layout (.expr (.set (object.span.upTo value.span) object name value))
        [.piece (.expr object), .word (.symbol .dot) dot, .word (.identifier name) named,
          .word (.symbol .assign) sign, .piece (.expr value)]
  | parameter (name : String) (span : Span) :
      Layout (.parameter ⟨name, span⟩) [.word (.identifier name) span]
  | superclass (name : String) (span : Span) :
      Layout (.superclass ⟨name, span⟩) [.word (.identifier name) span]
  | function (name : String) (named opening closing entry close : Span)
      {parameters : List Parameter}
      {items : List Item} (listed : Listed (parameters.map .parameter) items) (body : List Stmt) :
      Layout (.function ⟨name, parameters, body, named.upTo close⟩)
        (.word (.identifier name) named :: .word (.symbol .leftParen) opening ::
          (items ++ .word (.symbol .rightParen) closing :: .word (.symbol .leftBrace) entry ::
            (body.map (fun inner => .piece (.stmt inner)) ++ [.word (.symbol .rightBrace) close])))
  | letDecl (start named sign close : Span) (name : String) (initializer : Option Expr) :
      Layout (.stmt (.letDecl (start.upTo close) name initializer))
        (.word (.keyword .let) start :: .word (.identifier name) named ::
          (Item.behind (.symbol .assign) sign (initializer.map .expr) ++
            [.word (.symbol .semicolon) close]))
  | funDecl (start : Span) (decl : FunctionDecl) :
      Layout (.stmt (.function (start.upTo decl.span) decl))
        [.word (.keyword .fun) start, .piece (.function decl)]
  | classDecl (start named sign entry close : Span) (name : String) (above : Option SuperclassName)
      (methods : List FunctionDecl) :
      Layout (.stmt (.classDecl (start.upTo close) name above methods))
        (.word (.keyword .classWord) start :: .word (.identifier name) named ::
          (Item.behind (.symbol .less) sign (above.map .superclass) ++ .word (.symbol .leftBrace)
            entry ::
            (methods.map (fun method => .piece (.function method)) ++
              [.word (.symbol .rightBrace) close])))
  | expression (value : Expr) (close : Span) :
      Layout (.stmt (.expression (value.span.upTo close) value))
        [.piece (.expr value), .word (.symbol .semicolon) close]
  | print (start close : Span) (value : Expr) :
      Layout (.stmt (.print (start.upTo close) value))
        [.word (.keyword .print) start, .piece (.expr value), .word (.symbol .semicolon) close]
  | block (entry close : Span) (body : List Stmt) :
      Layout (.stmt (.block (entry.upTo close) body))
        (.word (.symbol .leftBrace) entry ::
          (body.map (fun inner => .piece (.stmt inner)) ++ [.word (.symbol .rightBrace) close]))
  | ifThen (start opening closing : Span) (condition : Expr) (thenBranch : Stmt) :
      Layout (.stmt (.conditional (start.upTo thenBranch.span) condition thenBranch none))
        [.word (.keyword .if) start, .word (.symbol .leftParen) opening, .piece (.expr condition),
          .word (.symbol .rightParen) closing, .piece (.stmt thenBranch)]
  | ifElse (start opening closing between : Span) (condition : Expr)
      (thenBranch elseBranch : Stmt) :
      Layout (.stmt (.conditional (start.upTo elseBranch.span) condition thenBranch
        (some elseBranch)))
        [.word (.keyword .if) start, .word (.symbol .leftParen) opening, .piece (.expr condition),
          .word (.symbol .rightParen) closing, .piece (.stmt thenBranch),
            .word (.keyword .else) between,
          .piece (.stmt elseBranch)]
  | while (start opening closing : Span) (condition : Expr) (body : Stmt) :
      Layout (.stmt (.while (start.upTo body.span) condition body))
        [.word (.keyword .while) start, .word (.symbol .leftParen) opening,
          .piece (.expr condition),
          .word (.symbol .rightParen) closing, .piece (.stmt body)]
  | return (start close : Span) (value : Option Expr) :
      Layout (.stmt (.return (start.upTo close) value))
        (.word (.keyword .return) start ::
          (value.toList.map (fun given => .piece (.expr given)) ++
            [.word (.symbol .semicolon) close]))
  | break (start close : Span) :
      Layout (.stmt (.break (start.upTo close)))
        [.word (.keyword .break) start, .word (.symbol .semicolon) close]

/-- A `for` statement as it is written: its clauses, its body, and the spans of its words. -/
structure ForText where
  start : Span
  opening : Span
  initializer : Option Stmt
  /-- The semicolon that stands for a missing initializer. -/
  absent : Span
  condition : Option Expr
  /-- The semicolon between condition and increment. -/
  separator : Span
  increment : Option Expr
  closing : Span
  body : Stmt

namespace ForText

/-- The words and pieces of a `for` statement, as they follow one another. -/
def items (text : ForText) : List Item :=
  .word (.keyword .for) text.start :: .word (.symbol .leftParen) text.opening ::
    (Item.clause text.absent text.initializer ++
      (text.condition.toList.map (fun condition => .piece (.expr condition)) ++
        .word (.symbol .semicolon) text.separator ::
        (text.increment.toList.map (fun step => .piece (.expr step)) ++
          [.word (.symbol .rightParen) text.closing, .piece (.stmt text.body)])))

/-- The statement that a `for` statement is read as. -/
def stmt (text : ForText) : Stmt :=
  Parse.forLoop text.start text.initializer text.condition text.separator text.increment text.body

/-- What the loop of a `for` statement tests. -/
def test (text : ForText) : Expr := text.condition.getD (.literal text.separator (.bool true))

/-- What the loop of a `for` statement goes through in each round: the body, and the increment after
it. -/
def round (text : ForText) : Stmt :=
  match text.increment with
  | some step => .block text.body.span [text.body, .expression step.span step]
  | none => text.body

/-- The loop of a `for` statement, without its initializer. -/
def loop (text : ForText) : Stmt := .while (text.start.upTo text.body.span) text.test text.round

/-- A `for` statement is a block around its initializer and its loop, or the loop alone. -/
theorem stmt_eq (text : ForText) :
    text.stmt = match text.initializer with
      | some first => .block (text.start.upTo text.body.span) [first, text.loop]
      | none => text.loop := rfl

end ForText

/-- The tokens write out the items one after the other. -/
inductive Written : List Item → List Token → Prop where
  | nil : Written [] []
  | word {token : Token} {items : List Item} {rest : List Token} (behind : Written items rest) :
      Written (.word token.kind token.span :: items) (token :: rest)
  | piece {piece : Piece} {parts items : List Item} {own rest : List Token}
      (layout : piece.Layout parts) (inside : Written parts own) (behind : Written items rest) :
      Written (.piece piece :: items) (own ++ rest)
  | loop {text : ForText} {items : List Item} {own rest : List Token}
      (inside : Written text.items own)
      (behind : Written items rest) : Written (.piece (.stmt text.stmt) :: items) (own ++ rest)

/-- The span runs from the start of the first of the tokens to the end of the last, on the line of
the first. -/
def Span.Of (own : List Token) (span : Span) : Prop :=
  ∃ first ∈ own.head?, ∃ last ∈ own.getLast?, span = first.span.upTo last.span

/-! ## Rows of items -/

section Rows

variable {piece : Piece} {items first second : List Item} {own own' : List Token}

/-- Items one after the other are written in tokens one after the other. -/
theorem Written.append (before : Written first own) (after : Written second own') :
    Written (first ++ second) (own ++ own') := by
  induction before with
  | nil => exact after
  | word _ ih => exact .word ih
  | piece layout inside _ _ ih => exact List.append_assoc _ _ own' ▸ .piece layout inside ih
  | loop inside _ _ ih => exact List.append_assoc _ _ own' ▸ .loop inside ih

/-- An item in front of a row, with nothing behind it. -/
theorem Written.row {item : Item} (first : Written [item] own) (others : Written items own') :
    Written (item :: items) (own ++ (own' ++ [])) := by
  rw [List.append_nil]
  exact first.append others

/-- A row in two parts is written in two parts. -/
theorem Written.split (written : Written (first ++ second) own) :
    ∃ before after, own = before ++ after ∧ Written first before ∧ Written second after := by
  induction first generalizing own with
  | nil => exact ⟨[], own, rfl, .nil, written⟩
  | cons item first ih =>
    cases written with
    | word behind =>
      obtain ⟨before, after, rfl, head, tail⟩ := ih behind
      exact ⟨_ :: before, after, rfl, .word head, tail⟩
    | @piece _ _ _ mine _ layout inside behind =>
      obtain ⟨before, after, rfl, head, tail⟩ := ih behind
      exact ⟨mine ++ before, after, (List.append_assoc ..).symm, .piece layout inside head, tail⟩
    | @loop _ _ mine _ inside behind =>
      obtain ⟨before, after, rfl, head, tail⟩ := ih behind
      exact ⟨mine ++ before, after, (List.append_assoc ..).symm, .loop inside head, tail⟩

/-- A piece that is laid out by itself. -/
theorem Piece.Layout.written (layout : piece.Layout items) (inside : Written items own) :
    Written [.piece piece] own :=
  List.append_nil own ▸ .piece layout inside .nil

/-- A `for` statement that is laid out by itself. -/
theorem Written.forText {text : ForText} (inside : Written text.items own) :
    Written [.piece (.stmt text.stmt)] own :=
  List.append_nil own ▸ .loop inside .nil

/-- Some consecutive tokens write a piece that stands in a row. -/
theorem Written.exists_of_mem (written : Written items own) (member : .piece piece ∈ items) :
    ∃ mine, mine <:+: own ∧ Written [.piece piece] mine := by
  obtain ⟨first, second, rfl⟩ := List.append_of_mem member
  obtain ⟨before, after, rfl, -, tail⟩ := written.split
  have parted : Written ([.piece piece] ++ second) after := tail
  obtain ⟨mine, rest, rfl, mineWritten, -⟩ := parted.split
  exact ⟨mine, ⟨before, rest, List.append_assoc ..⟩, mineWritten⟩

/-- No items are written in no tokens. -/
theorem Written.eq_nil (written : Written [] own) : own = [] := by
  cases written
  rfl

/-- A row that begins with a word is written by a token for the word and others behind it. -/
theorem Written.exists_word {kind : TokenKind} {span : Span}
    (written : Written (.word kind span :: items) own) :
    ∃ token rest, own = token :: rest ∧ token.kind = kind ∧ token.span = span ∧
    Written items rest := by
  generalize word : Item.word kind span = item at written
  cases written with
  | word behind =>
    obtain ⟨rfl, rfl⟩ := Item.word.inj word
    exact ⟨_, _, rfl, rfl, rfl, behind⟩
  | piece | loop => contradiction

/-- A piece is laid out by the rule for its form, or it is a `for` statement. -/
theorem Written.layout (written : Written [.piece piece] own) :
    (∃ parts, piece.Layout parts ∧ Written parts own) ∨
      ∃ text : ForText, piece = .stmt text.stmt ∧ Written text.items own := by
  cases written with
  | piece layout inside behind =>
    rw [behind.eq_nil, List.append_nil]
    exact .inl ⟨_, layout, inside⟩
  | loop inside behind =>
    rw [behind.eq_nil, List.append_nil]
    exact .inr ⟨_, rfl, inside⟩

end Rows

/-! ## Which pieces stand in a layout -/

section Members

variable {piece inner : Piece} {items : List Item}

/-- The piece behind a word is the one that may be there. -/
@[simp] theorem Item.piece_mem_behind {kind : TokenKind} {sign : Span} {piece? : Option Piece} :
    .piece inner ∈ Item.behind kind sign piece? ↔ piece? = some inner := by
  cases piece? <;> simp [Item.behind, eq_comm]

/-- The pieces in a list of items are those that are listed. -/
theorem Item.Listed.piece_mem {pieces : List Piece} (listed : Listed pieces items) :
    .piece inner ∈ items ↔ inner ∈ pieces := by
  induction listed with
  | none => simp
  | last => simp
  | more _ _ _ ih => simp [ih]

/-- An expression that is a single word consists of nothing. -/
theorem Parse.parts_of_atom {span : Span} {kind : TokenKind} {value : Expr}
    (alone : atom? span kind = some value) : value.parts = [] ∧ value.span = span := by
  unfold atom? at alone
  split at alone <;> cases alone <;> exact ⟨rfl, rfl⟩

/-- Operands that are joined are the parts of the expression, which spans both. -/
theorem Parse.Connective.parts_join (connective : Connective) (left right : Expr) :
    (connective.join left right).parts = [left, right] ∧
      (connective.join left right).span = left.span.upTo right.span := by
  cases connective <;> exact ⟨rfl, rfl⟩

/-- The pieces of a layout are what the piece consists of. -/
theorem Piece.Layout.piece_mem (layout : piece.Layout items) :
    .piece inner ∈ items ↔ inner ∈ piece.children := by
  cases layout with
  | atom alone => simp [children, Parse.parts_of_atom alone]
  | call _ _ _ listed => simp [children, Expr.parts, listed.piece_mem]
  | join => simp [children, Parse.Connective.parts_join]
  | function _ _ _ _ _ _ listed body => simp [children, listed.piece_mem, eq_comm]
  | _ =>
    simp [children, Expr.parts, Stmt.superclass?, Stmt.exprs, Stmt.parts, Stmt.functions, eq_comm,
      or_comm]

end Members

/-! ## Where the span of a piece runs -/

namespace Span.Of

variable {own rest : List Token} {first last : Span}

/-- A token has its own span. -/
theorem of_token (token : Token) : token.span.Of [token] := ⟨token, rfl, token, rfl, rfl⟩

/-- From the first of some tokens the span runs on to the last of the tokens behind them. -/
theorem append {middle : Span} (before : first.Of own) (after : (middle.upTo last).Of rest) :
    (first.upTo last).Of (own ++ rest) := by
  obtain ⟨begins, front, -, -, rfl⟩ := before
  obtain ⟨_, _, ends, back, same⟩ := after
  refine ⟨begins, List.mem_head?_append_of_mem_head? front, ends,
    List.mem_getLast?_append_of_mem_getLast? back, ?_⟩
  have stop := congrArg Span.stop same
  rw [upTo_stop, upTo_stop] at stop
  simp only [upTo, stop]

end Span.Of

section Ends

variable {piece : Piece} {items : List Item} {own : List Token}

/-- Each layout starts and ends with an item, and the span of the piece runs from the one to the
other. -/
theorem Piece.Layout.ends (layout : piece.Layout items) :
    ∃ first ∈ items.head?, ∃ last ∈ items.getLast?, piece.span = first.span.upTo last.span := by
  cases layout with
  | atom alone => exact ⟨_, rfl, _, rfl, (Parse.parts_of_atom alone).2⟩
  | join _ left sign right => exact ⟨_, rfl, _, rfl, (Parse.Connective.parts_join _ left right).2⟩
  | call | function | letDecl | classDecl | block | «return» =>
    refine ⟨_, rfl, ?_⟩
    simp only [List.getLast?_cons, List.getLast?_append, Option.some_or, Option.getD_some,
      Option.mem_some_iff, exists_eq_left']
    rfl
  | _ => exact ⟨_, rfl, _, rfl, rfl⟩

/-- The span of a `for` statement runs from its first word to its body. -/
theorem ForText.ends (text : ForText) :
    ∃ first ∈ text.items.head?, ∃ last ∈ text.items.getLast?,
      text.stmt.span = first.span.upTo last.span := by
  refine ⟨_, rfl, .piece (.stmt text.body), by simp [items, List.getLast?_cons], ?_⟩
  rw [stmt_eq]
  cases text.initializer <;> rfl

/-- From the first item to the last the span runs from the first token to the last. -/
theorem Written.of_ends (written : Written items own) :
    ∀ first ∈ items.head?, ∀ last ∈ items.getLast?, (first.span.upTo last.span).Of own := by
  -- One item, and those behind it, if there are any.
  have step : ∀ (item : Item) {items : List Item} {own rest : List Token}, item.span.Of own →
      Written items rest →
      (∀ first ∈ items.head?, ∀ last ∈ items.getLast?, (first.span.upTo last.span).Of rest) →
      ∀ first ∈ (item :: items).head?, ∀ last ∈ (item :: items).getLast?,
        (first.span.upTo last.span).Of (own ++ rest) := by
    intro item items own rest here behind onward first front last back
    obtain rfl := Option.some.inj front
    cases items with
    | nil =>
      obtain rfl := Option.some.inj back
      rw [behind.eq_nil, List.append_nil]
      exact here
    | cons next items => exact here.append (onward next rfl last back)
  induction written with
  | nil => nofun
  | word behind ih => exact step (.word _ _) (.of_token _) behind ih
  | piece layout _ behind inside ih =>
    obtain ⟨first, front, last, back, same⟩ := layout.ends
    have whole : Span.Of _ _ := same ▸ inside first front last back
    exact step (.piece _) whole behind ih
  | @loop text _ _ _ _ behind inside ih =>
    obtain ⟨first, front, last, back, same⟩ := text.ends
    have whole : Span.Of _ _ := same ▸ inside first front last back
    exact step (.piece _) whole behind ih

/-- The span of a piece runs from the first of the tokens that write it to the last. -/
theorem Written.of (written : Written [.piece piece] own) : piece.span.Of own :=
  written.of_ends _ rfl _ rfl

end Ends

end EventScript
