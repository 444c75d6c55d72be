import EventScript.Syntax.Parse

/-!
# The grammar

The rules of the language as data, in the order and with the names of the grammar that its
documentation prints, and the words that a form derives. The mark of the end of the text is no part
of a program here. A list of parameters or of arguments has a bound; nothing else about the rules is
taken from the reader.
-/

namespace EventScript.Grammar

/-- What the rules call for by name. -/
inductive Terminal where
  | identifier | number | text
  | keyword (keyword : Keyword)
  | symbol (symbol : Symbol)

/-- The words that stand for a terminal. -/
inductive Terminal.Admits : Terminal → TokenKind → Prop where
  | identifier (name : String) : Admits .identifier (.identifier name)
  | number (value : Float) : Admits .number (.number value)
  | text (value : String) : Admits .text (.text value)
  | keyword (keyword : Keyword) : Admits (.keyword keyword) (.keyword keyword)
  | symbol (symbol : Symbol) : Admits (.symbol symbol) (.symbol symbol)

/-- What the rules define. -/
inductive Nonterminal where
  | program | declaration | classDecl | funDecl | function | parameters | letDecl
  | statement | exprStmt | forStmt | ifStmt | printStmt | returnStmt | whileStmt | breakStmt | block
  | expression | assignment | logicOr | logicAnd | equality | comparison | term | factor
  | unary | call | arguments | primary
deriving DecidableEq

/-- The right-hand sides of rules. -/
inductive Form where
  | empty
  | terminal (word : Terminal)
  | rule (name : Nonterminal)
  | sequence (first second : Form)
  | choice (first second : Form)
  | optional (form : Form)
  | many (form : Form)
  /-- The form repeated, but no more often than `limit` times. -/
  | upTo (limit : Nat) (form : Form)

namespace Form

instance : OrElse Form := ⟨fun first second => choice first (second ())⟩

/-- Forms one after another. -/
def row : List Form → Form
  | [] => empty
  | [form] => form
  | form :: next :: others => sequence form (row (next :: others))

/-- A reserved word. -/
def keyword (keyword : Keyword) : Form := terminal (.keyword keyword)

/-- A symbol. -/
def symbol (symbol : Symbol) : Form := terminal (.symbol symbol)

/-- Any name. -/
def identifier : Form := terminal .identifier

/-- One or more of the form with commas between them, but no more than `Parse.argumentLimit`. -/
def list (form : Form) : Form :=
  row [form, upTo (Parse.argumentLimit - 1) (row [symbol .comma, form])]

end Form

open Form in
/-- The rules of the language. -/
def production : Nonterminal → Form
  | .program => many (rule .declaration)
  | .declaration => rule .classDecl <|> rule .funDecl <|> rule .letDecl <|> rule .statement
  | .classDecl => row [keyword .classWord, identifier, optional (row [symbol .less, identifier]),
      symbol .leftBrace, many (rule .function), symbol .rightBrace]
  | .funDecl => row [keyword .fun, rule .function]
  | .function => row [identifier, symbol .leftParen, optional (rule .parameters),
      symbol .rightParen, rule .block]
  | .parameters => list identifier
  | .letDecl => row [keyword .let, identifier, optional (row [symbol .assign, rule .expression]),
      symbol .semicolon]
  | .statement => rule .exprStmt <|> rule .forStmt <|> rule .ifStmt <|> rule .printStmt <|>
      rule .returnStmt <|> rule .whileStmt <|> rule .breakStmt <|> rule .block
  | .exprStmt => row [rule .expression, symbol .semicolon]
  | .forStmt => row [keyword .for, symbol .leftParen,
      rule .letDecl <|> rule .exprStmt <|> symbol .semicolon,
      optional (rule .expression), symbol .semicolon,
      optional (rule .expression), symbol .rightParen, rule .statement]
  | .ifStmt => row [keyword .if, symbol .leftParen, rule .expression, symbol .rightParen,
      rule .statement, optional (row [keyword .else, rule .statement])]
  | .printStmt => row [keyword .print, rule .expression, symbol .semicolon]
  | .returnStmt => row [keyword .return, optional (rule .expression), symbol .semicolon]
  | .whileStmt => row [keyword .while, symbol .leftParen, rule .expression, symbol .rightParen,
      rule .statement]
  | .breakStmt => row [keyword .break, symbol .semicolon]
  | .block => row [symbol .leftBrace, many (rule .declaration), symbol .rightBrace]
  | .expression => rule .assignment
  | .assignment =>
      row [optional (row [rule .call, symbol .dot]), identifier, symbol .assign, rule .assignment]
        <|> rule .logicOr
  | .logicOr => row [rule .logicAnd, many (row [keyword .or, rule .logicAnd])]
  | .logicAnd => row [rule .equality, many (row [keyword .and, rule .equality])]
  | .equality => row [rule .comparison,
      many (row [symbol .bangEqual <|> symbol .equalEqual, rule .comparison])]
  | .comparison => row [rule .term,
      many (row [symbol .greater <|> symbol .greaterEqual <|> symbol .less <|> symbol .lessEqual,
        rule .term])]
  | .term => row [rule .factor, many (row [symbol .minus <|> symbol .plus, rule .factor])]
  | .factor => row [rule .unary, many (row [symbol .slash <|> symbol .star, rule .unary])]
  | .unary => row [symbol .bang <|> symbol .minus, rule .unary] <|> rule .call
  | .call => row [rule .primary,
      many (row [symbol .leftParen, optional (rule .arguments), symbol .rightParen]
        <|> row [symbol .dot, identifier])]
  | .arguments => list (rule .expression)
  | .primary => keyword .true <|> keyword .false <|> keyword .nil <|> keyword .this <|>
      terminal .number <|> terminal .text <|> identifier <|>
      row [symbol .leftParen, rule .expression, symbol .rightParen] <|>
      row [keyword .super, symbol .dot, identifier]

/-- The words that a form derives by the rules. -/
inductive Derives : Form → List TokenKind → Prop where
  | empty : Derives .empty []
  | terminal {word : Terminal} {kind : TokenKind} (admits : word.Admits kind) :
      Derives (.terminal word) [kind]
  | rule {name : Nonterminal} {words : List TokenKind} (derives : Derives (production name) words) :
      Derives (.rule name) words
  | sequence {first second : Form} {before after : List TokenKind} (head : Derives first before)
      (tail : Derives second after) : Derives (.sequence first second) (before ++ after)
  | left {first second : Form} {words : List TokenKind} (derives : Derives first words) :
      Derives (.choice first second) words
  | right {first second : Form} {words : List TokenKind} (derives : Derives second words) :
      Derives (.choice first second) words
  | absent {form : Form} : Derives (.optional form) []
  | present {form : Form} {words : List TokenKind} (derives : Derives form words) :
      Derives (.optional form) words
  | done {form : Form} : Derives (.many form) []
  | again {form : Form} {before after : List TokenKind} (head : Derives form before)
      (tail : Derives (.many form) after) : Derives (.many form) (before ++ after)
  | doneUpTo {form : Form} {limit : Nat} : Derives (.upTo limit form) []
  | againUpTo {form : Form} {limit : Nat} {before after : List TokenKind}
      (head : Derives form before)
      (tail : Derives (.upTo limit form) after) :
      Derives (.upTo (limit + 1) form) (before ++ after)

/-- Some pieces in a row, each of which is of one kind. -/
inductive Pieces (piece : List TokenKind → Prop) : Nat → List TokenKind → Prop where
  | nil : Pieces piece 0 []
  | cons {count : Nat} {before after : List TokenKind} (head : piece before)
      (tail : Pieces piece count after) : Pieces piece (count + 1) (before ++ after)

/-- The words of a form if those of the rules are `words`. -/
def Form.Matches (words : Nonterminal → List TokenKind → Prop) : Form → List TokenKind → Prop
  | .empty, all => all = []
  | .terminal word, all => ∃ kind, all = [kind] ∧ word.Admits kind
  | .rule name, all => words name all
  | .sequence first second, all =>
    ∃ before after, all = before ++ after ∧ first.Matches words before ∧ second.Matches words after
  | .choice first second, all => first.Matches words all ∨ second.Matches words all
  | .optional form, all => all = [] ∨ form.Matches words all
  | .many form, all => ∃ count, Pieces (form.Matches words) count all
  | .upTo limit form, all => ∃ count, count ≤ limit ∧ Pieces (form.Matches words) count all

/-- What the rules preserve holds of everything that is derived: if words are in `words` whenever a
rule makes them of others there, all that a rule derives is there. -/
theorem Derives.matches {words : Nonterminal → List TokenKind → Prop}
    (closed : ∀ name all, (production name).Matches words all → words name all) {form : Form}
    {all : List TokenKind} (derives : Derives form all) : form.Matches words all := by
  induction derives with
  | empty => rfl
  | terminal admits => exact ⟨_, rfl, admits⟩
  | rule _ ih => exact closed _ _ ih
  | sequence _ _ head tail => exact ⟨_, _, rfl, head, tail⟩
  | left _ ih => exact .inl ih
  | right _ ih => exact .inr ih
  | absent => exact .inl rfl
  | present _ ih => exact .inr ih
  | done => exact ⟨0, .nil⟩
  | again _ _ head tail =>
    obtain ⟨count, pieces⟩ := tail
    exact ⟨count + 1, .cons head pieces⟩
  | doneUpTo => exact ⟨0, Nat.zero_le _, .nil⟩
  | againUpTo _ _ head tail =>
    obtain ⟨count, few, pieces⟩ := tail
    exact ⟨count + 1, Nat.succ_le_succ few, .cons head pieces⟩

/-- One more piece at the end of a repetition. -/
theorem Derives.snoc {form : Form} {before after : List TokenKind}
    (derives : Derives (.many form) before) (last : Derives form after) :
    Derives (.many form) (before ++ after) := by
  generalize repeated : Form.many form = whole at derives
  induction derives with
  | done =>
    cases repeated
    have once := again last done
    rwa [List.append_nil] at once
  | again head _ _ ih =>
    cases repeated
    rw [List.append_assoc]
    exact .again head (ih rfl)
  | _ => cases repeated

end EventScript.Grammar
