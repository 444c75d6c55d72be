import EventScript.Span

/-!
# Tokens

The words of the language: names, literals, keywords and symbols, and a last token that marks the
end of the text. `Keyword.spelling` and `Symbol.spelling` give the written forms; the scanner and
the printer both go by them.
-/

namespace EventScript

/-- The reserved words. -/
inductive Keyword where
  | and | break | classWord | else | false | for | fun | if | let | nil | or | print | return
  | super | this | true | while
deriving DecidableEq, Inhabited

namespace Keyword

/-- All reserved words, in alphabetical order. -/
def all : List Keyword :=
  [.and, .break, .classWord, .else, .false, .for, .fun, .if, .let, .nil, .or, .print, .return,
    .super, .this, .true, .while]

/-- The written form of a reserved word. -/
def spelling : Keyword → String
  | .and => "and"
  | .break => "break"
  | .classWord => "class"
  | .else => "else"
  | .false => "false"
  | .for => "for"
  | .fun => "fun"
  | .if => "if"
  | .let => "let"
  | .nil => "nil"
  | .or => "or"
  | .print => "print"
  | .return => "return"
  | .super => "super"
  | .this => "this"
  | .true => "true"
  | .while => "while"

/-- The reserved word with the given written form. -/
def ofSpelling? (word : String) : Option Keyword :=
  all.find? fun keyword => keyword.spelling == word

/-- Every reserved word is listed. -/
theorem mem_all (keyword : Keyword) : keyword ∈ all := by
  cases keyword <;> decide

end Keyword

/-- Punctuation and operators. -/
inductive Symbol where
  | leftParen | rightParen | leftBrace | rightBrace | comma | dot | semicolon
  | assign | plus | minus | star | slash | bang | bangEqual | equalEqual
  | less | lessEqual | greater | greaterEqual
deriving DecidableEq, Inhabited

namespace Symbol

/-- The written form of a symbol. -/
def spelling : Symbol → String
  | .leftParen => "("
  | .rightParen => ")"
  | .leftBrace => "\x7b"
  | .rightBrace => "\x7d"
  | .comma => ","
  | .dot => "."
  | .semicolon => ";"
  | .assign => "="
  | .plus => "+"
  | .minus => "-"
  | .star => "*"
  | .slash => "/"
  | .bang => "!"
  | .bangEqual => "!="
  | .equalEqual => "=="
  | .less => "<"
  | .lessEqual => "<="
  | .greater => ">"
  | .greaterEqual => ">="

end Symbol

/-- What a token is, with the value of a literal. -/
inductive TokenKind where
  | identifier (name : String)
  | number (value : Float)
  | text (value : String)
  | keyword (keyword : Keyword)
  | symbol (symbol : Symbol)
  | endOfInput
deriving Inhabited

/-- One token with its place in the source. -/
structure Token where
  kind : TokenKind
  /-- The characters of the token as written. -/
  lexeme : String
  span : Span
deriving Inhabited

end EventScript
