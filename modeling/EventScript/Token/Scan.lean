import EventScript.Token
import EventScript.Diagnostic
import EventScript.Number.Text
import EventScript.Text.Blank

/-!
# Dividing a text into tokens

`Token.ofText` skips blanks and comments, then reads the longest token that starts there, and so
on to the end of the text. A `Place` counts the bytes and lines passed, so every token knows its
span. Reading one token yields the characters it consists of and the characters that follow, which
together are the characters there were.
-/

namespace EventScript

/-- A place in a text: the bytes before it and its line, counted from one. -/
structure Place where
  offset : Nat := 0
  line : Nat := 1
deriving DecidableEq, Inhabited

namespace Place

/-- The place after one more character. -/
def advance (place : Place) (c : Char) : Place :=
  ⟨place.offset + c.utf8Size, if c = '\n' then place.line + 1 else place.line⟩

/-- The place after several more characters. -/
def after (place : Place) (chars : List Char) : Place :=
  chars.foldl advance place

/-- The span of `chars` when they start at `place`. -/
def span (place : Place) (chars : List Char) : Span :=
  ⟨place.offset, (place.after chars).offset, place.line⟩

end Place

namespace Token

/-- Why a text does not divide into tokens. -/
inductive ScanFault where
  /-- A text literal has no closing quote. -/
  | unterminatedText
  /-- No token starts with this character. -/
  | unexpected (c : Char)
deriving DecidableEq, Inhabited

namespace ScanFault

/-- The wording of the fault. -/
def message : ScanFault → String
  | unterminatedText => "Unterminated string."
  | unexpected c => "Unexpected character `" ++ String.singleton c ++ "`."

/-- The fault as a diagnostic that points at `span`. -/
def diagnostic (fault : ScanFault) (span : Span) : Diagnostic :=
  { kind := .lexer, message := fault.message, span := some span }

end ScanFault

/-- Skips blanks and comments, which run from `//` to the end of their line. The flag says whether
the place is inside a comment. -/
def skip (comment : Bool) (place : Place) : List Char → Place × List Char
  | [] => (place, [])
  | c :: rest =>
    if comment then skip (c ≠ '\n') (place.advance c) rest
    else if Text.isBlank c then skip false (place.advance c) rest
    else if c = '/' ∧ rest.head? = some '/' then skip true (place.advance c) rest
    else (place, c :: rest)

/-- Whether a name can start with the character. -/
def startsName (c : Char) : Bool := c.isAlpha || c == '_'

/-- Whether a name can go on with the character. -/
def continuesName (c : Char) : Bool := c.isAlphanum || c == '_'

/-- The character that a backslash and `c` stand for. -/
def unescape (c : Char) : Char :=
  if c = 'n' then '\n' else if c = 'r' then '\r' else if c = 't' then '\t' else c

/-- What reading one token yields: its kind, its characters, and the characters after it. -/
structure Reading where
  kind : TokenKind
  lexeme : List Char
  rest : List Char
deriving Inhabited

/-- The inside of a text literal: its value, its characters up to and with the closing quote, and
the characters after that. There is none if the quote is missing. -/
def readText? : List Char → Option (List Char × List Char × List Char)
  | [] => none
  | c :: rest =>
    if c = '"' then some ([], [c], rest)
    else if c = '\\' then
      match rest with
      | [] => none
      | escaped :: rest =>
        (readText? rest).map fun (value, lexeme, rest) =>
          (unescape escaped :: value, c :: escaped :: lexeme, rest)
    else (readText? rest).map fun (value, lexeme, rest) => (c :: value, c :: lexeme, rest)

/-- A name or reserved word that starts with `first`. -/
def readWord (first : Char) (rest : List Char) : Reading :=
  let lexeme := first :: rest.takeWhile continuesName
  let word := String.ofList lexeme
  let kind := match Keyword.ofSpelling? word with
    | some keyword => .keyword keyword
    | none => .identifier word
  ⟨kind, lexeme, rest.dropWhile continuesName⟩

/-- The fraction of a number: a point with at least one digit after it. -/
def readFraction (rest : List Char) : List Char × List Char :=
  match rest with
  | '.' :: digits =>
    if digits.head?.any Char.isDigit then (digits.takeWhile Char.isDigit,
      digits.dropWhile Char.isDigit)
    else ([], rest)
  | _ => ([], rest)

/-- A number that starts with the digit `first`. -/
def readNumber (first : Char) (rest : List Char) : Reading :=
  let whole := first :: rest.takeWhile Char.isDigit
  let (fraction, after) := readFraction (rest.dropWhile Char.isDigit)
  let lexeme := if fraction.isEmpty then whole else whole ++ '.' :: fraction
  ⟨.number (Number.ofLiteral whole fraction), lexeme, after⟩

/-- The symbols of one character that start no longer symbol. -/
def single? (c : Char) : Option Symbol :=
  match c with
  | '(' => some .leftParen
  | ')' => some .rightParen
  | '{' => some .leftBrace
  | '}' => some .rightBrace
  | ',' => some .comma
  | '.' => some .dot
  | ';' => some .semicolon
  | '+' => some .plus
  | '-' => some .minus
  | '*' => some .star
  | '/' => some .slash
  | _ => none

/-- The symbols that an equals sign prolongs: alone, and with the equals sign. -/
def prolonged? (c : Char) : Option (Symbol × Symbol) :=
  match c with
  | '=' => some (.assign, .equalEqual)
  | '!' => some (.bang, .bangEqual)
  | '<' => some (.less, .lessEqual)
  | '>' => some (.greater, .greaterEqual)
  | _ => none

/-- A symbol that starts with `first`. -/
def readSymbol? (first : Char) (rest : List Char) : Option Reading :=
  match single? first with
  | some symbol => some ⟨.symbol symbol, [first], rest⟩
  | none =>
    match prolonged? first with
    | none => none
    | some (alone, prolonged) =>
      match rest with
      | '=' :: after => some ⟨.symbol prolonged, [first, '='], after⟩
      | _ => some ⟨.symbol alone, [first], rest⟩

/-- The longest token that starts with `first`. A fault comes with the characters it concerns. -/
def read (first : Char) (rest : List Char) : Except (ScanFault × List Char) Reading :=
  if startsName first then .ok (readWord first rest)
  else if first.isDigit then .ok (readNumber first rest)
  else if first = '"' then
    match readText? rest with
    | some (value, lexeme, after) => .ok ⟨.text (String.ofList value), first :: lexeme, after⟩
    | none => .error (.unterminatedText, first :: rest)
  else
    match readSymbol? first rest with
    | some reading => .ok reading
    | none => .error (.unexpected first, [first])

/-- The tokens from `place` on. Every token takes at least one character, so a bound above the
number of characters is never reached. -/
def scan : Nat → Place → List Char → Except Diagnostic (List Token)
  | 0, place, _ => .ok [⟨.endOfInput, "", place.span []⟩]
  | bound + 1, place, chars =>
    let (place, chars) := skip false place chars
    match chars with
    | [] => .ok [⟨.endOfInput, "", place.span []⟩]
    | first :: rest =>
      match read first rest with
      | .error (fault, extent) => .error (fault.diagnostic (place.span extent))
      | .ok reading =>
        match scan bound (place.after reading.lexeme) reading.rest with
        | .error diagnostic => .error diagnostic
        | .ok tokens =>
          .ok (⟨reading.kind, String.ofList reading.lexeme, place.span reading.lexeme⟩ :: tokens)

/-- The tokens of a text, the last of which marks its end; or the first fault. -/
def ofText (source : String) : Except Diagnostic (List Token) :=
  let chars := source.toList
  scan (chars.length + 1) {} chars

end Token

end EventScript
