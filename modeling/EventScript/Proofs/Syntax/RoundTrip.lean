import EventScript.Proofs.Syntax.Language
import EventScript.Proofs.Syntax.Printed
import EventScript.Proofs.Token.Spaced

/-!
# Printing a program and reading it again

A program is printed as the words of its tree with a space between them. A name is written as it is,
a text with a backslash before its quotes and backslashes, and a number as any literal that denotes
it. Every program that can be read can be printed so, and whoever reads what was printed finds the
same program up to spans.
-/

namespace EventScript

namespace Token

/-- The inside of a text literal that denotes the characters, with a backslash before each quote and
each backslash. -/
def escaped : List Char → List Char
  | [] => []
  | c :: rest => if c = '"' ∨ c = '\\' then '\\' :: c :: escaped rest else c :: escaped rest

/-- A text is inside what it is escaped to. -/
theorem inside_escaped (value : List Char) : Inside value (escaped value) := by
  induction value with
  | nil => exact .nil
  | cons c rest ih =>
    rw [escaped]
    split
    · rename_i special
      have stands : unescape c = c := by
        rcases special with rfl | rfl <;> decide
      have inside := Inside.escaped c ih
      rwa [stands] at inside
    · rename_i plain
      exact .plain (fun quote => plain (.inl quote)) (fun backslash => plain (.inr backslash)) ih

/-- How the words of a program are printed. -/
inductive Printed : TokenKind → List Char → Prop where
  | identifier (name : String) : Printed (.identifier name) name.toList
  /-- Any literal that denotes the number: digits, with a point and more digits or without. -/
  | number {value : Float} {lexeme : List Char} (denotes : Lexeme (.number value) lexeme) :
      Printed (.number value) lexeme
  | text (value : String) : Printed (.text value) ('"' :: (escaped value.toList ++ ['"']))
  | keyword (keyword : Keyword) : Printed (.keyword keyword) keyword.spelling.toList
  | symbol (symbol : Symbol) : Printed (.symbol symbol) symbol.spelling.toList

/-- A word that can be written at all is printed in one of its written forms. -/
theorem Printed.lexeme {kind : TokenKind} {written lexeme : List Char} (form : Lexeme kind written)
    (printed : Printed kind lexeme) : Lexeme kind lexeme := by
  cases printed with
  | identifier name =>
    cases form with
    | identifier starts continues free =>
      rw [String.toList_ofList]
      exact .identifier starts continues free
  | number denotes => exact denotes
  | text value =>
    have inside := Lexeme.text (inside_escaped value.toList)
    rwa [String.ofList_toList] at inside
  | keyword keyword => exact .keyword keyword
  | symbol symbol => exact .symbol symbol

/-- Every word that can be written can be printed. -/
theorem Lexeme.exists_printed {kind : TokenKind} {written : List Char}
    (form : Lexeme kind written) :
    ∃ lexeme, Printed kind lexeme := by
  cases kind with
  | identifier name => exact ⟨_, .identifier name⟩
  | number value => exact ⟨written, .number form⟩
  | text value => exact ⟨_, .text value⟩
  | keyword keyword => exact ⟨_, .keyword keyword⟩
  | symbol symbol => exact ⟨_, .symbol symbol⟩
  | endOfInput => cases form

end Token

namespace Program

open Token

/-- The text prints the program: its words, with a space between them. -/
def Prints (program : Program) (text : String) : Prop :=
  ∃ lexemes, List.Forall₂ Printed program.words lexemes ∧ text = String.ofList (spaced lexemes)

variable {source : String} {program : Program}

/-- A program that is read from a text can be read from its words, all of which can be written. -/
theorem reads_words (found : ofText source = .ok program) :
    Phrase.Reads (.declarations program) program.words ∧
      ∀ kind ∈ program.words, ∃ lexeme, Lexeme kind lexeme := by
  unfold ofText at found
  split at found
  · rename_i tokens divides
    obtain ⟨words, mark, rfl, marked, written⟩ := exists_words divides
    have free : ∀ word ∈ words, word.kind ≠ .endOfInput := by
      intro word member
      obtain ⟨lexeme, form⟩ := written word member
      exact ne_endOfInput form
    have reads := ofTokens_yields marked free
    rw [found] at reads
    have fixed : ∀ kind : TokenKind, kind.isFixed = true → ∃ lexeme, Lexeme kind lexeme := by
      intro kind fixed
      cases kind with
      | keyword keyword => exact ⟨_, .keyword keyword⟩
      | symbol symbol => exact ⟨_, .symbol symbol⟩
      | _ => contradiction
    obtain ⟨again, hands⟩ := reads.rereads fixed
    refine ⟨again, hands fun kind member => ?_⟩
    obtain ⟨word, inWords, rfl⟩ := List.mem_map.mp member
    exact written word inWords
  · contradiction

/-- Words that can be written can be printed. -/
theorem exists_printed {kinds : List TokenKind}
    (written : ∀ kind ∈ kinds, ∃ lexeme, Lexeme kind lexeme) :
    ∃ lexemes, List.Forall₂ Printed kinds lexemes := by
  induction kinds with
  | nil => exact ⟨[], .nil⟩
  | cons kind kinds ih =>
    obtain ⟨first, others⟩ := List.forall_mem_cons.mp written
    obtain ⟨form, stands⟩ := first
    obtain ⟨lexeme, printed⟩ := stands.exists_printed
    obtain ⟨lexemes, all⟩ := ih others
    exact ⟨lexeme :: lexemes, .cons printed all⟩

/-- Words that can be written are printed in their written forms. -/
theorem lexemes_of_printed {kinds : List TokenKind} {lexemes : List (List Char)}
    (written : ∀ kind ∈ kinds, ∃ lexeme, Lexeme kind lexeme)
    (printed : List.Forall₂ Printed kinds lexemes) : List.Forall₂ Lexeme kinds lexemes := by
  induction printed with
  | nil => exact .nil
  | cons first _ ih =>
    obtain ⟨⟨form, stands⟩, others⟩ := List.forall_mem_cons.mp written
    exact .cons (first.lexeme stands) (ih others)

/-- Every program that can be read can be printed, and whatever prints it is read as the same
program up to spans. -/
theorem ofText_of_prints (found : ofText source = .ok program) :
    (∃ text, program.Prints text) ∧
      ∀ text, program.Prints text →
        ∃ again, ofText text = .ok again ∧ again.bare = program.bare := by
  obtain ⟨reads, written⟩ := reads_words found
  constructor
  · obtain ⟨lexemes, printed⟩ := exists_printed written
    exact ⟨_, lexemes, printed, rfl⟩
  · rintro text ⟨lexemes, printed, rfl⟩
    obtain ⟨words, mark, divides, marked, kinds⟩ :=
      ofText_spaced (lexemes_of_printed written printed)
    rw [← kinds] at reads
    obtain ⟨again, read, same⟩ := ofTokens_of_reads marked reads
    refine ⟨again, ?_, same⟩
    rw [ofText, divides]
    exact read

/-- A `for` statement, which is printed as the loop that it means. -/
theorem ofText_of_prints_loop :
    ∃ program text again, ofText "for(let i=a;i<b;i=i+a)print i;" = .ok program ∧
      program.Prints text ∧ ofText text = .ok again ∧ again.bare = program.bare := by
  have accepted : (ofText "for(let i=a;i<b;i=i+a)print i;").isOk = true := by decide +kernel
  cases found : ofText "for(let i=a;i<b;i=i+a)print i;" with
  | error diagnostic =>
    rw [found] at accepted
    contradiction
  | ok program =>
    obtain ⟨⟨text, prints⟩, reads⟩ := ofText_of_prints found
    obtain ⟨again, read, same⟩ := reads text prints
    exact ⟨program, text, again, rfl, prints, read, same⟩

end Program

end EventScript
