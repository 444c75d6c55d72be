import EventScript.Proofs.Syntax.Derivation
import EventScript.Proofs.Syntax.Sound
import EventScript.Proofs.Syntax.StmtComplete
import EventScript.Proofs.Token.Segmentation

/-!
# The language that is accepted

The tokens of a text are words and a mark of the end, and no word is such a mark. So a program is
found just if the words before the mark are derived by the grammar, and otherwise a fault of syntax
points at one of the tokens.
-/

namespace EventScript.Program

open Parse Phrase Grammar

variable {source : String} {tokens words : List Token} {mark : Token}

/-- A text that divides is words with the mark of the end behind them. -/
theorem exists_words (divides : Token.ofText source = .ok tokens) :
    ∃ words mark, tokens = words ++ [mark] ∧ mark.kind = .endOfInput ∧
      ∀ word ∈ words, ∃ lexeme, Token.Lexeme word.kind lexeme := by
  obtain ⟨passed, words, reached, rfl⟩ := Token.reaches_of_ofText divides
  obtain ⟨words', last, same, marked, -, -, each⟩ := (Token.segmentation_of_reaches reached).words
  refine ⟨words', last, same, marked, fun word member => ?_⟩
  obtain ⟨-, -, longest⟩ := each word member
  exact ⟨word.lexeme.toList, longest.form⟩

/-- No word is a mark of the end. -/
theorem ne_endOfInput {kind : TokenKind} {lexeme : List Char} (form : Token.Lexeme kind lexeme) :
    kind ≠ .endOfInput := by
  rintro rfl
  cases form

/-- A mark that comes first in what is left behind some words is the only one left. -/
theorem eq_kinds_of_append {all read : List TokenKind} {rest : List TokenKind}
    (free : ∀ kind ∈ all, kind ≠ .endOfInput)
    (same : all ++ [.endOfInput] = read ++ .endOfInput :: rest) : read = all := by
  rcases List.append_eq_append_iff.mp same with ⟨more, rfl, onward⟩ | ⟨more, rfl, onward⟩
  · rcases List.singleton_eq_append_iff.mp onward with ⟨rfl, -⟩ | ⟨-, none⟩
    · exact List.append_nil all
    · exact absurd none (List.cons_ne_nil _ _)
  · cases more with
    | nil => exact (List.append_nil read).symm
    | cons kind more =>
      obtain ⟨rfl, -⟩ := List.cons.inj onward
      exact absurd rfl (free _ (List.mem_append_right _ List.mem_cons_self))

/-- Reading the tokens finds a program in all the words, or a fault that points at a token. -/
theorem ofTokens_yields (marked : mark.kind = .endOfInput)
    (free : ∀ word ∈ words, word.kind ≠ .endOfInput) :
    match ofTokens (words ++ [mark]) with
    | .ok program => Reads (.declarations program) (words.map Token.kind)
    | .error diagnostic => PointsInto (words ++ [mark]) diagnostic := by
  have left : Left (words ++ [mark]) (words ++ [mark]) := ⟨fun _ => id, words, mark, rfl, marked⟩
  have yields := program_finds (depthFor (words ++ [mark]).length) left
  unfold Yields at yields
  unfold ofTokens
  cases found : Parse.program (depthFor (words ++ [mark]).length) (words ++ [mark]) with
  | error diagnostic =>
    rw [found] at yields
    exact yields
  | ok result =>
    obtain ⟨program, rest⟩ := result
    rw [found] at yields
    obtain ⟨read, passed, reads, ends⟩ := yields
    obtain ⟨token, after, rfl, -⟩ := passed.left.exists_cons
    have same := passed.spells.kinds
    rw [List.map_append, List.map_singleton, marked, List.map_cons] at same
    rw [current_cons] at ends
    rw [ends] at same
    have all : ∀ kind ∈ words.map Token.kind, kind ≠ .endOfInput := by
      intro kind member
      obtain ⟨word, inWords, rfl⟩ := List.mem_map.mp member
      exact free word inWords
    rw [eq_kinds_of_append all same] at reads
    exact reads

/-- A program whose words stand before the mark is found, up to spans. -/
theorem ofTokens_of_reads {program : Program} (marked : mark.kind = .endOfInput)
    (reads : Reads (.declarations program) (words.map Token.kind)) :
    ∃ found, ofTokens (words ++ [mark]) = .ok found ∧ found.bare = program.bare := by
  have enough : 32 * (words.map Token.kind).length + 20 ≤ depthFor (words ++ [mark]).length := by
    rw [List.length_map, List.length_append, List.length_singleton, depthFor]
    omega
  obtain ⟨found, read, same⟩ := reads.program_found (spells_kinds words [mark]) marked enough
  refine ⟨found, ?_, same⟩
  unfold ofTokens
  rw [read]

/-- The tokens of a text form a program just if the grammar derives the words before the mark of the
end. Otherwise there is a fault of syntax that points at one of the tokens. -/
theorem ofTokens_accepts (divides : Token.ofText source = .ok tokens) :
    ∃ words mark, tokens = words ++ [mark] ∧ mark.kind = .endOfInput ∧
      ((∃ program, ofTokens tokens = .ok program) ↔
        Derives (.rule .program) (words.map Token.kind)) ∧
      (¬ Derives (.rule .program) (words.map Token.kind) →
        ∃ diagnostic, ofTokens tokens = .error diagnostic ∧ diagnostic.kind = .parser ∧
          ∃ token ∈ tokens, diagnostic.span = some token.span) := by
  obtain ⟨words, mark, rfl, marked, written⟩ := exists_words divides
  have free : ∀ word ∈ words, word.kind ≠ .endOfInput := by
    intro word member
    obtain ⟨lexeme, form⟩ := written word member
    exact ne_endOfInput form
  have yields := ofTokens_yields marked free
  have accepts : (∃ program, ofTokens (words ++ [mark]) = .ok program) ↔
      Derives (.rule .program) (words.map Token.kind) := by
    rw [← exists_program_iff]
    constructor
    · rintro ⟨program, found⟩
      rw [found] at yields
      exact ⟨program, yields⟩
    · rintro ⟨program, reads⟩
      obtain ⟨found, same, -⟩ := ofTokens_of_reads marked reads
      exact ⟨found, same⟩
  refine ⟨words, mark, rfl, marked, accepts, fun underived => ?_⟩
  cases found : ofTokens (words ++ [mark]) with
  | ok program => exact absurd (accepts.mp ⟨program, found⟩) underived
  | error diagnostic =>
    rw [found] at yields
    exact ⟨diagnostic, rfl, yields.1, yields.2⟩

/-- An `else` behind two `if`s, which the grammar derives in two ways. -/
theorem ofTokens_accepts_dangling :
    ∃ tokens, Token.ofText "if(a)if(b)c;else d;" = .ok tokens ∧
      ∃ words mark, tokens = words ++ [mark] ∧ mark.kind = .endOfInput ∧
        ((∃ program, ofTokens tokens = .ok program) ↔
          Derives (.rule .program) (words.map Token.kind)) := by
  have divides : Token.ofText "if(a)if(b)c;else d;" = .ok
      [⟨.keyword .if, "if", ⟨0, 2, 1⟩⟩, ⟨.symbol .leftParen, "(", ⟨2, 3, 1⟩⟩,
        ⟨.identifier "a", "a", ⟨3, 4, 1⟩⟩, ⟨.symbol .rightParen, ")", ⟨4, 5, 1⟩⟩,
        ⟨.keyword .if, "if", ⟨5, 7, 1⟩⟩, ⟨.symbol .leftParen, "(", ⟨7, 8, 1⟩⟩,
        ⟨.identifier "b", "b", ⟨8, 9, 1⟩⟩, ⟨.symbol .rightParen, ")", ⟨9, 10, 1⟩⟩,
        ⟨.identifier "c", "c", ⟨10, 11, 1⟩⟩, ⟨.symbol .semicolon, ";", ⟨11, 12, 1⟩⟩,
        ⟨.keyword .else, "else", ⟨12, 16, 1⟩⟩, ⟨.identifier "d", "d", ⟨17, 18, 1⟩⟩,
        ⟨.symbol .semicolon, ";", ⟨18, 19, 1⟩⟩, ⟨.endOfInput, "", ⟨19, 19, 1⟩⟩] := rfl
  obtain ⟨words, mark, split, marked, accepts, -⟩ := ofTokens_accepts divides
  exact ⟨_, divides, words, mark, split, marked, accepts⟩

end EventScript.Program
