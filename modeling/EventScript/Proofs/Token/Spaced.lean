import EventScript.Proofs.Token.Segmentation
import Mathlib.Data.List.Forall2

/-!
# Tokens with a space between them

A space parts any two tokens: written with a space between them, tokens are what the text divides
into again, whatever they are.
-/

namespace EventScript.Token

/-- Texts with a space between them. -/
def spaced : List (List Char) → List Char
  | [] => []
  | [lexeme] => lexeme
  | lexeme :: next :: others => lexeme ++ ' ' :: spaced (next :: others)

/-- Behind the first of several texts, they are parted. -/
theorem spaced_cons (lexeme : List Char) (others : List (List Char)) :
    ∃ following, spaced (lexeme :: others) = lexeme ++ following ∧ Parted following := by
  cases others with
  | nil => exact ⟨[], (List.append_nil lexeme).symm, nofun⟩
  | cons next others =>
    refine ⟨' ' :: spaced (next :: others), rfl, fun c first => ?_⟩
    rw [← Option.some.inj first]
    decide

/-- No gap starts with a letter or a digit. -/
theorem not_atGap_of_continuesName {first : Char} {rest : List Char}
    (continues : continuesName first = true) : ¬ AtGap (first :: rest) := by
  rintro ⟨c, after, same, blank | ⟨rfl, -⟩⟩
  · obtain ⟨rfl, -⟩ := List.cons.inj same
    rw [continuesName_of_isBlank blank] at continues
    contradiction
  · obtain ⟨rfl, -⟩ := List.cons.inj same
    exact absurd continues (by decide)

/-- No gap stands where a token does, if the text behind it is parted. -/
theorem Lexeme.not_atGap {kind : TokenKind} {lexeme following : List Char}
    (form : Lexeme kind lexeme)
    (parted : Parted following) : ¬ AtGap (lexeme ++ following) := by
  have digits : ∀ {first : Char} {tail rest : List Char}, (∀ c ∈ first :: tail, c.isDigit = true) →
      ¬ AtGap (first :: rest) := fun all =>
    not_atGap_of_continuesName (continuesName_of_isDigit (all _ List.mem_cons_self))
  cases form with
  | identifier starts => exact not_atGap_of_continuesName (continuesName_of_startsName starts)
  | keyword keyword =>
    obtain ⟨first, tail, spelled, starts, -⟩ := keyword_word keyword
    rw [spelled]
    exact not_atGap_of_continuesName (continuesName_of_startsName starts)
  | whole some all =>
    obtain ⟨first, tail, rfl⟩ := List.exists_cons_of_ne_nil some
    exact digits all
  | decimal someWhole _ allWhole =>
    obtain ⟨first, tail, rfl⟩ := List.exists_cons_of_ne_nil someWhole
    exact digits allWhole
  | text =>
    rintro ⟨c, after, same, blank | ⟨slash, -⟩⟩ <;> obtain ⟨rfl, -⟩ := List.cons.inj same
    · exact absurd blank (by decide)
    · exact absurd slash (by decide)
  | symbol symbol =>
    rintro ⟨c, after, same, blank | ⟨rfl, comment⟩⟩
    · cases symbol <;> obtain ⟨rfl, -⟩ := List.cons.inj same <;> exact absurd blank (by decide)
    · cases symbol <;> obtain ⟨first, rfl⟩ := List.cons.inj same
      all_goals first
        | exact absurd first (by decide)
        | exact absurd (parted '/' comment) (by decide)

/-- A course goes on through tokens with a space between them to the end of the text. -/
theorem Reaches.through {kinds : List TokenKind} {lexemes : List (List Char)}
    (forms : List.Forall₂ Lexeme kinds lexemes) {source passed : List Char} {words : List Token}
    (reached : Reaches source passed words (spaced lexemes)) :
    ∃ passed words', Reaches source passed words' [] ∧
      words'.map Token.kind = words.map Token.kind ++ kinds := by
  induction forms generalizing passed words with
  | nil => exact ⟨passed, words, reached, (List.append_nil _).symm⟩
  | @cons kind lexeme kinds lexemes form forms ih =>
    have step : ∀ {gap rest : List Char}, lexeme ++ (gap ++ rest) = spaced (lexeme :: lexemes) →
        Parted (gap ++ rest) → Gap gap rest → ¬ AtGap rest → rest = spaced lexemes →
        ∃ passed words', Reaches source passed words' [] ∧
          words'.map Token.kind = words.map Token.kind ++ kind :: kinds := by
      intro gap rest split parted stands full same
      have next := Reaches.word (split ▸ reached) (form.longest parted) stands full
      obtain ⟨passed', words', onward, all⟩ := ih (same ▸ next)
      refine ⟨passed', words', onward, ?_⟩
      rw [all, List.map_append, List.map_singleton, List.append_assoc]
      rfl
    cases forms with
    | nil => exact @step [] [] (by simp [spaced]) nofun .nil nofun rfl
    | @cons _ next _ others nextForm _ =>
      obtain ⟨following, onward, parted⟩ := spaced_cons next others
      refine @step [' '] _ rfl (fun c first => ?_) (.blank (by decide) .nil) ?_ rfl
      · rw [← Option.some.inj first]
        decide
      · rw [onward]
        exact nextForm.not_atGap parted

/-- Tokens with a space between them are what their text divides into. -/
theorem ofText_spaced {kinds : List TokenKind} {lexemes : List (List Char)}
    (forms : List.Forall₂ Lexeme kinds lexemes) :
    ∃ words mark, ofText (String.ofList (spaced lexemes)) = .ok (words ++ [mark]) ∧
      mark.kind = .endOfInput ∧ words.map Token.kind = kinds := by
  have full : ¬ AtGap (spaced lexemes) := by
    cases forms with
    | nil => nofun
    | @cons _ lexeme _ others form _ =>
      obtain ⟨following, onward, parted⟩ := spaced_cons lexeme others
      rw [onward]
      exact form.not_atGap parted
  have start : Reaches (String.ofList (spaced lexemes)).toList [] [] (spaced lexemes) := by
    rw [String.toList_ofList]
    exact .start rfl .nil full
  obtain ⟨passed, words, reached, kinds⟩ := start.through forms
  exact ⟨words, endOf _, ofText_of_reaches reached, rfl, kinds⟩

end EventScript.Token
