import EventScript.Proofs.Token.Spaced

/-!
# Quotation

Every text can be written between quotes, and in several ways: `Token.Spelling` says how a character
may be written there. Whichever way is chosen for each character, the tokens of the quotation are
one text literal, which denotes the text, and the mark of the end (`ofText_quotation`).
-/

namespace EventScript.Token

/-- The ways to write a character between quotes. It may stand for itself, unless it is a quote or a
backslash. Behind a backslash `n`, `r` and `t` are the line feed, the carriage return and the tab,
and every other character is itself. -/
inductive Spelling : Char → List Char → Prop where
  | plain {c : Char} (quote : c ≠ '"') (backslash : c ≠ '\\') : Spelling c [c]
  | lineFeed : Spelling '\n' ['\\', 'n']
  | carriageReturn : Spelling '\r' ['\\', 'r']
  | tab : Spelling '\t' ['\\', 't']
  | itself {c : Char} (lineFeed : c ≠ 'n') (carriageReturn : c ≠ 'r') (tab : c ≠ 't') :
      Spelling c ['\\', c]

/-- A character that is no letter of an escape stands for itself behind a backslash. -/
theorem unescape_itself {c : Char} (lineFeed : c ≠ 'n') (carriageReturn : c ≠ 'r') (tab : c ≠ 't') :
    unescape c = c := by
  rw [unescape, if_neg lineFeed, if_neg carriageReturn, if_neg tab]

/-- Behind the spelling of a character the inside of a literal goes on. -/
theorem Spelling.inside {c : Char} {piece value written : List Char} (spelling : Spelling c piece)
    (onward : Inside value written) : Inside (c :: value) (piece ++ written) := by
  cases spelling with
  | plain quote backslash => exact .plain quote backslash onward
  | lineFeed => exact .escaped 'n' onward
  | carriageReturn => exact .escaped 'r' onward
  | tab => exact .escaped 't' onward
  | itself lineFeed carriageReturn tab =>
    have escaped := Inside.escaped c onward
    rwa [unescape_itself lineFeed carriageReturn tab] at escaped

/-- The spellings of the characters of a text make up the inside of a literal that denotes the
text. -/
theorem inside_of_spellings {value : List Char} {pieces : List (List Char)}
    (spellings : List.Forall₂ Spelling value pieces) : Inside value pieces.flatten := by
  induction spellings with
  | nil => exact .nil
  | cons spelling _ ih => exact spelling.inside ih

/-- A text that is a single token divides into the token and the mark of the end. -/
theorem ofText_lexeme {kind : TokenKind} {lexeme : List Char} (form : Lexeme kind lexeme) :
    ofText (String.ofList lexeme) =
      .ok [⟨kind, String.ofList lexeme, spanBehind [] lexeme⟩, endOf (String.ofList lexeme)] := by
  have parted : Parted [] := nofun
  have full := form.not_atGap parted
  rw [List.append_nil] at full
  have start : Reaches (String.ofList lexeme).toList [] [] (lexeme ++ ([] ++ [])) := by
    rw [String.toList_ofList, List.append_nil, List.append_nil]
    exact .start rfl .nil full
  exact ofText_of_reaches (start.word (form.longest parted) .nil nofun)

/-- However the characters of a text are spelled between quotes, the quotation is one literal that
denotes the text: it spans the whole quotation, on the first line, and the end is on the line that
the line feeds that stand in the quotation lead to. -/
theorem ofText_quotation (text : String) (pieces : List (List Char))
    (spellings : List.Forall₂ Spelling text.toList pieces) :
    let quotation := String.ofList ('"' :: (pieces.flatten ++ ['"']))
    ofText quotation = .ok
      [⟨.text text, quotation, ⟨0, quotation.utf8ByteSize, 1⟩⟩,
        ⟨.endOfInput, "",
          ⟨quotation.utf8ByteSize, quotation.utf8ByteSize, 1 + quotation.toList.count '\n'⟩⟩] := by
  intro quotation
  have form := Lexeme.text (inside_of_spellings spellings)
  rw [String.ofList_toList] at form
  have divides := ofText_lexeme form
  have size : bytes ('"' :: (pieces.flatten ++ ['"'])) = quotation.utf8ByteSize := rfl
  simp only [endOf, spanBehind, bytes_nil, Nat.zero_add, Nat.add_zero, List.count_nil, size,
    bytes_toList] at divides
  exact divides

/-- An escaped backslash and an escaped quote, a line feed, one behind a backslash, a letter of two
bytes behind a backslash, a tab and a letter. -/
theorem ofText_quotation_escapes :
    List.Forall₂ Spelling "\\\"\n\né\tn".toList
      [['\\', '\\'], ['\\', '"'], ['\n'], ['\\', '\n'], ['\\', 'é'], ['\\', 't'], ['n']] ∧
    ofText "\"\\\\\\\"\n\\\n\\é\\tn\"" = .ok
      [⟨.text "\\\"\n\né\tn", "\"\\\\\\\"\n\\\n\\é\\tn\"", ⟨0, 15, 1⟩⟩,
        ⟨.endOfInput, "", ⟨15, 15, 3⟩⟩] := by
  have spellings : List.Forall₂ Spelling "\\\"\n\né\tn".toList
      [['\\', '\\'], ['\\', '"'], ['\n'], ['\\', '\n'], ['\\', 'é'], ['\\', 't'], ['n']] :=
    .cons (.itself (by decide) (by decide) (by decide)) <|
    .cons (.itself (by decide) (by decide) (by decide)) <|
    .cons (.plain (by decide) (by decide)) <|
    .cons (.itself (by decide) (by decide) (by decide)) <|
    .cons (.itself (by decide) (by decide) (by decide)) <|
    .cons .tab <|
    .cons (.plain (by decide) (by decide)) .nil
  have divides := ofText_quotation _ _ spellings
  have written :
    String.ofList ('"' :: ([['\\', '\\'], ['\\', '"'], ['\n'], ['\\', '\n'], ['\\', 'é'],
      ['\\', 't'], ['n']].flatten ++ ['"'])) = "\"\\\\\\\"\n\\\n\\é\\tn\"" := by decide +kernel
  have size : "\"\\\\\\\"\n\\\n\\é\\tn\"".utf8ByteSize = 15 := by decide +kernel
  have lines : 1 + "\"\\\\\\\"\n\\\n\\é\\tn\"".toList.count '\n' = 3 := by decide +kernel
  rw [written] at divides
  simp only [size, lines] at divides
  exact ⟨spellings, divides⟩

end EventScript.Token
