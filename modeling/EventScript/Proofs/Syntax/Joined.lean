import EventScript.Proofs.Syntax.Language
import EventScript.Proofs.Syntax.Sequel
import EventScript.Proofs.Resolution.Spans

/-!
# Programs with a line end between them

Two programs, each readable by itself, are read from their texts with a line end between them as the
statements of the first and then those of the second, further on in the text by the first and the
line end. Nothing of the first reaches into the second: no token goes on across the line end, no
statement of the first goes on with an `else`, since no program starts with one, and the check of a
statement at top level leaves no scope behind.
-/

namespace EventScript

open Parse Phrase

/-! ## Reading -/

/-- Where a word comes first, a program is a declaration and what follows it. -/
theorem Parse.program_cons {depth : Nat} {word : Token} {words : List Token}
    (free : word.kind ≠ .endOfInput) :
    program (depth + 1) (word :: words) =
      (declaration depth >>= fun first => program depth >>= fun others => pure (first :: others))
        (word :: words) := by
  rw [program, peek_bind, current_cons]
  cases kind : word.kind with
  | endOfInput => exact absurd kind free
  | _ => rfl

namespace Parse.Sequel

variable {sequel : Sequel}

/-- A program found in the words before the mark is found when the text goes on, and reading goes on
behind it with what is left of the depth. -/
theorem resumed_program {depth : Nat} {words rest : List Token} {body : Program} (extra : Nat)
    (free : ∀ word ∈ words, word.kind ≠ .endOfInput)
    (found : program depth (sequel.ended words) = .ok (body, rest)) :
    body.length ≤ words.length ∧ ∃ left, extra < left ∧ left + body.length = extra + depth ∧
      ∀ others rest', program left sequel.more = .ok (others, rest') →
        program (extra + depth) (sequel.resumed words) = .ok (body.map sequel.stmt ++ others,
          rest') := by
  induction depth generalizing words body rest with
  | zero => contradiction
  | succ depth ih =>
    cases words with
    | nil =>
      have marked : (current (sequel.ended [])).kind = .endOfInput := sequel.marked
      rw [program, peek_bind, marked] at found
      obtain ⟨rfl, -⟩ := Prod.mk.inj (Except.ok.inj found)
      exact ⟨Nat.le_refl _, extra + (depth + 1), Nat.lt_add_of_pos_right depth.succ_pos, rfl,
        fun others rest' onward => onward⟩
    | cons word words =>
      have here := free word List.mem_cons_self
      have front : sequel.ended (word :: words) = word :: sequel.ended words := rfl
      rw [front, program_cons here, ← front] at found
      obtain ⟨first, middle, start, found⟩ := exists_of_bind found
      obtain ⟨left, rfl, suffix, takes, again⟩ := follows_declaration extra depth _ _ start
      obtain ⟨later, _, onward, found⟩ := exists_of_bind found
      obtain ⟨rfl, rfl⟩ := Prod.mk.inj (Except.ok.inj found)
      have freeLeft : ∀ word ∈ left, word.kind ≠ .endOfInput := fun word member =>
        free word (suffix.mem member)
      obtain ⟨few, depthLeft, enough, count, goesOn⟩ := ih freeLeft onward
      have shorter : left.length < (word :: words).length :=
        Nat.lt_of_le_of_ne suffix.length_le fun same => takes rfl (suffix.eq_of_length same)
      refine ⟨Nat.succ_le_of_lt (Nat.lt_of_le_of_lt few shorter), depthLeft, enough, ?_, ?_⟩
      · rw [List.length_cons]
        omega
      · intro others rest' behind
        have here' : (word.mapSpan sequel.change).kind ≠ .endOfInput := here
        have front' : sequel.resumed (word :: words) =
            word.mapSpan sequel.change :: sequel.resumed words := rfl
        rw [← Nat.add_assoc, front', program_cons here', ← front', bind_ok (again (.inl rfl)),
          bind_ok (goesOn _ _ behind)]
        rfl

end Parse.Sequel

namespace Parse

variable {depth : Nat} {words rest : List Token} {mark other : Token} {body : Program}

/-- Where the text ends, there is nothing to read. -/
theorem program_ended (marked : mark.kind = .endOfInput) (some : 0 < depth) :
    program depth [mark] = .ok ([], [mark]) := by
  obtain ⟨depth, rfl⟩ := Nat.exists_eq_add_of_lt some
  rw [Nat.zero_add, program, peek_bind, current_cons, marked]
  rfl

/-- A program is found again, with its spans changed, in words with their spans changed. -/
theorem program_change {change : Span → Span}
    (upTo : ∀ first last, change (first.upTo last) = (change first).upTo (change last))
    (marked : mark.kind = .endOfInput) (marked' : other.kind = .endOfInput)
    (free : ∀ word ∈ words, word.kind ≠ .endOfInput) (extra : Nat)
    (found : program depth (words ++ [mark]) = .ok (body, rest)) :
    program (extra + depth) (words.map (Token.mapSpan change) ++ [other]) =
      .ok (body.map (Stmt.mapSpans change), [other]) := by
  have fresh : (current [other]).kind ≠ .keyword .else := by
    rw [current_cons, marked']
    nofun
  let ending : Sequel := ⟨mark, [other], change, marked, fresh, upTo⟩
  obtain ⟨-, left, enough, -, again⟩ := ending.resumed_program extra free found
  have last := again _ _ (program_ended marked' (Nat.zero_lt_of_lt enough))
  rwa [List.append_nil] at last

/-- No program that was found changes when its spans are mapped to themselves. -/
theorem mapSpans_id_of_found (marked : mark.kind = .endOfInput)
    (free : ∀ word ∈ words, word.kind ≠ .endOfInput)
    (found : program depth (words ++ [mark]) = .ok (body, rest)) :
    body.map (Stmt.mapSpans id) = body := by
  have again : program (0 + depth) (words.map (Token.mapSpan id) ++ [mark]) =
      .ok (body.map (Stmt.mapSpans id), [mark]) :=
    program_change (fun _ _ => rfl) marked marked free 0 found
  have same : words.map (Token.mapSpan id) = words := List.map_id' words
  rw [same, Nat.zero_add, found] at again
  exact (Prod.mk.inj (Except.ok.inj again)).1.symm

end Parse

namespace Program

/-- A text forms a program by way of its tokens. -/
theorem exists_of_ofText {source : String} {program : Program}
    (reads : ofText source = .ok program) :
    ∃ tokens, Token.ofText source = .ok tokens ∧ ofTokens tokens = .ok program := by
  unfold ofText at reads
  split at reads
  · rename_i tokens divides
    exact ⟨tokens, divides, reads⟩
  · contradiction

/-- No word that is written is a mark of the end. -/
theorem free_of_written {words : List Token}
    (written : ∀ word ∈ words, ∃ lexeme, Token.Lexeme word.kind lexeme) :
    ∀ word ∈ words, word.kind ≠ .endOfInput := by
  intro word member
  obtain ⟨lexeme, form⟩ := written word member
  exact ne_endOfInput form

/-- A program is found with the depth that its tokens allow. -/
theorem exists_of_ofTokens {tokens : List Token} {found : Program}
    (reads : ofTokens tokens = .ok found) :
    ∃ rest, Parse.program (depthFor tokens.length) tokens = .ok (found, rest) := by
  unfold ofTokens at reads
  split at reads
  · rename_i rest run
    obtain rfl := Except.ok.inj reads
    exact ⟨rest, run⟩
  · contradiction

/-- No program starts with an `else`. -/
theorem current_ne_else {words : List Token} {mark : Token} {program : Program}
    (marked : mark.kind = .endOfInput) (free : ∀ word ∈ words, word.kind ≠ .endOfInput)
    (found : ofTokens (words ++ [mark]) = .ok program) :
    (current (words ++ [mark])).kind ≠ .keyword .else := by
  have reads := ofTokens_yields marked free
  rw [found] at reads
  cases words with
  | nil =>
    rw [List.nil_append, current_cons, marked]
    nofun
  | cons word words =>
    rcases reads.starts_declarations with none | ⟨kind, after, same, opens⟩
    · exact absurd none (List.cons_ne_nil _ _)
    · obtain ⟨rfl, -⟩ := List.cons.inj same
      rw [List.cons_append, current_cons]
      intro otherwise
      rw [otherwise] at opens
      contradiction

/-- Words that form a program and tokens that form another form the one and then the other, with
spans changed in the second. -/
theorem ofTokens_joined {change : Span → Span}
    (upTo : ∀ first last, change (first.upTo last) = (change first).upTo (change last))
    {words words' : List Token} {mark mark' : Token} {program program' : Program}
    (marked : mark.kind = .endOfInput) (marked' : mark'.kind = .endOfInput)
    (free : ∀ word ∈ words, word.kind ≠ .endOfInput)
    (free' : ∀ word ∈ words', word.kind ≠ .endOfInput)
    (reads : ofTokens (words ++ [mark]) = .ok program)
    (reads' : ofTokens (words' ++ [mark']) = .ok program') :
    ofTokens (words ++ (words' ++ [mark']).map (Token.mapSpan change)) =
      .ok (program ++ program'.mapSpans change) := by
  have fresh :
    (current ((words' ++ [mark']).map (Token.mapSpan change))).kind ≠ .keyword .else := by
    have fresh := current_ne_else marked' free' reads'
    cases words' <;> exact fresh
  obtain ⟨rest, found⟩ := exists_of_ofTokens reads
  obtain ⟨rest', found'⟩ := exists_of_ofTokens reads'
  let sequel : Sequel := ⟨mark, (words' ++ [mark']).map (Token.mapSpan change), id, marked, fresh,
    fun _ _ => rfl⟩
  obtain ⟨few, left, -, count, again⟩ :=
    sequel.resumed_program (32 * words'.length) free found
  have enough : depthFor (words' ++ [mark']).length ≤ left := by
    simp only [depthFor, List.length_append, List.length_singleton] at count ⊢
    omega
  obtain ⟨extra, rfl⟩ := Nat.exists_eq_add_of_le' enough
  have marked'' : (mark'.mapSpan change).kind = .endOfInput := marked'
  have second := program_change upTo marked' marked'' free' extra found'
  rw [← List.map_singleton, ← List.map_append] at second
  have both := again _ _ second
  have same : words.map (Token.mapSpan id) = words := List.map_id' words
  have depth : 32 * words'.length + depthFor (words ++ [mark]).length =
      depthFor (words ++ (words' ++ [mark']).map (Token.mapSpan change)).length := by
    simp only [depthFor, List.length_append, List.length_map, List.length_singleton]
    omega
  rw [Sequel.resumed, same, mapSpans_id_of_found marked free found, depth] at both
  rw [ofTokens, both]
  rfl

/-- How much further on the second of two texts stands, with a line end between them: by the bytes
and the lines of the first. -/
def behind (first : String) : Span → Span :=
  Span.shift (first.utf8ByteSize + 1) (first.toList.count '\n' + 1)

/-- Two texts that form programs form, with a line end between them, the first program and the
second behind it. The violations of the static rules are those of the first and then those of the
second, so there are none if there are none in either. -/
theorem texts_compose {first second : String} {program program' : Program}
    (reads : ofText first = .ok program) (reads' : ofText second = .ok program') :
    ofText (first ++ "\n" ++ second) = .ok (program ++ program'.mapSpans (behind first)) ∧
      (program ++ program'.mapSpans (behind first) : Program).check =
        program.check ++ program'.check.map (Diagnostic.mapSpan (behind first)) ∧
      (program.check = [] → program'.check = [] →
        (program ++ program'.mapSpans (behind first) : Program).check = []) := by
  obtain ⟨tokens, divides, forms⟩ := exists_of_ofText reads
  obtain ⟨tokens', divides', forms'⟩ := exists_of_ofText reads'
  obtain ⟨words, mark, rfl, marked, written⟩ := exists_words divides
  obtain ⟨words', mark', rfl, marked', written'⟩ := exists_words divides'
  have checked : (program ++ program'.mapSpans (behind first) : Program).check =
      program.check ++ program'.check.map (Diagnostic.mapSpan (behind first)) := by
    rw [check_append, check_mapSpans]
  refine ⟨?_, checked, fun accepted accepted' => ?_⟩
  · rw [ofText, Token.ofText_joined divides divides']
    exact ofTokens_joined (Span.shift_upTo _ _) marked marked' (free_of_written written)
      (free_of_written written') forms forms'
  · rw [checked, accepted, accepted', List.map_nil, List.append_nil]

/-- A comment at the end of the first text, behind an `if` that the second does not go on with. -/
theorem texts_compose_comment :
    ∃ program program', ofText "if (a) b; // else" = .ok program ∧ ofText "break;" = .ok program' ∧
      ofText ("if (a) b; // else" ++ "\n" ++ "break;") =
        .ok (program ++ program'.mapSpans (Span.shift 18 1)) ∧
      (program ++ program'.mapSpans (Span.shift 18 1) : Program).check =
        program.check ++ program'.check.map (Diagnostic.mapSpan (Span.shift 18 1)) := by
  have accepted : (ofText "if (a) b; // else").isOk = true ∧ (ofText "break;").isOk = true := by
    decide +kernel
  cases reads : ofText "if (a) b; // else" with
  | error diagnostic =>
    rw [reads] at accepted
    exact nomatch accepted.1
  | ok program =>
    cases reads' : ofText "break;" with
    | error diagnostic =>
      rw [reads'] at accepted
      exact nomatch accepted.2
    | ok program' =>
      obtain ⟨both, checked, -⟩ := texts_compose reads reads'
      exact ⟨program, program', rfl, rfl, both, checked⟩

end Program

end EventScript
