import EventScript.Proofs.Token.Segmentation

/-!
# Texts with a line end between them

A line end parts whatever stands on both of its sides: it closes a comment, and no token goes on
across it. So the course through two texts with a line end between them is the course through the
first and then the one through the second, further on by the bytes and lines of the first.
-/

namespace EventScript

/-- The span further on in a text, by so many bytes and lines. -/
def Span.shift (offset lines : Nat) (span : Span) : Span :=
  ⟨span.start + offset, span.stop + offset, span.line + lines⟩

/-- The token with its span changed. -/
def Token.mapSpan (change : Span → Span) (token : Token) : Token :=
  { token with span := change token.span }

/-- Joining spans further on is being further on when they are joined. -/
theorem Span.shift_upTo (offset lines : Nat) (first last : Span) :
    (first.upTo last).shift offset lines =
      (first.shift offset lines).upTo (last.shift offset lines) :=
  rfl

namespace Token

variable {gap rest other : List Char}

/-! ## Gaps before a line end -/

/-- What ends a line still ends it when a line end and more text follow. -/
theorem LineEnds.append (ends : LineEnds rest) (other : List Char) :
    LineEnds (rest ++ '\n' :: other) := by
  cases rest with
  | nil => exact fun c first => (Option.some.inj first).symm
  | cons c rest => exact ends

/-- A gap stays one when a line end and more text follow what it stands before. -/
theorem Gap.before (stands : Gap gap rest) (other : List Char) :
    Gap gap (rest ++ '\n' :: other) := by
  induction stands with
  | nil => exact .nil
  | blank blank _ ih => exact .blank blank ih
  | comment line ends _ ih =>
    have closed := ends.append other
    rw [List.append_assoc] at closed
    exact .comment line closed ih

/-- A gap at the end of a text, a line end and the gap at the start of another text are one gap. -/
theorem Gap.joined (stands : Gap gap []) (onward : Gap other rest) :
    Gap (gap ++ '\n' :: other) rest := by
  generalize nothing : ([] : List Char) = last at stands
  induction stands with
  | nil => exact .blank (by decide) onward
  | blank blank _ ih => exact .blank blank (ih nothing)
  | @comment text gap last line ends _ ih =>
    subst nothing
    rw [List.append_nil] at ends
    have closed := ends.append (other ++ rest)
    rw [List.cons_append, List.cons_append, List.append_assoc]
    refine .comment line ?_ (ih rfl)
    rw [List.append_assoc]
    exact closed

/-- Where no gap stands before some text, none does when a line end and more text follow. -/
theorem not_atGap_append (full : ¬ AtGap rest) (some : rest ≠ []) (other : List Char) :
    ¬ AtGap (rest ++ '\n' :: other) := by
  obtain ⟨c, after, rfl⟩ := List.exists_cons_of_ne_nil some
  rintro ⟨c', after', same, starts⟩
  obtain ⟨rfl, rfl⟩ := List.cons.inj same
  rcases starts with blank | ⟨slash, second⟩
  · exact full ⟨c, after, rfl, .inl blank⟩
  · cases after with
    | nil =>
      have newline := Option.some.inj second
      contradiction
    | cons next after => exact full ⟨c, next :: after, rfl, .inr ⟨slash, second⟩⟩

/-! ## Tokens before a line end -/

/-- Only a text literal can go on across a line end. -/
theorem Lexeme.quoted_of_mem {kind : TokenKind} {lexeme : List Char} (form : Lexeme kind lexeme)
    (member : '\n' ∈ lexeme) : lexeme.head? = some '"' := by
  have digits : ∀ {digits : List Char}, (∀ c ∈ digits, c.isDigit = true) → '\n' ∉ digits :=
    fun all inside => absurd (all _ inside) (by decide)
  cases form with
  | identifier starts continues =>
    rcases List.mem_cons.mp member with rfl | inRest
    · exact absurd starts (by decide)
    · exact absurd (continues _ inRest) (by decide)
  | keyword keyword => cases keyword <;> exact absurd member (by decide)
  | whole _ all => exact absurd member (digits all)
  | decimal _ _ allWhole allFraction =>
    rcases List.mem_append.mp member with inWhole | behind
    · exact absurd inWhole (digits allWhole)
    · rcases List.mem_cons.mp behind with point | inFraction
      · exact absurd point (by decide)
      · exact absurd inFraction (digits allFraction)
  | text => rfl
  | symbol symbol => cases symbol <;> exact absurd member (by decide)

/-- Of a text literal nothing more is read than the literal. -/
theorem Lexeme.read_quoted {kind : TokenKind} {lexeme : List Char} (form : Lexeme kind lexeme)
    (quoted : lexeme.head? = some '"') (following : List Char) :
    ∃ tail, lexeme = '"' :: tail ∧
      Token.read '"' (tail ++ following) = .ok ⟨kind, lexeme, following⟩ := by
  have plain : startsName '"' = false ∧ Char.isDigit '"' = false := by decide
  cases form with
  | identifier starts =>
    obtain rfl := Option.some.inj quoted
    rw [plain.1] at starts
    contradiction
  | keyword keyword => cases keyword <;> exact absurd quoted (by decide)
  | whole some all =>
    obtain ⟨first, tail, rfl⟩ := List.exists_cons_of_ne_nil some
    obtain rfl := Option.some.inj quoted
    exact absurd (all _ List.mem_cons_self) (by decide)
  | decimal some _ all =>
    obtain ⟨first, tail, rfl⟩ := List.exists_cons_of_ne_nil some
    obtain rfl := Option.some.inj quoted
    exact absurd (all _ List.mem_cons_self) (by decide)
  | @text value written inside =>
    refine ⟨written ++ ['"'], rfl, ?_⟩
    have read := inside.readText? following
    rw [List.append_assoc, Token.read, plain.1, plain.2, if_neg Bool.false_ne_true,
      if_neg Bool.false_ne_true, if_pos rfl]
    simp only [List.cons_append, List.nil_append, read]
  | symbol symbol => cases symbol <;> exact absurd quoted (by decide)

/-- The longest token at a place stays the longest when a line end and more text follow. -/
theorem Longest.before {kind : TokenKind} {lexeme : List Char} (longest : Longest kind lexeme rest)
    (other : List Char) : Longest kind lexeme (rest ++ '\n' :: other) := by
  obtain ⟨first, tail, reading, more, rfl, read, takes⟩ := longest.form.read (rest ++ '\n' :: other)
  obtain ⟨form, -⟩ := lexeme_of_read read
  rw [takes.taken] at form
  have exact : more = [] := by
    rcases List.append_eq_append_iff.mp takes.left with ⟨beyond, rfl, after⟩ | ⟨beyond, rfl, -⟩
    · -- The reading goes on to the end of the line at least.
      cases beyond with
      | nil =>
        rw [List.append_nil] at form
        have bound := longest.longest _ _ [] form (List.append_nil _)
        rw [List.length_append] at bound
        exact List.eq_nil_of_length_eq_zero (by simpa using bound)
      | cons c beyond =>
        obtain ⟨rfl, -⟩ := List.cons.inj after
        have quoted := form.quoted_of_mem (by simp)
        obtain ⟨tail', same, read'⟩ := longest.form.read_quoted quoted (rest ++ '\n' :: other)
        obtain ⟨rfl, rfl⟩ := List.cons.inj same
        have taken := takes.taken
        rw [← Except.ok.inj (read'.symm.trans read)] at taken
        exact List.append_cancel_left (taken.symm.trans (List.append_nil _).symm)
    · have bound := longest.longest _ _ beyond form (List.append_assoc _ _ _)
      rw [List.length_append] at bound
      exact List.eq_nil_of_length_eq_zero (by omega)
  subst exact
  have found := longest_of_read read
  rw [takes.kind rfl, takes.taken, List.append_nil] at found
  rwa [takes.left]

/-! ## The course through both texts -/

variable {first second passed passed' : List Char} {words words' : List Token}

/-- Before its end the course through the first text goes on as if nothing followed. -/
theorem Reaches.before (reached : Reaches first passed words rest) (some : rest ≠ [])
    (second : List Char) :
    Reaches (first ++ '\n' :: second) passed words (rest ++ '\n' :: second) := by
  induction reached with
  | @start gap rest split stands full =>
    refine .start ?_ (stands.before second) (not_atGap_append full some second)
    rw [split, List.append_assoc]
  | @word passed lexeme gap rest words kind reached longest stands full ih =>
    obtain ⟨head, tail, rfl, -⟩ := longest.read
    have onward := ih (by simp)
    rw [List.append_assoc, List.append_assoc] at onward
    have behind := longest.before second
    rw [List.append_assoc] at behind
    exact .word onward behind (stands.before second) (not_atGap_append full some second)

/-- Spans in the second text are further on by the first text and the line end. -/
theorem spanBehind_append (first passed lexeme : List Char) :
    spanBehind (first ++ '\n' :: passed) lexeme =
      (spanBehind passed lexeme).shift (bytes first + 1) (first.count '\n' + 1) := by
  have newline : bytes ('\n' :: passed) = bytes passed + 1 := by
    rw [bytes_eq, bytes_eq, String.utf8Len_cons]
    rfl
  simp only [spanBehind, Span.shift, bytes_append, newline, List.count_append, List.count_cons_self,
    Span.mk.injEq]
  omega

/-- The course through both texts goes to the end of the first, and on as through the second. -/
theorem Reaches.joined (reached : Reaches first passed words [])
    (onward : Reaches second passed' words' rest) :
    Reaches (first ++ '\n' :: second) (first ++ '\n' :: passed')
      (words ++ words'.map (mapSpan (Span.shift (bytes first + 1) (first.count '\n' + 1))))
        rest := by
  induction onward with
  | @start gap' rest split' stands' full' =>
    have all := reached.split
    rw [List.append_nil] at all
    rw [List.map_nil, List.append_nil]
    cases reached with
    | start split stands =>
      subst all
      refine .start ?_ (stands.joined stands') full'
      rw [split', List.append_assoc, List.cons_append]
    | @word earlier lexeme gap _ words kind reached longest stands =>
      -- The gap behind the last word, the line end and the gap before the second text are one.
      have some : lexeme ++ (gap ++ []) ≠ [] := by
        obtain ⟨head, tail, rfl, -⟩ := longest.read
        exact List.cons_ne_nil _ _
      have behind := reached.before some second
      have last := longest.before second
      have between : gap ++ [] ++ '\n' :: second = gap ++ '\n' :: gap' ++ rest := by
        rw [List.append_nil, split', List.append_assoc, List.cons_append]
      rw [List.append_assoc, between] at behind
      rw [between] at last
      have step := Reaches.word behind last (stands.joined stands') full'
      rw [← List.append_assoc lexeme, ← List.append_assoc earlier, ← all] at step
      exact step
  | @word earlier lexeme gap rest words kind _ longest stands full ih =>
    have step := Reaches.word ih longest stands full
    rw [spanBehind_append, List.append_assoc, List.append_assoc, List.cons_append] at step
    rw [List.map_append]
    exact step

/-- Two texts that divide divide with a line end between them: into the words of the first and then
the tokens of the second, further on by the first text and the line end. -/
theorem ofText_joined {first second : String} {words tokens : List Token} {mark : Token}
    (divides : ofText first = .ok (words ++ [mark])) (divides' : ofText second = .ok tokens) :
    ofText (first ++ "\n" ++ second) = .ok (words ++ tokens.map
      (mapSpan (Span.shift (first.utf8ByteSize + 1) (first.toList.count '\n' + 1)))) := by
  obtain ⟨passed, found, reached, same⟩ := reaches_of_ofText divides
  obtain ⟨rfl, -⟩ := List.append_inj' same rfl
  obtain ⟨passed', words', reached', rfl⟩ := reaches_of_ofText divides'
  have both := reached.joined reached'
  have text : (first ++ "\n" ++ second).toList = first.toList ++ '\n' :: second.toList := by
    rw [String.toList_append, String.toList_append, List.append_assoc]
    rfl
  rw [← text] at both
  have ending : endOf (first ++ "\n" ++ second) = (endOf second).mapSpan
      (Span.shift (first.utf8ByteSize + 1) (first.toList.count '\n' + 1)) := by
    rw [← bytes_toList first]
    exact congrArg _ ((congrArg (spanBehind · []) text).trans (spanBehind_append _ _ _))
  rw [ofText_of_reaches both, ending, bytes_toList, List.map_append, List.map_singleton,
    List.append_assoc]

end Token

end EventScript
