import EventScript.Proofs.Token.Gap
import EventScript.Proofs.Token.Lexeme
import Mathlib.Data.String.Basic

/-!
# The segmentation of a text

Dividing a text goes from gap to token and from token to gap, and each token is the longest that can
start where it stands. `Reaches` is that course, said without the scanner. The scanner runs through
it (`Reaches.scan`), and there is always a place where it ends, at the end of the text or at an
obstacle (`exists_end`). What is known of a text that divides, its `Segmentation`, follows from the
course alone.
-/

namespace EventScript.Token

/-- The size of characters in bytes. -/
def bytes (chars : List Char) : Nat := (String.ofList chars).utf8ByteSize

/-- No characters take no bytes. -/
@[simp] theorem bytes_nil : bytes [] = 0 := rfl

/-- The bytes of a text are counted as the library counts them. -/
theorem bytes_eq (chars : List Char) : bytes chars = String.utf8Len chars :=
  String.utf8ByteSize_ofList chars

/-- The bytes of a text that is joined are those of its parts. -/
@[simp] theorem bytes_append (first last : List Char) :
    bytes (first ++ last) = bytes first + bytes last := by
  simp only [bytes_eq, String.utf8Len_append]

/-- The span of `lexeme` where it stands behind `passed`. -/
def spanBehind (passed lexeme : List Char) : Span :=
  ⟨bytes passed, bytes passed + bytes lexeme, 1 + passed.count '\n'⟩

/-- The part of a text from one byte offset to another. -/
def slice (source : String) (start stop : Nat) : String :=
  String.Pos.Raw.extract source ⟨start⟩ ⟨stop⟩

/-- The characters in the middle of a text lie between their offsets. -/
theorem slice_middle {source : String} {first middle last : List Char}
    (split : source.toList = first ++ middle ++ last) :
    slice source (bytes first) (bytes first + bytes middle) = String.ofList middle := by
  have whole : source = String.ofList (first ++ middle ++ last) := by
    rw [← split, String.ofList_toList]
  rw [whole, bytes_eq, bytes_eq]
  exact String.extract_of_valid first middle last

/-- Passing characters adds their bytes and their line ends. -/
theorem after_eq (place : Place) (chars : List Char) :
    place.after chars = ⟨place.offset + bytes chars, place.line + chars.count '\n'⟩ := by
  induction chars generalizing place with
  | nil => rfl
  | cons c chars ih =>
    rw [Place.after_cons, ih]
    by_cases newline : c = '\n'
    · subst newline
      simp only [Place.advance, bytes_eq, String.utf8Len_cons, if_pos, List.count_cons_self,
        Place.mk.injEq]
      omega
    · simp only [Place.advance, bytes_eq, String.utf8Len_cons, if_neg newline,
        List.count_cons_of_ne newline, Place.mk.injEq, and_true]
      omega

/-- Where the text starts, and `passed` has been passed, is where the span of what follows
starts. -/
theorem span_after (passed lexeme : List Char) :
    (Place.after {} passed).span lexeme = spanBehind passed lexeme := by
  simp only [Place.span, after_eq, spanBehind, Nat.zero_add]

/-- Going through `source` from its start comes to a place behind `passed`, where no gap stands and
`rest` is left, by way of `words`. Each of these is the longest token that can start where it
stands. -/
inductive Reaches (source : List Char) : List Char → List Token → List Char → Prop where
  | start {gap rest : List Char} (split : source = gap ++ rest) (stands : Gap gap rest)
      (full : ¬ AtGap rest) : Reaches source gap [] rest
  | word {passed lexeme gap rest : List Char} {words : List Token} {kind : TokenKind}
      (reached : Reaches source passed words (lexeme ++ (gap ++ rest)))
      (longest : Longest kind lexeme (gap ++ rest)) (stands : Gap gap rest) (full : ¬ AtGap rest) :
      Reaches source (passed ++ (lexeme ++ gap))
        (words ++ [⟨kind, String.ofList lexeme, spanBehind passed lexeme⟩]) rest

/-- Why no token starts with `first` before `rest`, and the characters that this concerns: no token
starts so at all, or there is a quote that none closes. -/
inductive Obstacle :
    (first : Char) → (rest : List Char) → ScanFault → (extent : List Char) → Prop where
  | character {c : Char} {rest : List Char}
      (starts : ∀ kind lexeme, Lexeme kind lexeme → lexeme.head? ≠ some c) :
      Obstacle c rest (.unexpected c) [c]
  | quote {rest : List Char}
      (unclosed : ∀ value written after, Inside value written → rest ≠ written ++ '"' :: after) :
      Obstacle '"' rest .unterminatedText ('"' :: rest)

/-- Whether a symbol can be read depends on its first character only. -/
theorem readSymbol?_eq_none {first : Char} {rest : List Char} (none : readSymbol? first rest = none)
    (other : List Char) : readSymbol? first other = Option.none := by
  unfold readSymbol? at none ⊢
  cases single : single? first with
  | some symbol =>
    rw [single] at none
    contradiction
  | none =>
    cases grows : prolonged? first with
    | none => rfl
    | some both =>
      simp only [single, grows] at none
      split at none <;> contradiction

/-- A failure to read is an obstacle. -/
theorem obstacle_of_read {first : Char} {rest extent : List Char} {fault : ScanFault}
    (failed : read first rest = .error (fault, extent)) : Obstacle first rest fault extent := by
  unfold read at failed
  split at failed
  · contradiction
  · rename_i word
    split at failed
    · contradiction
    · rename_i digit
      split at failed
      · rename_i quote
        subst quote
        split at failed
        · contradiction
        · rename_i unread
          obtain ⟨rfl, rfl⟩ := Prod.mk.inj (Except.error.inj failed)
          refine .quote fun value written after inside same => ?_
          rw [same, inside.readText?] at unread
          contradiction
      · rename_i quote
        split at failed
        · contradiction
        · rename_i unread
          obtain ⟨rfl, rfl⟩ := Prod.mk.inj (Except.error.inj failed)
          refine .character fun kind lexeme form starts => ?_
          obtain ⟨first', tail, reading, more, rfl, found, -⟩ := form.read []
          obtain rfl := Option.some.inj starts
          rw [read, if_neg word, if_neg digit, if_neg quote, readSymbol?_eq_none unread] at found
          contradiction

/-- Reading fails just at obstacles. -/
theorem read_eq_error_iff {first : Char} {rest extent : List Char} {fault : ScanFault} :
    read first rest = .error (fault, extent) ↔ Obstacle first rest fault extent := by
  refine ⟨obstacle_of_read, fun obstacle => ?_⟩
  cases obstacle with
  | character starts =>
    cases found : read first rest with
    | ok reading =>
      obtain ⟨form, split⟩ := lexeme_of_read found
      obtain ⟨first', tail, reading', more, lexeme, -⟩ := form.read []
      rw [lexeme, List.cons_append, List.cons.injEq] at split
      rw [lexeme] at form
      exact absurd (congrArg some split.1.symm) (starts _ _ form)
    | error failure =>
      obtain ⟨fault, extent⟩ := failure
      cases obstacle_of_read found with
      | character => rfl
      | quote => exact absurd rfl (starts _ _ (.text .nil))
  | quote unclosed =>
    cases found : readText? rest with
    | none =>
      have plain : startsName '"' = false ∧ Char.isDigit '"' = false := by decide
      rw [read, plain.1, plain.2, if_neg Bool.false_ne_true, if_neg Bool.false_ne_true, if_pos rfl,
        found]
    | some inner =>
      obtain ⟨written, inside, -, same⟩ := inside_of_readText? found
      exact absurd same (unclosed _ _ _ inside)

variable {place : Place}

/-- A gap takes nothing off the bound. -/
theorem scan_gap {gap rest : List Char} (stands : Gap gap rest) (full : ¬ AtGap rest)
    (bound : Nat) :
    scan (bound + 1) place (gap ++ rest) = scan (bound + 1) (place.after gap) rest := by
  rw [scan.eq_2, scan.eq_2, stands.skip full, skip_of_not_atGap full]

/-- Where a word is read, it comes first among the tokens. -/
theorem scan_word {first : Char} {rest : List Char} {reading : Reading}
    (found : read first rest = .ok reading) (full : ¬ AtGap (first :: rest)) (bound : Nat) :
    scan (bound + 1) place (first :: rest) =
      (scan bound (place.after reading.lexeme) reading.rest).map
        (⟨reading.kind, String.ofList reading.lexeme, place.span reading.lexeme⟩ :: ·) := by
  rw [scan.eq_2, skip_of_not_atGap full]
  dsimp only
  rw [found]
  dsimp only
  cases scan bound (place.after reading.lexeme) reading.rest <;> rfl

/-- Where no word is read, the scan fails. -/
theorem scan_obstacle {first : Char} {rest extent : List Char} {fault : ScanFault}
    (obstacle : Obstacle first rest fault extent) (full : ¬ AtGap (first :: rest)) (bound : Nat) :
    scan (bound + 1) place (first :: rest) = .error (fault.diagnostic (place.span extent)) := by
  rw [scan.eq_2, skip_of_not_atGap full]
  dsimp only
  rw [read_eq_error_iff.mpr obstacle]

namespace Reaches

variable {source passed rest : List Char} {words : List Token}

/-- What was passed and what is left make up the text. -/
theorem split (reached : Reaches source passed words rest) : source = passed ++ rest := by
  induction reached with
  | start split => exact split
  | word _ _ _ _ ih => rw [ih, List.append_assoc, List.append_assoc]

/-- The course stops where no gap stands. -/
theorem full (reached : Reaches source passed words rest) : ¬ AtGap rest := by
  cases reached <;> assumption

/-- There are no more words than characters that were passed. -/
theorem length_words (reached : Reaches source passed words rest) :
    words.length ≤ passed.length := by
  induction reached with
  | start => exact Nat.zero_le _
  | word _ longest _ _ ih =>
    obtain ⟨first, tail, rfl, -⟩ := longest.read
    simp only [List.length_append, List.length_cons, List.length_nil]
    omega

/-- The scanner runs through the course. -/
theorem scan (reached : Reaches source passed words rest) (bound : Nat) :
    Token.scan (words.length + bound + 1) {} source =
      (Token.scan (bound + 1) (Place.after {} passed) rest).map (words ++ ·) := by
  induction reached generalizing bound with
  | @start gap rest split stands full =>
    have same : Token.scan (bound + 1) {} source =
        Token.scan (bound + 1) (Place.after {} gap) rest := by
      rw [split, scan_gap stands full]
    rw [List.length_nil, Nat.zero_add, same]
    cases Token.scan (bound + 1) (Place.after {} gap) rest <;> rfl
  | @word passed lexeme gap rest words kind reached longest stands full ih =>
    obtain ⟨first, tail, rfl, read⟩ := longest.read
    have step := @scan_word (Place.after {} passed) _ _ _ read reached.full (bound + 1)
    rw [scan_gap stands full, ← Place.after_append, ← Place.after_append, span_after] at step
    have count :
      (words ++ [⟨kind, String.ofList (first :: tail), spanBehind passed (first :: tail)⟩] :
        List Token).length + bound + 1 = words.length + (bound + 1) + 1 := by
      rw [List.length_append, List.length_singleton]
      omega
    rw [count, ih, List.cons_append, step]
    cases Token.scan (bound + 1) (Place.after {} (passed ++ (first :: tail ++ gap))) rest with
    | error diagnostic => rfl
    | ok tokens => exact congrArg Except.ok (List.append_cons words _ tokens)

/-- From every place of the course it goes on to the end of the text or to an obstacle. -/
theorem exists_end (reached : Reaches source passed words rest) :
    (∃ passed words, Reaches source passed words []) ∨
      ∃ passed words first rest fault extent, Reaches source passed words (first :: rest) ∧
        Obstacle first rest fault extent := by
  generalize length : rest.length = left
  induction left using Nat.strongRecOn generalizing passed words rest with
  | ind left ih =>
    cases rest with
    | nil => exact .inl ⟨passed, words, reached⟩
    | cons first rest =>
      cases found : read first rest with
      | error failure =>
        obtain ⟨fault, extent⟩ := failure
        exact .inr ⟨passed, words, first, rest, fault, extent, reached, obstacle_of_read found⟩
      | ok reading =>
        have longest := longest_of_read found
        obtain ⟨-, split⟩ := lexeme_of_read found
        obtain ⟨lexemeFirst, lexemeTail, lexeme, -⟩ := longest.read
        obtain ⟨⟨gap, after, rest_eq, stands, full⟩, -⟩ := exists_gap reading.rest
        rw [rest_eq] at longest split
        have shorter : after.length < left := by
          rw [← length, split, lexeme]
          simp only [List.length_append, List.length_cons]
          omega
        exact ih after.length shorter (.word (split ▸ reached) longest stands full) rfl

/-- The bound that the scanner starts with suffices for the words of the course. -/
theorem scan_all (reached : Reaches source passed words rest) :
    ∃ bound, Token.scan (source.length + 1) {} source =
      (Token.scan (bound + 1) (Place.after {} passed) rest).map (words ++ ·) := by
  have enough : words.length ≤ source.length := by
    rw [reached.split, List.length_append]
    exact Nat.le_trans reached.length_words (Nat.le_add_right _ _)
  obtain ⟨bound, length⟩ := Nat.exists_eq_add_of_le enough
  exact ⟨bound, length ▸ reached.scan bound⟩

end Reaches

variable {source : String} {passed rest : List Char} {words : List Token}

/-- The token that marks the end of a text. -/
def endOf (source : String) : Token := ⟨.endOfInput, "", spanBehind source.toList []⟩

/-- A text whose course comes to its end divides into the words of the course. -/
theorem ofText_of_reaches (reached : Reaches source.toList passed words []) :
    ofText source = .ok (words ++ [endOf source]) := by
  obtain ⟨bound, scanned⟩ := reached.scan_all
  have whole : source.toList = passed := reached.split.trans (List.append_nil _)
  show scan _ _ _ = _
  rw [scanned, scan.eq_2, skip_of_not_atGap reached.full]
  simp only [span_after, endOf, whole]
  rfl

/-- A text whose course comes to an obstacle does not divide. -/
theorem ofText_of_obstacle {first : Char} {extent : List Char} {fault : ScanFault}
    (reached : Reaches source.toList passed words (first :: rest))
    (obstacle : Obstacle first rest fault extent) :
    ofText source = .error (fault.diagnostic (spanBehind passed extent)) := by
  obtain ⟨bound, scanned⟩ := reached.scan_all
  show scan _ _ _ = _
  rw [scanned, scan_obstacle obstacle reached.full, span_after]
  rfl

/-- Every text has a course, which ends at its end or at an obstacle. -/
theorem exists_course (source : String) :
    (∃ passed words, Reaches source.toList passed words []) ∨
      ∃ passed words first rest fault extent, Reaches source.toList passed words (first :: rest) ∧
        Obstacle first rest fault extent := by
  obtain ⟨⟨gap, rest, split, stands, full⟩, -⟩ := exists_gap source.toList
  exact (Reaches.start split stands full).exists_end

/-- The tokens of a text that divides are the words of its course and the mark of its end. -/
theorem reaches_of_ofText {tokens : List Token} (divides : ofText source = .ok tokens) :
    ∃ passed words, Reaches source.toList passed words [] ∧ tokens = words ++ [endOf source] := by
  rcases exists_course source with ⟨passed, words, reached⟩ |
      ⟨passed, words, first, rest, fault, extent, reached, obstacle⟩
  · rw [ofText_of_reaches reached] at divides
    exact ⟨passed, words, reached, (Except.ok.inj divides).symm⟩
  · rw [ofText_of_obstacle reached obstacle] at divides
    contradiction

/-! ## What is known of a text that divides -/

/-- Where the last of the words stops. -/
def stopOf (words : List Token) : Nat := (words.getLast?.map fun word => word.span.stop).getD 0

/-- How the tokens of a text lie in it. -/
structure Segmentation (source : String) (tokens : List Token) : Prop where
  /-- One mark at the very end, and before it words with at least one character, each the longest
  token that can start where it stands. -/
  words : ∃ words last, tokens = words ++ [last] ∧ last.kind = .endOfInput ∧
    last.span.start = source.utf8ByteSize ∧ last.span.stop = source.utf8ByteSize ∧
    ∀ word ∈ words, word.kind ≠ .endOfInput ∧ word.span.start < word.span.stop ∧
      Longest word.kind word.lexeme.toList
        (slice source word.span.stop source.utf8ByteSize).toList
  ordered : tokens.Pairwise fun earlier later => earlier.span.stop ≤ later.span.start
  slices : ∀ token ∈ tokens, slice source token.span.start token.span.stop = token.lexeme
  lines : ∀ token ∈ tokens,
    token.span.line = 1 + (slice source 0 token.span.start).toList.count '\n'
  /-- Only blanks and comments stand before the first token and between a token and the next. -/
  gaps : ∀ before token after, tokens = before ++ token :: after →
    Gap (slice source (stopOf before) token.span.start).toList
      (slice source token.span.start source.utf8ByteSize).toList

/-- The characters of a text take as many bytes as the text. -/
theorem bytes_toList (source : String) : bytes source.toList = source.utf8ByteSize := by
  rw [bytes, String.ofList_toList]

/-- The characters at the start of a text. -/
theorem slice_first {first last : List Char} (split : source.toList = first ++ last) :
    slice source 0 (bytes first) = String.ofList first := by
  have middle := @slice_middle source [] first last split
  rwa [bytes_nil, Nat.zero_add] at middle

/-- The characters at the end of a text. -/
theorem slice_last {first last : List Char} (split : source.toList = first ++ last) :
    slice source (bytes first) source.utf8ByteSize = String.ofList last := by
  have middle := @slice_middle source first last [] (split.trans (List.append_nil _).symm)
  rwa [← bytes_append, ← split, bytes_toList] at middle

/-- No token is empty. -/
theorem Longest.bytes_pos {kind : TokenKind} {lexeme : List Char}
    (longest : Longest kind lexeme rest) :
    0 < bytes lexeme := by
  obtain ⟨first, tail, rfl, -⟩ := longest.read
  rw [bytes_eq, String.utf8Len_cons]
  exact Nat.lt_of_lt_of_le first.utf8Size_pos (Nat.le_add_left _ _)

namespace Reaches

variable {source passed rest : List Char} {words : List Token}

/-- Each word of the course is the longest token at the place that the words before it lead to. -/
theorem stands {before after : List Token} {word : Token}
    (reached : Reaches source passed (before ++ word :: after) rest) :
    ∃ earlier lexeme following, Reaches source earlier before (lexeme ++ following) ∧
      Longest word.kind lexeme following ∧ word.lexeme = String.ofList lexeme ∧
      word.span = spanBehind earlier lexeme := by
  generalize all : before ++ word :: after = words at reached
  induction reached generalizing after with
  | start =>
    exact absurd (List.append_eq_nil_iff.mp all).2 (List.cons_ne_nil _ _)
  | @word passed lexeme gap rest words kind reached longest _ _ ih =>
    rcases List.eq_nil_or_concat after with rfl | ⟨others, last, rfl⟩
    · obtain ⟨rfl, same⟩ := List.append_inj' all rfl
      obtain rfl := List.singleton_inj.mp same
      exact ⟨passed, lexeme, gap ++ rest, reached, longest, rfl, rfl⟩
    · rw [List.concat_eq_append, ← List.cons_append, ← List.append_assoc] at all
      exact ih (List.append_inj' all rfl).1

/-- The words lie before the place that they lead to. -/
theorem stop_le (reached : Reaches source passed words rest) :
    ∀ word ∈ words, word.span.stop ≤ bytes passed := by
  induction reached with
  | start => exact nofun
  | word _ _ _ _ ih =>
    intro word member
    simp only [bytes_append]
    rcases List.mem_append.mp member with earlier | last
    · exact Nat.le_trans (ih word earlier) (Nat.le_add_right _ _)
    · rw [List.mem_singleton.mp last]
      simp only [spanBehind]
      omega

/-- Each word of the course lies behind the words before it. -/
theorem ordered (reached : Reaches source passed words rest) :
    words.Pairwise fun earlier later => earlier.span.stop ≤ later.span.start := by
  induction reached with
  | start => exact .nil
  | word reached _ _ _ ih =>
    refine List.pairwise_append.mpr ⟨ih, List.pairwise_singleton _ _,
      fun earlier member last inLast => ?_⟩
    rw [List.mem_singleton.mp inLast]
    exact reached.stop_le earlier member

/-- Between the last of the words and the place that they lead to there is a gap. -/
theorem gap (reached : Reaches source passed words rest) :
    ∃ earlier gap, passed = earlier ++ gap ∧ bytes earlier = stopOf words ∧ Gap gap rest := by
  cases reached with
  | start split stands => exact ⟨[], passed, rfl, rfl, stands⟩
  | @word earlier lexeme gap _ words kind reached longest stands _ =>
    refine ⟨earlier ++ lexeme, gap, (List.append_assoc _ _ _).symm, ?_, stands⟩
    rw [bytes_append, stopOf, List.getLast?_concat]
    rfl

end Reaches

/-- The gap before the place that the words lead to, cut out of the text. -/
theorem gap_slice (reached : Reaches source.toList passed words rest) :
    Gap (slice source (stopOf words) (bytes passed)).toList
      (slice source (bytes passed) source.utf8ByteSize).toList := by
  obtain ⟨earlier, gap, rfl, stop, stands⟩ := reached.gap
  rw [← stop, slice_last reached.split, bytes_append, slice_middle reached.split,
    String.toList_ofList, String.toList_ofList]
  exact stands

/-- Each token of a text, the mark of the end too, stands at the place that the tokens before it
lead to. -/
theorem Reaches.token {before after : List Token} {token : Token}
    (reached : Reaches source.toList passed words [])
    (all : words ++ [endOf source] = before ++ token :: after) :
    ∃ earlier lexeme following, Reaches source.toList earlier before (lexeme ++ following) ∧
      token.lexeme = String.ofList lexeme ∧ token.span = spanBehind earlier lexeme := by
  rcases List.eq_nil_or_concat after with rfl | ⟨others, last, rfl⟩
  · obtain ⟨rfl, same⟩ := List.append_inj' all rfl
    obtain rfl := List.singleton_inj.mp same
    have whole : source.toList = passed := reached.split.trans (List.append_nil _)
    exact ⟨passed, [], [], reached, rfl, congrArg (spanBehind · []) whole⟩
  · rw [List.concat_eq_append, ← List.cons_append, ← List.append_assoc] at all
    obtain ⟨rfl, -⟩ := List.append_inj' all rfl
    obtain ⟨earlier, lexeme, following, behind, -, written, span⟩ := reached.stands
    exact ⟨earlier, lexeme, following, behind, written, span⟩

/-- A text whose course comes to its end is segmented by its tokens. -/
theorem segmentation_of_reaches (reached : Reaches source.toList passed words []) :
    Segmentation source (words ++ [endOf source]) where
  words := by
    refine ⟨words, endOf source, rfl, rfl, bytes_toList source, bytes_toList source, ?_⟩
    intro word member
    obtain ⟨before, after, rfl⟩ := List.append_of_mem member
    obtain ⟨earlier, lexeme, following, behind, longest, written, span⟩ := reached.stands
    have filled := longest.bytes_pos
    refine ⟨?_, ?_, ?_⟩
    · -- The mark of the end has no lexeme, but each word of a course has one.
      intro ending
      have form := longest.form
      rw [ending] at form
      cases form
    · rw [span]
      exact Nat.lt_add_of_pos_right filled
    · have split := behind.split
      rw [← List.append_assoc] at split
      rw [span, written, String.toList_ofList, spanBehind, ← bytes_append, slice_last split,
        String.toList_ofList]
      exact longest
  ordered := by
    have start : (endOf source).span.start = bytes passed := by
      rw [endOf, reached.split, List.append_nil, spanBehind]
    refine List.pairwise_append.mpr ⟨reached.ordered, List.pairwise_singleton _ _, ?_⟩
    intro earlier member last inLast
    rw [List.mem_singleton.mp inLast, start]
    exact reached.stop_le earlier member
  slices := by
    intro token member
    obtain ⟨before, after, all⟩ := List.append_of_mem member
    obtain ⟨earlier, lexeme, following, behind, written, span⟩ := reached.token all
    have split := behind.split
    rw [← List.append_assoc] at split
    rw [span, written]
    exact slice_middle split
  lines := by
    intro token member
    obtain ⟨before, after, all⟩ := List.append_of_mem member
    obtain ⟨earlier, lexeme, following, behind, -, span⟩ := reached.token all
    rw [span, spanBehind, slice_first behind.split, String.toList_ofList]
  gaps := by
    intro before token after all
    obtain ⟨earlier, lexeme, following, behind, -, span⟩ := reached.token all
    rw [span]
    exact gap_slice behind

/-- The tokens of a text segment it. A text does not divide just if its course comes to an obstacle,
and then it is the obstacle that is reported. -/
theorem ofText_segments (source : String) :
    (∀ tokens, ofText source = .ok tokens → Segmentation source tokens) ∧
      ∀ diagnostic, ofText source = .error diagnostic ↔
        ∃ passed words first rest fault extent,
          Reaches source.toList passed words (first :: rest) ∧ Obstacle first rest fault extent ∧
            diagnostic = fault.diagnostic (spanBehind passed extent) := by
  constructor
  · intro tokens divides
    obtain ⟨passed, words, reached, rfl⟩ := reaches_of_ofText divides
    exact segmentation_of_reaches reached
  · intro diagnostic
    constructor
    · intro failed
      rcases exists_course source with ⟨passed, words, reached⟩ |
          ⟨passed, words, first, rest, fault, extent, reached, obstacle⟩
      · rw [ofText_of_reaches reached] at failed
        contradiction
      · rw [ofText_of_obstacle reached obstacle] at failed
        exact ⟨passed, words, first, rest, fault, extent, reached, obstacle,
          (Except.error.inj failed).symm⟩
    · rintro ⟨passed, words, first, rest, fault, extent, reached, obstacle, rfl⟩
      exact ofText_of_obstacle reached obstacle

end EventScript.Token
