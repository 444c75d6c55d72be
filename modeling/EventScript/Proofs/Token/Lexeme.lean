import EventScript.Token.Scan

/-!
# Lexemes

The written forms of tokens, said without the scanner: `Token.Lexeme` has one rule for each sort of
word, and `Token.Longest` picks the longest of the forms that can start at a place. Reading a token
finds just these. It takes every form that stands there, and more only if the text goes on the same
way (`Lexeme.read`), so what it takes is the longest (`longest_of_read`) and nothing else is
(`Longest.read`).
-/

namespace EventScript

/-- The reserved word of some spelling is the one so spelled. -/
theorem Keyword.ofSpelling?_spelling (keyword : Keyword) :
    ofSpelling? keyword.spelling = some keyword := by
  cases keyword <;> decide

/-- No reserved word is found just for words that are not reserved. -/
theorem Keyword.ofSpelling?_eq_none_iff (word : String) :
    ofSpelling? word = none ↔ ∀ keyword : Keyword, keyword.spelling ≠ word := by
  unfold ofSpelling?
  rw [List.find?_eq_none]
  exact ⟨fun free keyword same => free keyword keyword.mem_all (beq_iff_eq.mpr same),
    fun free keyword _ same => free keyword (beq_iff_eq.mp same)⟩

/-- The reserved word found is spelled like the word. -/
theorem Keyword.spelling_of_ofSpelling? {word : String} {keyword : Keyword}
    (found : ofSpelling? word = some keyword) : keyword.spelling = word :=
  beq_iff_eq.mp (List.find?_some (p := fun keyword : Keyword => keyword.spelling == word) found)

namespace Token

/-- What may stand between quotes, with the value that it denotes. A backslash takes the character
after it along, whatever that is. -/
inductive Inside : (value written : List Char) → Prop where
  | nil : Inside [] []
  | plain {c : Char} {value written : List Char} (quote : c ≠ '"') (backslash : c ≠ '\\')
      (onward : Inside value written) : Inside (c :: value) (c :: written)
  | escaped (c : Char) {value written : List Char} (onward : Inside value written) :
      Inside (unescape c :: value) ('\\' :: c :: written)

/-- The written forms of tokens. -/
inductive Lexeme : TokenKind → List Char → Prop where
  | identifier {first : Char} {rest : List Char} (starts : startsName first = true)
      (continues : ∀ c ∈ rest, continuesName c = true)
      (free : ∀ keyword : Keyword, keyword.spelling ≠ String.ofList (first :: rest)) :
      Lexeme (.identifier (String.ofList (first :: rest))) (first :: rest)
  | keyword (keyword : Keyword) : Lexeme (.keyword keyword) keyword.spelling.toList
  | whole {digits : List Char} (some : digits ≠ []) (all : ∀ c ∈ digits, c.isDigit = true) :
      Lexeme (.number (Number.ofLiteral digits [])) digits
  | decimal {whole fraction : List Char} (someWhole : whole ≠ []) (someFraction : fraction ≠ [])
      (allWhole : ∀ c ∈ whole, c.isDigit = true) (allFraction : ∀ c ∈ fraction, c.isDigit = true) :
      Lexeme (.number (Number.ofLiteral whole fraction)) (whole ++ '.' :: fraction)
  | text {value written : List Char} (inside : Inside value written) :
      Lexeme (.text (String.ofList value)) ('"' :: (written ++ ['"']))
  | symbol (symbol : Symbol) : Lexeme (.symbol symbol) symbol.spelling.toList

/-- Of all tokens that can start the text `lexeme ++ rest`, the longest is `lexeme`. -/
structure Longest (kind : TokenKind) (lexeme rest : List Char) : Prop where
  form : Lexeme kind lexeme
  longest : ∀ (kind' : TokenKind) (lexeme' rest' : List Char), Lexeme kind' lexeme' →
    lexeme' ++ rest' = lexeme ++ rest → lexeme'.length ≤ lexeme.length

/-- The text is over, or goes on with a blank. -/
def Parted (rest : List Char) : Prop := ∀ c, rest.head? = some c → Text.isBlank c = true

/-! ## Characters -/

/-- Blanks lie outside of the printable characters of ASCII. -/
theorem code_of_isBlank {c : Char} (blank : Text.isBlank c = true) :
    c.toNat ≤ 32 ∨ 133 ≤ c.toNat := by
  simp only [Text.isBlank, Bool.or_eq_true, Bool.and_eq_true, decide_eq_true_eq,
    beq_iff_eq] at blank
  omega

/-- The codes of the letters are in two ranges. -/
theorem code_of_isAlpha {c : Char} (letter : c.isAlpha = true) :
    (65 ≤ c.toNat ∧ c.toNat ≤ 90) ∨ (97 ≤ c.toNat ∧ c.toNat ≤ 122) := by
  delta Char.isAlpha Char.isUpper Char.isLower at letter
  simp only [Bool.or_eq_true, Bool.and_eq_true, decide_eq_true_eq, ge_iff_le,
    UInt32.le_iff_toNat_le] at letter
  exact letter

/-- The codes of the digits are in one range. -/
theorem code_of_isDigit {c : Char} (digit : c.isDigit = true) : 48 ≤ c.toNat ∧ c.toNat ≤ 57 := by
  simp only [Char.isDigit, Bool.and_eq_true, decide_eq_true_eq, ge_iff_le,
    UInt32.le_iff_toNat_le] at digit
  exact digit

/-- The characters of names lie among the printable characters of ASCII. -/
theorem code_of_continuesName {c : Char} (continues : continuesName c = true) :
    48 ≤ c.toNat ∧ c.toNat ≤ 122 := by
  simp only [continuesName, Char.isAlphanum, Bool.or_eq_true, beq_iff_eq] at continues
  rcases continues with (letter | digit) | rfl
  · have code := code_of_isAlpha letter
    omega
  · have code := code_of_isDigit digit
    omega
  · decide

/-- A digit can stand in a name. -/
theorem continuesName_of_isDigit {c : Char} (digit : c.isDigit = true) :
    continuesName c = true := by
  simp only [continuesName, Char.isAlphanum, digit, Bool.or_true, Bool.true_or]

/-- A name can go on with what it can start with. -/
theorem continuesName_of_startsName {c : Char} (starts : startsName c = true) :
    continuesName c = true := by
  simp only [startsName, Bool.or_eq_true] at starts
  rcases starts with letter | underscore
  · simp only [continuesName, Char.isAlphanum, letter, Bool.true_or]
  · simp only [continuesName, underscore, Bool.or_true]

/-- No name starts with a digit. -/
theorem startsName_of_isDigit {c : Char} (digit : c.isDigit = true) : startsName c = false := by
  have code := code_of_isDigit digit
  refine Bool.eq_false_iff.mpr fun starts => ?_
  simp only [startsName, Bool.or_eq_true, beq_iff_eq] at starts
  rcases starts with letter | rfl
  · have other := code_of_isAlpha letter
    omega
  · exact absurd digit (by decide)

/-- A blank stands in no name. -/
theorem continuesName_of_isBlank {c : Char} (blank : Text.isBlank c = true) :
    continuesName c = false := by
  have outside := code_of_isBlank blank
  refine Bool.eq_false_iff.mpr fun continues => ?_
  have inside := code_of_continuesName continues
  omega

section Parted

variable {rest : List Char}

/-- A run of characters that stand in names ends where the text is parted. -/
theorem Parted.takeWhile (parted : Parted rest) {p : Char → Bool}
    (inNames : ∀ c, p c = true → continuesName c = true) : rest.takeWhile p = [] := by
  cases rest with
  | nil => rfl
  | cons c rest =>
    rw [List.takeWhile_cons_of_neg]
    intro holds
    have out := continuesName_of_isBlank (parted c rfl)
    rw [inNames c holds] at out
    contradiction

/-- Where the text is parted no number goes on. -/
theorem Parted.readFraction (parted : Parted rest) : Token.readFraction rest = ([], rest) := by
  unfold Token.readFraction
  split
  · have outside := code_of_isBlank (parted '.' rfl)
    contradiction
  · rfl

end Parted

/-! ## Reading what stands there -/

/-- A reading that takes at least `lexeme` off the text `lexeme ++ following`, and `more` after it.
It takes nothing more if the text is parted there, and then it is of the given kind. -/
structure Reading.Takes (reading : Reading) (kind : TokenKind) (lexeme following more : List Char) :
    Prop where
  taken : reading.lexeme = lexeme ++ more
  left : following = more ++ reading.rest
  kind : more = [] → reading.kind = kind
  parted : Parted following → more = []

/-- A quotation mark ends a text. -/
theorem readText?_quote (rest : List Char) : readText? ('"' :: rest) = some ([], ['"'], rest) := by
  rw [readText?.eq_def]
  rfl

/-- After a backslash any character stands for what it spells. -/
theorem readText?_escaped (c : Char) (rest : List Char) :
    readText? ('\\' :: c :: rest) = (readText? rest).map fun (value, lexeme, rest) =>
      (unescape c :: value, '\\' :: c :: lexeme, rest) := by
  rw [readText?.eq_def]
  rfl

/-- Any other character stands for itself. -/
theorem readText?_plain {c : Char} (quote : c ≠ '"') (backslash : c ≠ '\\') (rest : List Char) :
    readText? (c :: rest) = (readText? rest).map fun (value, lexeme, rest) =>
      (c :: value, c :: lexeme, rest) := by
  rw [readText?.eq_def]
  simp only [if_neg quote, if_neg backslash]

/-- What stands between quotes is read up to the closing quote. -/
theorem Inside.readText? {value written : List Char} (inside : Inside value written)
    (rest : List Char) :
    Token.readText? (written ++ '"' :: rest) = some (value, written ++ ['"'], rest) := by
  induction inside with
  | nil => exact readText?_quote rest
  | plain quote backslash _ ih =>
    rw [List.cons_append, readText?_plain quote backslash, ih]
    rfl
  | escaped c _ ih =>
    rw [List.cons_append, List.cons_append, readText?_escaped, ih]
    rfl

/-- What is read as the inside of a text is one, with its closing quote. -/
theorem inside_of_readText? {chars value lexeme rest : List Char}
    (read : readText? chars = some (value, lexeme, rest)) :
    ∃ written, Inside value written ∧ lexeme = written ++ ['"'] ∧
    chars = written ++ '"' :: rest := by
  induction chars using readText?.induct generalizing value lexeme with
  | case1 => contradiction
  | case2 after =>
    rw [readText?_quote, Option.some.injEq, Prod.mk.injEq, Prod.mk.injEq] at read
    obtain ⟨rfl, rfl, rfl⟩ := read
    exact ⟨[], .nil, rfl, rfl⟩
  | case3 => contradiction
  | case4 c after _ ih =>
    rw [readText?_escaped, Option.map_eq_some_iff] at read
    obtain ⟨⟨inner, innerLexeme, innerRest⟩, found, same⟩ := read
    rw [Prod.mk.injEq, Prod.mk.injEq] at same
    obtain ⟨rfl, rfl, rfl⟩ := same
    obtain ⟨written, inside, rfl, rfl⟩ := ih found
    exact ⟨'\\' :: c :: written, inside.escaped c, rfl, rfl⟩
  | case5 c after quote backslash ih =>
    rw [readText?_plain quote backslash, Option.map_eq_some_iff] at read
    obtain ⟨⟨inner, innerLexeme, innerRest⟩, found, same⟩ := read
    rw [Prod.mk.injEq, Prod.mk.injEq] at same
    obtain ⟨rfl, rfl, rfl⟩ := same
    obtain ⟨written, inside, rfl, rfl⟩ := ih found
    exact ⟨c :: written, inside.plain quote backslash, rfl, rfl⟩

/-- Reading a word takes all characters that can go on with it. -/
theorem readWord_takes {kind : TokenKind} {first : Char} {tail : List Char}
    (continues : ∀ c ∈ tail, continuesName c = true) (alone : (readWord first tail).kind = kind)
    (following : List Char) :
    (readWord first (tail ++ following)).Takes kind (first :: tail) following
      (following.takeWhile continuesName) where
  taken := by
    show first :: (tail ++ following).takeWhile continuesName = _
    rw [List.takeWhile_append_of_pos continues]
    rfl
  left := by
    show following = _ ++ (tail ++ following).dropWhile continuesName
    rw [List.dropWhile_append_of_pos continues, List.takeWhile_append_dropWhile]
  kind := by
    intro none
    have whole := @List.takeWhile_append_of_pos _ _ _ [] continues
    have same : (tail ++ following).takeWhile continuesName = tail.takeWhile continuesName := by
      rw [List.append_nil, List.takeWhile_nil, List.append_nil] at whole
      rw [List.takeWhile_append_of_pos continues, none, List.append_nil, whole]
    rw [← alone]
    simp only [readWord, same]
  parted := fun parted => parted.takeWhile fun _ inName => inName

/-- What a fraction starts with, if there is one, is a point and a digit. -/
theorem readFraction_point {digits : List Char} (some : digits ≠ [])
    (all : ∀ c ∈ digits, c.isDigit = true) (following : List Char) :
    readFraction ('.' :: (digits ++ following)) =
      (digits ++ following.takeWhile Char.isDigit, following.dropWhile Char.isDigit) := by
  obtain ⟨first, rest, rfl⟩ := List.exists_cons_of_ne_nil some
  have digit : first.isDigit = true := all first List.mem_cons_self
  have taken := @List.takeWhile_append_of_pos _ _ _ following all
  have left := @List.dropWhile_append_of_pos _ _ _ following all
  simp only [readFraction, List.cons_append, List.head?_cons, Option.any_some, digit, if_true]
  rw [← List.cons_append, taken, left]
  rfl

/-- A fraction is nothing, or a point and all the digits after it. -/
theorem readFraction_cases (chars : List Char) :
    readFraction chars = ([], chars) ∨
      ∃ fraction following, fraction ≠ [] ∧ (∀ c ∈ fraction, c.isDigit = true) ∧
        chars = '.' :: (fraction ++ following) ∧ readFraction chars = (fraction, following) := by
  unfold readFraction
  split
  · rename_i digits
    split
    · rename_i digit
      refine .inr ⟨_, _, ?_, fun c member => ?_, ?_, rfl⟩
      · cases digits with
        | nil => contradiction
        | cons first rest =>
          have starts : first.isDigit = true := digit
          rw [List.takeWhile_cons_of_pos starts]
          exact List.cons_ne_nil _ _
      · exact List.all_eq_true.mp List.all_takeWhile c member
      · rw [List.takeWhile_append_dropWhile]
    · exact .inl rfl
  · exact .inl rfl

/-- Reading a number takes the digits that go on with it, and a fraction after them. -/
theorem readNumber_takes_whole {first : Char} {tail : List Char}
    (all : ∀ c ∈ tail, c.isDigit = true) (following : List Char) :
    ∃ more, (readNumber first (tail ++ following)).Takes
      (.number (Number.ofLiteral (first :: tail) [])) (first :: tail) following more := by
  have taken := @List.takeWhile_append_of_pos _ _ _ following all
  have left := @List.dropWhile_append_of_pos _ _ _ following all
  have apart : Parted following → following.takeWhile Char.isDigit = [] := fun parted =>
    parted.takeWhile fun _ => continuesName_of_isDigit
  rcases readFraction_cases (following.dropWhile Char.isDigit) with none | ⟨fraction, after, some,
    -, rest, read⟩
  · refine ⟨following.takeWhile Char.isDigit, ?_, ?_, ?_, apart⟩
    · simp only [readNumber, taken, left, none, List.isEmpty_nil, if_true, List.cons_append]
    · simp only [readNumber, left, none, List.takeWhile_append_dropWhile]
    · intro nothing
      simp only [readNumber, taken, left, none, nothing, List.append_nil]
  · have present : fraction.isEmpty = false := List.isEmpty_eq_false_iff.mpr some
    refine ⟨following.takeWhile Char.isDigit ++ '.' :: fraction, ?_, ?_, ?_, ?_⟩
    · simp only [readNumber, taken, left, read, present, Bool.false_eq_true, if_false,
        List.cons_append, List.append_assoc]
    · simp only [readNumber, left, read, List.append_assoc, List.cons_append]
      rw [← rest, List.takeWhile_append_dropWhile]
    · intro nothing
      exact absurd (List.append_eq_nil_iff.mp nothing).2 (List.cons_ne_nil _ _)
    · intro parted
      have whole : following.dropWhile Char.isDigit = following := by
        have split := List.takeWhile_append_dropWhile (p := Char.isDigit) (l := following)
        rwa [apart parted, List.nil_append] at split
      rw [whole, parted.readFraction, Prod.mk.injEq] at read
      exact absurd read.1.symm some

/-- Reading a number with a fraction takes the digits that go on with the fraction. -/
theorem readNumber_takes_decimal {first : Char} {tail fraction : List Char}
    (all : ∀ c ∈ tail, c.isDigit = true) (some : fraction ≠ [])
    (allFraction : ∀ c ∈ fraction, c.isDigit = true) (following : List Char) :
    (readNumber first (tail ++ '.' :: (fraction ++ following))).Takes
      (.number (Number.ofLiteral (first :: tail) fraction)) (first :: (tail ++ '.' :: fraction))
      following (following.takeWhile Char.isDigit) := by
  have point : ('.' : Char).isDigit ≠ true := by decide
  have taken := @List.takeWhile_append_of_pos _ _ _ ('.' :: (fraction ++ following)) all
  have left := @List.dropWhile_append_of_pos _ _ _ ('.' :: (fraction ++ following)) all
  rw [List.takeWhile_cons_of_neg point, List.append_nil] at taken
  rw [List.dropWhile_cons_of_neg point] at left
  have read := readFraction_point some allFraction following
  have present : (fraction ++ following.takeWhile Char.isDigit).isEmpty = false :=
    List.isEmpty_eq_false_iff.mpr fun nothing => some (List.append_eq_nil_iff.mp nothing).1
  refine ⟨?_, ?_, ?_, fun parted => parted.takeWhile fun _ => continuesName_of_isDigit⟩
  · simp only [readNumber, taken, left, read, present, Bool.false_eq_true, if_false,
      List.cons_append, List.append_assoc]
  · simp only [readNumber, left, read, List.takeWhile_append_dropWhile]
  · intro nothing
    simp only [readNumber, taken, left, read, nothing, List.append_nil]

/-- A symbol that an equals sign prolongs is read alone if there is none. -/
theorem readSymbol?_alone {first : Char} {alone prolonged : Symbol} (single : single? first = none)
    (grows : prolonged? first = some (alone, prolonged)) {rest : List Char}
    (stops : rest.head? ≠ some '=') :
    readSymbol? first rest = some ⟨.symbol alone, [first], rest⟩ := by
  unfold readSymbol?
  simp only [single, grows]
  split
  · exact absurd rfl stops
  · rfl

/-- A symbol is read where it stands, or a longer one if an equals sign follows. -/
theorem readSymbol?_takes {symbol : Symbol} {first : Char} {tail : List Char}
    (spelled : symbol.spelling.toList = first :: tail) (following : List Char) :
    ∃ reading more, readSymbol? first (tail ++ following) = some reading ∧
      reading.Takes (.symbol symbol) (first :: tail) following more := by
  have whole : ∀ {lexeme : List Char},
      Reading.Takes ⟨.symbol symbol, lexeme, following⟩ (.symbol symbol) lexeme following [] :=
    fun {lexeme} => ⟨(List.append_nil lexeme).symm, rfl, fun _ => rfl, fun _ => rfl⟩
  cases symbol <;> obtain ⟨rfl, rfl⟩ := List.cons.inj spelled
  case assign | bang | less | greater =>
    by_cases stops : following.head? = some '='
    · obtain ⟨after, rfl⟩ := List.head?_eq_some_iff.mp stops
      refine ⟨_, ['='], rfl, rfl, rfl, nofun, fun parted => ?_⟩
      have blank := parted '=' rfl
      contradiction
    · exact ⟨_, [], readSymbol?_alone rfl rfl stops, whole⟩
  all_goals exact ⟨_, [], rfl, whole⟩

/-- What is read as a symbol is one. -/
theorem symbol_of_readSymbol? {first : Char} {rest : List Char} {reading : Reading}
    (read : readSymbol? first rest = some reading) :
    Lexeme reading.kind reading.lexeme ∧ first :: rest = reading.lexeme ++ reading.rest := by
  have spelled : ∀ {c symbol}, single? c = some symbol → symbol.spelling.toList = [c] := by
    intro c symbol single
    unfold single? at single
    split at single <;> cases single <;> rfl
  have both : ∀ {c alone prolonged}, prolonged? c = some (alone, prolonged) →
      alone.spelling.toList = [c] ∧ prolonged.spelling.toList = [c, '='] := by
    intro c alone prolonged grows
    unfold prolonged? at grows
    split at grows <;> cases grows <;> exact ⟨rfl, rfl⟩
  cases single : single? first with
  | some symbol =>
    have found : readSymbol? first rest = some ⟨.symbol symbol, [first], rest⟩ := by
      rw [readSymbol?, single]
    obtain rfl := Option.some.inj (found.symm.trans read)
    exact ⟨spelled single ▸ .symbol symbol, rfl⟩
  | none =>
    cases grows : prolonged? first with
    | none =>
      rw [readSymbol?, single, grows] at read
      cases read
    | some pair =>
      obtain ⟨alone, prolonged⟩ := pair
      by_cases stops : rest.head? = some '='
      · obtain ⟨after, rfl⟩ := List.head?_eq_some_iff.mp stops
        have found : readSymbol? first ('=' :: after) =
            some ⟨.symbol prolonged, [first, '='], after⟩ := by
          rw [readSymbol?, single, grows]
          rfl
        obtain rfl := Option.some.inj (found.symm.trans read)
        exact ⟨(both grows).2 ▸ .symbol prolonged, rfl⟩
      · obtain rfl := Option.some.inj ((readSymbol?_alone single grows stops).symm.trans read)
        exact ⟨(both grows).1 ▸ .symbol alone, rfl⟩

/-- A symbol starts with a character that no word, number or text starts with. -/
theorem symbol_start (symbol : Symbol) : ∃ first tail, symbol.spelling.toList = first :: tail ∧
    startsName first = false ∧ first.isDigit = false ∧ first ≠ '"' := by
  cases symbol <;> exact ⟨_, _, rfl, by decide⟩

/-- A reserved word is spelled like a name. -/
theorem keyword_word (keyword : Keyword) : ∃ first tail,
    keyword.spelling.toList = first :: tail ∧ startsName first = true ∧
      (∀ c ∈ tail, continuesName c = true) := by
  cases keyword <;> exact ⟨_, _, rfl, rfl, List.all_eq_true.mp rfl⟩

/-- The kind of a name that is not reserved, and of a reserved word. -/
theorem readWord_kind (first : Char) (tail : List Char) :
    (readWord first tail).kind =
      match Keyword.ofSpelling? (String.ofList (readWord first tail).lexeme) with
      | some keyword => .keyword keyword
      | none => .identifier (String.ofList (readWord first tail).lexeme) := rfl

/-- What follows the first character of a word belongs to it, if it can stand in a name. -/
theorem readWord_lexeme {first : Char} {tail : List Char}
    (continues : ∀ c ∈ tail, continuesName c = true) :
    (readWord first tail).lexeme = first :: tail := by
  have whole := @List.takeWhile_append_of_pos _ _ _ [] continues
  rw [List.append_nil, List.takeWhile_nil, List.append_nil] at whole
  exact congrArg (List.cons first) whole

/-- Where a token stands, reading takes it, and more only if the text goes on the same way. -/
theorem Lexeme.read {kind : TokenKind} {lexeme : List Char} (form : Lexeme kind lexeme)
    (following : List Char) :
    ∃ first tail reading more, lexeme = first :: tail ∧
      Token.read first (tail ++ following) = .ok reading ∧
      reading.Takes kind lexeme following more := by
  have word : ∀ {first : Char} {tail : List Char}, startsName first = true →
      (∀ c ∈ tail, continuesName c = true) → (readWord first tail).kind = kind →
      ∃ reading more, Token.read first (tail ++ following) = .ok reading ∧
        reading.Takes kind (first :: tail) following more := fun starts continues alone =>
    ⟨_, _, if_pos starts, readWord_takes continues alone following⟩
  have number : ∀ {first : Char} {tail : List Char}, first.isDigit = true →
      Token.read first tail = .ok (readNumber first tail) := by
    intro first tail digit
    unfold Token.read
    rw [startsName_of_isDigit digit, if_neg Bool.false_ne_true, if_pos digit]
  cases form with
  | @identifier first rest starts continues free =>
    have kind_eq : (readWord first rest).kind = .identifier (String.ofList (first :: rest)) := by
      rw [readWord_kind, readWord_lexeme continues, (Keyword.ofSpelling?_eq_none_iff _).mpr free]
    obtain ⟨reading, more, read, takes⟩ := word starts continues kind_eq
    exact ⟨first, rest, reading, more, rfl, read, takes⟩
  | keyword keyword =>
    obtain ⟨first, tail, spelled, starts, continues⟩ := keyword_word keyword
    have kind_eq : (readWord first tail).kind = .keyword keyword := by
      rw [readWord_kind, readWord_lexeme continues, ← spelled, String.ofList_toList,
        Keyword.ofSpelling?_spelling]
    obtain ⟨reading, more, read, takes⟩ := word starts continues kind_eq
    exact ⟨first, tail, reading, more, spelled, read, spelled ▸ takes⟩
  | @whole digits some all =>
    obtain ⟨first, tail, rfl⟩ := List.exists_cons_of_ne_nil some
    obtain ⟨allFirst, allTail⟩ := List.forall_mem_cons.mp all
    obtain ⟨more, takes⟩ := readNumber_takes_whole allTail following
    exact ⟨first, tail, _, more, rfl, number allFirst, takes⟩
  | @decimal whole fraction someWhole someFraction allWhole allFraction =>
    obtain ⟨first, tail, rfl⟩ := List.exists_cons_of_ne_nil someWhole
    obtain ⟨allFirst, allTail⟩ := List.forall_mem_cons.mp allWhole
    have takes := @readNumber_takes_decimal first _ _ allTail someFraction allFraction following
    refine ⟨first, tail ++ '.' :: fraction, _, _, rfl, ?_, takes⟩
    rw [List.append_assoc, List.cons_append]
    exact number allFirst
  | @text value written inside =>
    have read := inside.readText? following
    refine ⟨'"', _, ⟨.text (String.ofList value), '"' :: (written ++ ['"']), following⟩, [],
      rfl, ?_,
      (List.append_nil _).symm, rfl, fun _ => rfl, fun _ => rfl⟩
    -- A quote starts neither a word nor a number, so the third of the readers is the one that
    -- reads.
    have plain : startsName '"' = false ∧ Char.isDigit '"' = false := by decide
    rw [List.append_assoc, Token.read, plain.1, plain.2, if_neg Bool.false_ne_true,
      if_neg Bool.false_ne_true, if_pos rfl]
    simp only [List.cons_append, List.nil_append, read]
  | symbol symbol =>
    obtain ⟨first, tail, spelled, word, digit, quote⟩ := symbol_start symbol
    obtain ⟨reading, more, read, takes⟩ := readSymbol?_takes spelled following
    refine ⟨first, tail, reading, more, spelled, ?_, spelled ▸ takes⟩
    unfold Token.read
    rw [word, digit, if_neg Bool.false_ne_true, if_neg Bool.false_ne_true, if_neg quote, read]

/-- What is read as a word is one, and the text goes on behind it. -/
theorem lexeme_readWord {first : Char} {rest : List Char} (starts : startsName first = true) :
    Lexeme (readWord first rest).kind (readWord first rest).lexeme ∧
      first :: rest = (readWord first rest).lexeme ++ (readWord first rest).rest := by
  have inName : ∀ c ∈ rest.takeWhile continuesName, continuesName c = true :=
    List.all_eq_true.mp List.all_takeWhile
  constructor
  · rw [readWord_kind]
    cases found : Keyword.ofSpelling? (String.ofList (readWord first rest).lexeme) with
    | none => exact .identifier starts inName ((Keyword.ofSpelling?_eq_none_iff _).mp found)
    | some keyword =>
      have spelled := Keyword.spelling_of_ofSpelling? found
      have lexeme : (readWord first rest).lexeme = keyword.spelling.toList := by
        rw [spelled, String.toList_ofList]
      exact lexeme ▸ .keyword keyword
  · show _ = (first :: rest.takeWhile continuesName) ++ rest.dropWhile continuesName
    rw [List.cons_append, List.takeWhile_append_dropWhile]

/-- What is read as a number is one, and the text goes on behind it. -/
theorem lexeme_readNumber {first : Char} {rest : List Char} (digit : first.isDigit = true) :
    Lexeme (readNumber first rest).kind (readNumber first rest).lexeme ∧
      first :: rest = (readNumber first rest).lexeme ++ (readNumber first rest).rest := by
  have whole : ∀ c ∈ first :: rest.takeWhile Char.isDigit, c.isDigit = true :=
    List.forall_mem_cons.mpr ⟨digit, List.all_eq_true.mp List.all_takeWhile⟩
  have split := List.takeWhile_append_dropWhile (p := Char.isDigit) (l := rest)
  rcases readFraction_cases (rest.dropWhile Char.isDigit) with
    none | ⟨fraction, after, some, all, left, read⟩
  · simp only [readNumber, none, List.isEmpty_nil, if_true]
    refine ⟨.whole (List.cons_ne_nil _ _) whole, ?_⟩
    rw [List.cons_append, split]
  · have present : fraction.isEmpty = false := List.isEmpty_eq_false_iff.mpr some
    simp only [readNumber, read, present, Bool.false_eq_true, if_false]
    refine ⟨.decimal (List.cons_ne_nil _ _) some whole all, ?_⟩
    rw [List.append_assoc, List.cons_append, List.cons_append, ← left, split]

/-- What is read is a token, and the text goes on behind it. -/
theorem lexeme_of_read {first : Char} {rest : List Char} {reading : Reading}
    (read : Token.read first rest = .ok reading) :
    Lexeme reading.kind reading.lexeme ∧ first :: rest = reading.lexeme ++ reading.rest := by
  unfold Token.read at read
  split at read
  · rename_i starts
    exact Except.ok.inj read ▸ lexeme_readWord starts
  · split at read
    · rename_i digit
      exact Except.ok.inj read ▸ lexeme_readNumber digit
    · split at read
      · rename_i quote
        subst quote
        split at read
        · rename_i value lexeme after found
          obtain rfl := Except.ok.inj read
          obtain ⟨written, inside, rfl, rfl⟩ := inside_of_readText? found
          refine ⟨.text inside, ?_⟩
          simp only [List.cons_append, List.append_assoc, List.nil_append]
        · contradiction
      · split at read
        · rename_i found
          exact Except.ok.inj read ▸ symbol_of_readSymbol? found
        · contradiction

/-! ## The longest token -/

/-- What is read is the longest token that stands there. -/
theorem longest_of_read {first : Char} {rest : List Char} {reading : Reading}
    (read : Token.read first rest = .ok reading) :
    Longest reading.kind reading.lexeme reading.rest := by
  obtain ⟨form, split⟩ := lexeme_of_read read
  refine ⟨form, fun kind' lexeme' rest' form' same => ?_⟩
  obtain ⟨first', tail', reading', more, rfl, read', takes⟩ := form'.read rest'
  rw [← split, List.cons_append, List.cons.injEq] at same
  obtain ⟨rfl, rfl⟩ := same
  obtain rfl := Except.ok.inj (read'.symm.trans read)
  rw [takes.taken, List.length_append]
  exact Nat.le_add_right _ _

/-- The longest token that stands there is read. -/
theorem Longest.read {kind : TokenKind} {lexeme rest : List Char}
    (longest : Longest kind lexeme rest) :
    ∃ first tail, lexeme = first :: tail ∧
      Token.read first (tail ++ rest) = .ok ⟨kind, lexeme, rest⟩ := by
  obtain ⟨first, tail, reading, more, rfl, read, takes⟩ := longest.form.read rest
  obtain ⟨form, split⟩ := lexeme_of_read read
  have bound := longest.longest _ _ _ form split.symm
  rw [takes.taken, List.length_append] at bound
  obtain rfl : more = [] := List.eq_nil_of_length_eq_zero (by omega)
  refine ⟨first, tail, rfl, ?_⟩
  rw [read, takes.left, List.nil_append]
  obtain ⟨found, taken, left⟩ := reading
  obtain rfl : taken = (first :: tail) ++ [] := takes.taken
  obtain rfl : found = kind := takes.kind rfl
  rw [List.append_nil]

/-- Where the text behind a token is parted, the token is the longest that stands there. -/
theorem Lexeme.longest {kind : TokenKind} {lexeme following : List Char} (form : Lexeme kind lexeme)
    (parted : Parted following) : Longest kind lexeme following := by
  obtain ⟨first, tail, reading, more, rfl, read, takes⟩ := form.read following
  obtain rfl : more = [] := takes.parted parted
  have longest := longest_of_read read
  rw [takes.kind rfl, takes.taken, List.append_nil] at longest
  rwa [takes.left]

end Token

end EventScript
