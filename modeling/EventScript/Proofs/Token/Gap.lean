import EventScript.Token.Scan

/-!
# Gaps

What may stand between tokens: blanks, and comments from `//` to the end of their line. `Gap` says
so with regard to what follows, since a comment goes on to the end of the line. Skipping takes the
whole gap that stands at a place (`exists_gap`), and whoever divides a text at a gap finds it
skipped (`Gap.skip`).
-/

namespace EventScript

namespace Place

/-- Going past a text is going past its first character and then past the rest. -/
@[simp] theorem after_cons (place : Place) (c : Char) (chars : List Char) :
    place.after (c :: chars) = (place.advance c).after chars := rfl

/-- Passing characters and then others is passing all of them. -/
@[simp] theorem after_append (place : Place) (first last : List Char) :
    place.after (first ++ last) = (place.after first).after last :=
  List.foldl_append

end Place

namespace Token

/-- The text is over, or its line is. -/
def LineEnds (rest : List Char) : Prop := ∀ c, rest.head? = some c → c = '\n'

/-- Blanks and comments that stand before `rest`. -/
inductive Gap : (gap rest : List Char) → Prop where
  | nil {rest : List Char} : Gap [] rest
  | blank {c : Char} {gap rest : List Char} (blank : Text.isBlank c = true)
      (onward : Gap gap rest) :
      Gap (c :: gap) rest
  | comment {text gap rest : List Char} (line : '\n' ∉ text) (ends : LineEnds (gap ++ rest))
      (onward : Gap gap rest) : Gap ('/' :: '/' :: (text ++ gap)) rest

/-- A gap stands here. -/
def AtGap (rest : List Char) : Prop :=
  ∃ c after, rest = c :: after ∧ (Text.isBlank c = true ∨ c = '/' ∧ after.head? = some '/')

variable {place : Place}

/-- Where there is no gap, nothing is skipped. -/
theorem skip_of_not_atGap {rest : List Char} (full : ¬ AtGap rest) :
    skip false place rest = (place, rest) := by
  cases rest with
  | nil => rfl
  | cons c rest =>
    have notBlank : ¬ Text.isBlank c = true := fun blank => full ⟨c, rest, rfl, .inl blank⟩
    have notComment : ¬ (c = '/' ∧ rest.head? = some '/') := fun starts =>
      full ⟨c, rest, rfl, .inr starts⟩
    rw [skip, if_neg Bool.false_ne_true, if_neg notBlank, if_neg notComment]

/-- A blank is skipped, and then what follows it. -/
theorem skip_blank {c : Char} (blank : Text.isBlank c = true) (rest : List Char) :
    skip false place (c :: rest) = skip false (place.advance c) rest := by
  rw [skip, if_neg Bool.false_ne_true, if_pos blank]

/-- Two slashes start a comment. -/
theorem skip_slashes (rest : List Char) :
    skip false place ('/' :: '/' :: rest) = skip true ((place.advance '/').advance '/') rest := by
  rw [skip, if_neg Bool.false_ne_true, if_neg (by decide), if_pos ⟨rfl, rfl⟩, skip, if_pos rfl]
  rfl

/-- Inside of a comment the line is skipped to its end. -/
theorem skip_comment {text rest : List Char} (line : '\n' ∉ text) (ends : LineEnds rest) :
    skip true place (text ++ rest) = skip false (place.after text) rest := by
  induction text generalizing place with
  | nil =>
    cases rest with
    | nil => rfl
    | cons c rest =>
      obtain rfl := ends c rfl
      exact (skip_blank (by decide) rest).symm
  | cons c text ih =>
    obtain ⟨other, inRest⟩ := List.ne_and_not_mem_of_not_mem_cons line
    have stays : decide (c ≠ '\n') = true := decide_eq_true (Ne.symm other)
    rw [List.cons_append, skip, if_pos rfl, stays]
    exact ih inRest

/-- A gap before something else is skipped. -/
theorem Gap.skip {gap rest : List Char} (stands : Gap gap rest) (full : ¬ AtGap rest) :
    Token.skip false place (gap ++ rest) = (place.after gap, rest) := by
  induction stands generalizing place with
  | nil => exact skip_of_not_atGap full
  | blank blank _ ih =>
    rw [List.cons_append, skip_blank blank]
    exact ih full
  | @comment text gap rest line ends _ ih =>
    rw [List.cons_append, List.cons_append, List.append_assoc, skip_slashes, skip_comment line ends,
      ih full, Place.after_cons, Place.after_cons, Place.after_append]

/-- Every text starts with a gap, which may be empty, before something that is none. -/
theorem exists_gap (chars : List Char) :
    (∃ gap rest, chars = gap ++ rest ∧ Gap gap rest ∧ ¬ AtGap rest) ∧
      ∃ text gap rest, chars = text ++ (gap ++ rest) ∧ '\n' ∉ text ∧ LineEnds (gap ++ rest) ∧
        Gap gap rest ∧ ¬ AtGap rest := by
  induction chars with
  | nil =>
    have ends : ¬ AtGap [] := nofun
    exact ⟨⟨[], [], rfl, .nil, ends⟩, [], [], [], rfl, nofun, nofun, .nil, ends⟩
  | cons c chars ih =>
    obtain ⟨⟨gap, rest, split, stands, full⟩, text, gap', rest', split', line, ends, stands',
      full'⟩ := ih
    constructor
    · by_cases blank : Text.isBlank c = true
      · exact ⟨c :: gap, rest, congrArg (List.cons c) split, .blank blank stands, full⟩
      · by_cases starts : c = '/' ∧ chars.head? = some '/'
        · obtain ⟨rfl, slash⟩ := starts
          obtain ⟨after, rfl⟩ := List.head?_eq_some_iff.mp slash
          cases text with
          | nil =>
            have newline := ends '/' (by rw [← List.nil_append (gap' ++ rest'), ← split']; rfl)
            contradiction
          | cons second text =>
            obtain ⟨rfl, onward⟩ := List.cons.inj split'
            have inText := (List.ne_and_not_mem_of_not_mem_cons line).2
            refine ⟨'/' :: '/' :: (text ++ gap'), rest', ?_, .comment inText ends stands', full'⟩
            rw [onward, List.cons_append, List.cons_append, List.append_assoc]
            rfl
        · refine ⟨[], c :: chars, rfl, .nil, ?_⟩
          rintro ⟨c', after, same, gapStarts⟩
          obtain ⟨rfl, rfl⟩ := List.cons.inj same
          exact gapStarts.elim blank starts
    · by_cases newline : c = '\n'
      · subst newline
        refine ⟨[], '\n' :: gap, rest, congrArg (List.cons '\n') split, nofun, ?_,
          .blank (by decide) stands, full⟩
        exact fun c first => (Option.some.inj first).symm
      · refine ⟨c :: text, gap', rest', congrArg (List.cons c) split', ?_, ends, stands', full'⟩
        exact List.not_mem_cons_of_ne_of_not_mem (Ne.symm newline) line

end Token

end EventScript
