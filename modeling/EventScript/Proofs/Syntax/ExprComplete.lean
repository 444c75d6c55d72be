import EventScript.Proofs.Syntax.Bare
import EventScript.Proofs.Syntax.Phrase
import EventScript.Proofs.Syntax.Reader

/-!
# What can be read is read

Where words of a phrase stand, its reader takes just these and finds the phrase, up to spans, if
what follows does not go on with the phrase. `TokenKind.binding` tells what goes on with what: a
word that binds less than the operators of a level stops an expression of it. The depth that a
reader needs is a multiple of the number of its words, and what it takes to get from its role down
to a primary expression.
-/

namespace EventScript

/-- How strongly a word binds the expression before it: an equals sign less than any operator, a
call or a property the most. A word that never follows an expression to go on with it does not bind
at all. -/
def TokenKind.binding : TokenKind → Nat
  | .symbol .assign => 1
  | .keyword .or => 2
  | .keyword .and => 3
  | .symbol .equalEqual | .symbol .bangEqual => 4
  | .symbol .less | .symbol .lessEqual | .symbol .greater | .symbol .greaterEqual => 5
  | .symbol .plus | .symbol .minus => 6
  | .symbol .star | .symbol .slash => 7
  | .symbol .leftParen | .symbol .dot => 8
  | _ => 0

namespace Parse

/-- How strongly the operators of a level bind. -/
def Level.binding : Level → Nat
  | disjunction => 2
  | conjunction => 3
  | equality => 4
  | comparison => 5
  | term => 6
  | factor => 7

/-- The signs of a level bind as it does. -/
theorem Level.binding_of_connective? {strength : Level} {kind : TokenKind} {connective : Connective}
    (sign : strength.connective? kind = some connective) : kind.binding = strength.binding := by
  unfold connective? at sign
  split at sign <;> first | rfl | contradiction

/-- A word that binds less than a level is none of its signs. -/
theorem Level.connective?_eq_none {strength : Level} {kind : TokenKind}
    (loose : kind.binding < strength.binding) : strength.connective? kind = none := by
  cases sign : strength.connective? kind with
  | none => rfl
  | some connective =>
    have same := binding_of_connective? sign
    omega

/-- The next tighter level binds by one more. -/
theorem Level.binding_of_tighter? {strength tighter : Level}
    (next : strength.tighter? = some tighter) : tighter.binding = strength.binding + 1 := by
  cases strength <;> first | (cases next; rfl) | contradiction

/-- The tightest level binds most. -/
theorem Level.binding_of_tightest {strength : Level} (last : strength.tighter? = none) :
    strength.binding = 7 := by
  cases strength <;> first | rfl | contradiction

/-- No level binds more than the tightest one. -/
theorem Level.binding_le (strength : Level) : strength.binding ≤ 7 := by
  cases strength <;> decide

variable {words : List TokenKind} {tokens rest : List Token}

/-- With enough depth, where the words stand and what follows binds less than `bound`, the reader
finds the expression. -/
def Gives (words : List TokenKind) (bound cost : Nat) (reader : Nat → Parse Expr) (value : Expr) :
    Prop :=
  ∀ ⦃tokens rest : List Token⦄ ⦃depth : Nat⦄, Spells words tokens rest →
    (current rest).kind.binding < bound → 32 * words.length + cost ≤ depth →
    ∃ value', reader depth tokens = .ok (value', rest) ∧ value'.bare = value.bare

/-- With enough depth, where the words stand and what follows binds less than `bound`, the reader
comes to its loop with the expression. -/
def Enters (words : List TokenKind) (bound cost : Nat) (reader : Nat → Parse Expr)
    (loop : Nat → Expr → Parse Expr) (value : Expr) : Prop :=
  ∀ ⦃tokens rest : List Token⦄ ⦃depth : Nat⦄, Spells words tokens rest →
    (current rest).kind.binding < bound → 32 * words.length + cost ≤ depth →
    ∃ left value', reader depth tokens = loop left value' rest ∧ value'.bare = value.bare ∧
      depth ≤ left + 32 * words.length + 1

/-- Words start where they stand. -/
theorem Spells.exists_first {opens : TokenKind → Bool} (spells : Spells words tokens rest)
    (starts : StartsWith opens words) :
    ∃ first after, tokens = first :: after ∧ opens first.kind = true := by
  obtain ⟨kind, words, rfl, opensIt⟩ := starts
  obtain ⟨first, after, rfl, rfl, -⟩ := spells
  exact ⟨first, after, rfl, opensIt⟩

/-- What the words do not start with does not come next. -/
theorem Spells.current_ne {opens : TokenKind → Bool} (spells : Spells words tokens rest)
    (starts : StartsWith opens words) {kind : TokenKind} (different : opens kind = false) :
    (current tokens).kind ≠ kind := by
  obtain ⟨first, after, rfl, opensIt⟩ := spells.exists_first starts
  intro same
  rw [current_cons] at same
  rw [same, different] at opensIt
  contradiction

/-- A depth that is large enough for something goes at least one step down. -/
theorem exists_succ {least depth : Nat} (enough : least ≤ depth) (some : 0 < least) :
    ∃ below, depth = below + 1 := ⟨depth - 1, by omega⟩

/-! ## Primary expressions -/

/-- A method of the superclass is found. -/
theorem gives_super {span : Span} {method : String} :
    Gives [.keyword .super, .symbol .dot, .identifier method] 9 1 primary (.super span method) := by
  intro tokens rest depth spells _ enough
  obtain ⟨depth, rfl⟩ := exists_succ enough (by omega)
  obtain ⟨start, _, rfl, begins, dot, _, rfl, dotted, last, _, rfl, named, rfl⟩ := spells
  refine ⟨.super (start.span.upTo last.span) method, ?_, rfl⟩
  rw [primary, peek_bind, current_cons, begins]
  simp only [advance_bind]
  rw [bind_ok (symbol_found dotted), bind_ok (name_found named)]
  rfl

/-- An expression in parentheses is found. -/
theorem gives_group {span : Span} {inner : Expr} (gives : Gives words 1 16 expression inner) :
    Gives (.symbol .leftParen :: (words ++ [.symbol .rightParen])) 9 1 primary
      (.group span inner) := by
  intro tokens rest depth spells _ enough
  obtain ⟨depth, rfl⟩ := exists_succ enough (by omega)
  obtain ⟨start, _, rfl, begins, spells⟩ := spells
  obtain ⟨_, inside, last, after, rfl, ends, rfl⟩ := spells_append.mp spells
  have length : 32 * words.length + 16 ≤ depth := by
    simp only [List.length_cons, List.length_append, List.length_nil] at enough
    omega
  have stops : (current (last :: after)).kind.binding < 1 := by
    rw [current_cons, ends]
    decide
  obtain ⟨inner', found, same⟩ := gives inside stops length
  refine ⟨.group (start.span.upTo last.span) inner', ?_, ?_⟩
  · rw [primary, peek_bind, current_cons, begins]
    simp only [advance_bind]
    rw [bind_ok found, bind_ok (symbol_found ends)]
    rfl
  · simp only [Expr.bare, same]

/-- A word that is an expression alone is found. -/
theorem gives_atom {span : Span} {kind : TokenKind} {value : Expr}
    (alone : atom? span kind = some value) : Gives [kind] 9 1 primary value := by
  intro tokens rest depth spells _ enough
  obtain ⟨depth, rfl⟩ := exists_succ enough (by omega)
  obtain ⟨token, _, rfl, same, rfl⟩ := spells
  have other : ∃ value', atom? token.span kind = some value' ∧ value'.bare = value.bare := by
    unfold atom? at alone ⊢
    split at alone <;> first | contradiction | (cases alone; exact ⟨_, rfl, rfl⟩)
  obtain ⟨value', alone', bare⟩ := other
  refine ⟨value', ?_, bare⟩
  rw [primary, peek_bind, current_cons, same]
  split
  · contradiction
  · contradiction
  · rw [here_bind, current_cons, alone']
    rfl

/-! ## Calls -/

/-- A call ends where no more of it follows. -/
theorem applied_stop {value : Expr} {depth : Nat} (stops : (current rest).kind.binding < 8) :
    applied (depth + 1) value rest = .ok (value, rest) := by
  have noCall : (current rest).kind ≠ .symbol .leftParen := by
    intro same
    rw [same] at stops
    exact absurd stops (by decide)
  have noProperty : (current rest).kind ≠ .symbol .dot := by
    intro same
    rw [same] at stops
    exact absurd stops (by decide)
  rw [applied_succ, bind_ok (symbol?_other noCall)]
  simp only [Option.isSome_none, Bool.false_eq_true, if_false]
  rw [bind_ok (symbol?_other noProperty)]
  rfl

/-- Going on to a call, and stopping there, is reading a call. -/
theorem Enters.gives_call {value : Expr} (enters : Enters words 9 2 call applied value) :
    Gives words 8 2 call value := by
  intro tokens rest depth spells stops enough
  obtain ⟨left, value', found, same, deep⟩ := enters spells (Nat.lt_succ_of_lt stops) enough
  obtain ⟨left, rfl⟩ := exists_succ (show 1 ≤ left by omega) Nat.one_pos
  exact ⟨value', found.trans (applied_stop stops), same⟩

/-- A primary expression comes to the loop of calls and properties. -/
theorem enters_primary {value : Expr} (gives : Gives words 9 1 primary value) :
    Enters words 9 2 call applied value := by
  intro tokens rest depth spells stops enough
  obtain ⟨depth, rfl⟩ := exists_succ enough (by omega)
  obtain ⟨value', found, same⟩ := gives spells stops (show 32 * words.length + 1 ≤ depth by omega)
  refine ⟨depth, value', ?_, same, by omega⟩
  rw [call, bind_ok found]

/-- A property comes to the loop again. -/
theorem enters_get {span : Span} {object : Expr} {name : String}
    (enters : Enters words 9 2 call applied object) :
    Enters (words ++ [.symbol .dot, .identifier name]) 9 2 call applied
      (.get span object name) := by
  intro tokens rest depth spells _ enough
  obtain ⟨_, front, dot, _, rfl, dotted, last, after, rfl, named, rfl⟩ := spells_append.mp spells
  simp only [List.length_append, List.length_cons, List.length_nil] at enough ⊢
  have goesOn : (current (dot :: last :: after)).kind.binding < 9 := by
    rw [current_cons, dotted]
    decide
  obtain ⟨left, object', found, same, deep⟩ := enters front goesOn
    (show 32 * words.length + 2 ≤ depth by omega)
  obtain ⟨left, rfl⟩ := exists_succ (show 1 ≤ left by omega) Nat.one_pos
  refine ⟨left, .get (object'.span.upTo last.span) object' name, ?_, ?_, by omega⟩
  · have noCall : (current (dot :: last :: after)).kind ≠ .symbol .leftParen := by
      rw [current_cons, dotted]
      nofun
    rw [found, applied_succ, bind_ok (symbol?_other noCall)]
    simp only [Option.isSome_none, Bool.false_eq_true, if_false]
    rw [bind_ok (symbol?_found dotted)]
    simp only [Option.isSome_some, if_true]
    rw [bind_ok (name_found named)]
  · simp only [Expr.bare, same]

/-- With enough depth, the reader finds the arguments, if they are not more than allowed. -/
def GivesList (words : List TokenKind) (values : List Expr) : Prop :=
  ∀ ⦃tokens rest : List Token⦄ ⦃depth allowed : Nat⦄, Spells words tokens rest →
    (current rest).kind = .symbol .rightParen → values.length ≤ allowed →
    32 * words.length + 17 ≤ depth →
    ∃ values', unlessAt .rightParen [] (arguments depth allowed) tokens = .ok (values', rest) ∧
      Expr.bareAll values' = Expr.bareAll values

/-- A call comes to the loop again. -/
theorem enters_applied {span : Span} {callee : Expr} {values : List Expr} {after : List TokenKind}
    (enters : Enters words 9 2 call applied callee) (gives : GivesList after values)
    (few : values.length ≤ argumentLimit) :
    Enters (words ++ .symbol .leftParen :: (after ++ [.symbol .rightParen])) 9 2 call applied
      (.call span callee values) := by
  intro tokens rest depth spells _ enough
  obtain ⟨_, front, opening, _, rfl, opens, spells⟩ := spells_append.mp spells
  obtain ⟨_, inside, last, behind, rfl, ends, rfl⟩ := spells_append.mp spells
  simp only [List.length_append, List.length_cons, List.length_nil] at enough ⊢
  obtain ⟨left, callee', found, same, deep⟩ := enters front
    (by rw [current_cons, opens]; decide)
    (show 32 * words.length + 2 ≤ depth by omega)
  obtain ⟨left, rfl⟩ := exists_succ (show 1 ≤ left by omega) Nat.one_pos
  obtain ⟨values', list, sameList⟩ := gives inside ends few (show _ ≤ left by omega)
  refine ⟨left, .call (callee'.span.upTo last.span) callee' values', ?_, ?_, by omega⟩
  · rw [found, applied_succ, bind_ok (symbol?_found opens)]
    simp only [Option.isSome_some, if_true]
    rw [bind_ok list, bind_ok (symbol_found ends)]
  · simp only [Expr.bare, same, sameList]

/-! ## Operators -/

/-- No call starts with an operator. -/
theorem unaryOp?_eq_none {kind : TokenKind} (opens : kind.opensCall = true) :
    unaryOp? kind = none := by
  unfold TokenKind.opensCall at opens
  split at opens <;> first | rfl | contradiction

/-- A call is found as an operand without signs. -/
theorem gives_call {value : Expr} (gives : Gives words 8 2 call value)
    (starts : StartsWith TokenKind.opensCall words) : Gives words 8 3 unary value := by
  intro tokens rest depth spells stops enough
  obtain ⟨depth, rfl⟩ := exists_succ enough (by omega)
  obtain ⟨value', found, same⟩ := gives spells stops (show 32 * words.length + 2 ≤ depth by omega)
  obtain ⟨first, after, rfl, opens⟩ := spells.exists_first starts
  refine ⟨value', ?_, same⟩
  rw [unary, peek_bind, current_cons, unaryOp?_eq_none opens]
  exact found

/-- An operand with a sign before it is found. -/
theorem gives_prefixed {span : Span} {kind : TokenKind} {op : UnaryOp} {operand : Expr}
    (sign : unaryOp? kind = some op) (gives : Gives words 8 3 unary operand) :
    Gives (kind :: words) 8 3 unary (.unary span op operand) := by
  intro tokens rest depth spells stops enough
  obtain ⟨depth, rfl⟩ := exists_succ enough (by omega)
  obtain ⟨first, after, rfl, rfl, spells⟩ := spells
  rw [List.length_cons] at enough
  obtain ⟨operand', found, same⟩ := gives spells stops (show 32 * words.length + 3 ≤ depth by omega)
  refine ⟨.unary (first.span.upTo operand'.span) op operand', ?_, ?_⟩
  · rw [unary, peek_bind, current_cons, sign]
    simp only [advance_bind]
    rw [bind_ok found]
    rfl
  · simp only [Expr.bare, same]

/-- What the reader for operands of a level gives. -/
abbrev GivesOperand (words : List TokenKind) (strength : Level) (value : Expr) : Prop :=
  Gives words (strength.binding + 1) (18 - 2 * strength.binding) (operand · strength) value

/-- What the reader for a level comes to its loop with. -/
abbrev EntersLevel (words : List TokenKind) (strength : Level) (value : Expr) : Prop :=
  Enters words (strength.binding + 1) (19 - 2 * strength.binding) (level · strength)
    (joined · strength) value

/-- An expression of a level ends where no operator of it follows. -/
theorem joined_stop {strength : Level} {value : Expr} {depth : Nat}
    (stops : (current rest).kind.binding < strength.binding) :
    joined (depth + 1) strength value rest = .ok (value, rest) := by
  rw [joined, peek_bind, Level.connective?_eq_none stops]
  rfl

/-- What comes to the loop of a level is found, if no sign follows. -/
theorem EntersLevel.gives {strength : Level} {value : Expr}
    (enters : EntersLevel words strength value) :
    Gives words strength.binding (19 - 2 * strength.binding) (level · strength) value := by
  intro tokens rest depth spells stops enough
  have positive := strength.binding_le
  obtain ⟨left, value', found, same, deep⟩ := enters spells (Nat.lt_succ_of_lt stops) enough
  obtain ⟨left, rfl⟩ := exists_succ (show 1 ≤ left by omega) Nat.one_pos
  exact ⟨value', found.trans (joined_stop stops), same⟩

/-- An operand with signs before it is one of the tightest level. -/
theorem gives_tightest {strength : Level} {value : Expr} (last : strength.tighter? = none)
    (gives : Gives words 8 3 unary value) : GivesOperand words strength value := by
  intro tokens rest depth spells stops enough
  have binds := Level.binding_of_tightest last
  obtain ⟨depth, rfl⟩ := exists_succ enough (by omega)
  obtain ⟨value', found, same⟩ := gives spells (by omega)
    (show 32 * words.length + 3 ≤ depth by omega)
  refine ⟨value', ?_, same⟩
  show operand (depth + 1) strength tokens = _
  rw [operand, last]
  exact found

/-- What comes to the loop of the next tighter level is an operand of a level. -/
theorem gives_tighter {strength tighter : Level} {value : Expr}
    (next : strength.tighter? = some tighter) (enters : EntersLevel words tighter value) :
    GivesOperand words strength value := by
  intro tokens rest depth spells stops enough
  have binds := Level.binding_of_tighter? next
  have limit := tighter.binding_le
  obtain ⟨depth, rfl⟩ := exists_succ enough (by omega)
  have deep : 32 * words.length + (19 - 2 * tighter.binding) ≤ depth := by omega
  obtain ⟨value', found, same⟩ := enters.gives spells (by omega) deep
  refine ⟨value', ?_, same⟩
  show operand (depth + 1) strength tokens = _
  rw [operand, next]
  exact found

/-- An operand comes to the loop of its level. -/
theorem enters_operand {strength : Level} {value : Expr}
    (gives : GivesOperand words strength value) :
    EntersLevel words strength value := by
  intro tokens rest depth spells stops enough
  have limit := strength.binding_le
  obtain ⟨depth, rfl⟩ := exists_succ enough (by omega)
  obtain ⟨value', found, same⟩ := gives spells stops
    (show 32 * words.length + (18 - 2 * strength.binding) ≤ depth by omega)
  refine ⟨depth, value', ?_, same, by omega⟩
  show level (depth + 1) strength tokens = _
  rw [level, bind_ok found]

/-- Two operands that are joined come to the loop again. -/
theorem enters_joined {strength : Level} {left right : Expr} {kind : TokenKind}
    {connective : Connective} {after : List TokenKind} (enters : EntersLevel words strength left)
    (sign : strength.connective? kind = some connective)
    (gives : GivesOperand after strength right) :
    EntersLevel (words ++ kind :: after) strength (connective.join left right) := by
  intro tokens rest depth spells stops enough
  obtain ⟨_, front, first, onward, rfl, rfl, behind⟩ := spells_append.mp spells
  simp only [List.length_append, List.length_cons] at enough ⊢
  have limit := strength.binding_le
  have signStops : (current (first :: onward)).kind.binding < strength.binding + 1 := by
    rw [current_cons, Level.binding_of_connective? sign]
    exact Nat.lt_succ_self _
  obtain ⟨below, left', found, sameLeft, deep⟩ := enters front signStops
    (show 32 * words.length + (19 - 2 * strength.binding) ≤ depth by omega)
  obtain ⟨below, rfl⟩ := exists_succ (show 1 ≤ below by omega) Nat.one_pos
  obtain ⟨right', second, sameRight⟩ := gives behind stops
    (show 32 * after.length + (18 - 2 * strength.binding) ≤ below by omega)
  refine ⟨below, connective.join left' right', found.trans ?_,
    connective.bare_join sameLeft sameRight, by omega⟩
  show joined (below + 1) strength left' (first :: onward) = _
  rw [joined, peek_bind, current_cons, sign]
  simp only [advance_bind]
  rw [bind_ok second]

/-- A call is an expression of every level. -/
theorem enters_disjunction {value : Expr} (enters : Enters words 9 2 call applied value)
    (starts : StartsWith TokenKind.opensCall words) : EntersLevel words .disjunction value := by
  have factor : EntersLevel words .factor value :=
    enters_operand (gives_tightest rfl (gives_call enters.gives_call starts))
  have term : EntersLevel words .term value := enters_operand (gives_tighter rfl factor)
  have comparison : EntersLevel words .comparison value := enters_operand (gives_tighter rfl term)
  have equality : EntersLevel words .equality value := enters_operand (gives_tighter rfl comparison)
  have conjunction : EntersLevel words .conjunction value :=
    enters_operand (gives_tighter rfl equality)
  exact enters_operand (gives_tighter rfl conjunction)

/-! ## Assignments -/

/-- What comes to the loop of the loosest level is found as an expression. -/
theorem gives_level {value : Expr} (enters : EntersLevel words .disjunction value) :
    Gives words 1 16 expression value := by
  intro tokens rest depth spells stops enough
  obtain ⟨depth, rfl⟩ := exists_succ enough (by omega)
  have deep : 32 * words.length + 15 ≤ depth := by omega
  have loose := Nat.lt_of_lt_of_le stops (show 1 ≤ Level.disjunction.binding by decide)
  obtain ⟨value', found, same⟩ := enters.gives spells loose deep
  have noSign : (current rest).kind ≠ .symbol .assign := by
    intro sign
    rw [sign] at stops
    exact absurd stops (by decide)
  refine ⟨value', ?_, same⟩
  rw [expression, bind_ok found, bind_ok (symbol?_other noSign)]
  rfl

/-- Behind something that can be assigned, an equals sign and an expression make an assignment. -/
theorem gives_assignTo {target value result : Expr} {after : List TokenKind}
    (enters : EntersLevel words .disjunction target) (gives : Gives after 1 16 expression value)
    (assigns : ∀ target' value' sign, target'.bare = target.bare → value'.bare = value.bare →
      ∃ result', assignTo target' value' sign = pure result' ∧ result'.bare = result.bare) :
    Gives (words ++ .symbol .assign :: after) 1 16 expression result := by
  intro tokens rest depth spells stops enough
  obtain ⟨_, front, sign, onward, rfl, signs, behind⟩ := spells_append.mp spells
  obtain ⟨depth, rfl⟩ := exists_succ enough (by omega)
  simp only [List.length_append, List.length_cons] at enough
  have signStops : (current (sign :: onward)).kind.binding < Level.binding .disjunction := by
    rw [current_cons, signs]
    decide
  obtain ⟨target', found, sameTarget⟩ := enters.gives front signStops
    (show 32 * words.length + 15 ≤ depth by omega)
  obtain ⟨value', second, sameValue⟩ := gives behind stops
    (show 32 * after.length + 16 ≤ depth by omega)
  obtain ⟨result', made, same⟩ := assigns target' value' sign.span sameTarget sameValue
  refine ⟨result', ?_, same⟩
  rw [expression, bind_ok found, bind_ok (symbol?_found signs)]
  simp only []
  rw [bind_ok second, made]
  rfl

/-- An assignment to a variable is found. -/
theorem gives_assign {span : Span} {name : String} {value : Expr}
    (gives : Gives words 1 16 expression value) :
    Gives (.identifier name :: .symbol .assign :: words) 1 16 expression
      (.assign span name value) := by
  have alone : Gives [.identifier name] 9 1 primary (.variable span name) :=
    @gives_atom span _ _ rfl
  have target := enters_disjunction (enters_primary alone) ⟨_, _, rfl, rfl⟩
  refine gives_assignTo target gives fun target' value' sign sameTarget sameValue => ?_
  cases target' <;> simp only [Expr.bare, reduceCtorEq, Expr.variable.injEq] at sameTarget
  obtain ⟨-, rfl⟩ := sameTarget
  exact ⟨_, rfl, by simp only [Expr.bare, sameValue]⟩

/-- An assignment to a field is found. -/
theorem gives_set {span : Span} {object value : Expr} {name : String} {after : List TokenKind}
    (enters : Enters words 9 2 call applied object) (starts : StartsWith TokenKind.opensCall words)
    (gives : Gives after 1 16 expression value) :
    Gives (words ++ .symbol .dot :: .identifier name :: .symbol .assign :: after) 1 16 expression
      (.set span object name value) := by
  have target := enters_disjunction (@enters_get _ span _ name enters) (starts.append _)
  have all : Gives ((words ++ [.symbol .dot, .identifier name]) ++ .symbol .assign :: after) 1 16
      expression (.set span object name value) := by
    refine gives_assignTo target gives fun target' value' sign sameTarget sameValue => ?_
    cases target' <;> simp only [Expr.bare, reduceCtorEq, Expr.get.injEq] at sameTarget
    obtain ⟨-, sameObject, rfl⟩ := sameTarget
    exact ⟨_, rfl, by simp only [Expr.bare, sameObject, sameValue]⟩
  rwa [List.append_assoc] at all

/-! ## Arguments -/

/-- With enough depth, the reader finds the arguments, if they are not more than allowed. -/
def GivesSome (words : List TokenKind) (values : List Expr) : Prop :=
  ∀ ⦃tokens rest : List Token⦄ ⦃depth allowed : Nat⦄, Spells words tokens rest →
    (current rest).kind = .symbol .rightParen → values.length ≤ allowed →
    32 * words.length + 17 ≤ depth →
    ∃ values', arguments depth allowed tokens = .ok (values', rest) ∧
      Expr.bareAll values' = Expr.bareAll values

/-- A single argument is found. -/
theorem givesSome_argument {value : Expr} (gives : Gives words 1 16 expression value) :
    GivesSome words [value] := by
  intro tokens rest depth allowed spells ends fits enough
  obtain ⟨depth, rfl⟩ := exists_succ enough (by omega)
  obtain ⟨allowed, rfl⟩ := exists_succ fits Nat.one_pos
  obtain ⟨value', found, same⟩ := gives spells (by rw [ends]; decide)
    (show 32 * words.length + 16 ≤ depth by omega)
  refine ⟨[value'], ?_, by simp only [Expr.bareAll, same]⟩
  rw [arguments, bind_ok found, bind_ok (symbol?_other (by rw [ends]; nofun))]
  rfl

/-- One more argument before others is found. -/
theorem givesSome_more {value : Expr} {others : List Expr} {after : List TokenKind}
    (gives : Gives words 1 16 expression value) (givesOthers : GivesSome after others) :
    GivesSome (words ++ .symbol .comma :: after) (value :: others) := by
  intro tokens rest depth allowed spells ends fits enough
  obtain ⟨_, front, comma, onward, rfl, commas, behind⟩ := spells_append.mp spells
  obtain ⟨depth, rfl⟩ := exists_succ enough (by omega)
  obtain ⟨allowed, rfl⟩ := exists_succ fits (Nat.succ_pos _)
  simp only [List.length_append, List.length_cons] at enough fits
  have deep : 32 * words.length + 16 ≤ depth := by omega
  obtain ⟨value', found, same⟩ := gives front (by rw [current_cons, commas]; decide) deep
  have few : others.length ≤ allowed := by omega
  have deepOthers : 32 * after.length + 17 ≤ depth := by omega
  obtain ⟨others', second, sameOthers⟩ := givesOthers behind ends few deepOthers
  refine ⟨value' :: others', ?_, by simp only [Expr.bareAll, same, sameOthers]⟩
  rw [arguments, bind_ok found, bind_ok (symbol?_found commas)]
  simp only [Option.isSome_some, if_true]
  rw [bind_ok second]
  rfl

/-- An empty list of arguments is found. -/
theorem givesList_nil : GivesList [] [] := by
  intro tokens rest depth allowed spells ends _ _
  obtain rfl : tokens = rest := spells
  refine ⟨[], ?_, rfl⟩
  rw [unlessAt, bind_ok (at?_found ends)]
  rfl

/-- Arguments that are found are found as a list. -/
theorem GivesSome.givesList {values : List Expr} (gives : GivesSome words values)
    (starts : StartsWith TokenKind.opensExpression words) : GivesList words values := by
  intro tokens rest depth allowed spells ends fits enough
  obtain ⟨values', found, same⟩ := gives spells ends fits enough
  refine ⟨values', ?_, same⟩
  rw [unlessAt, bind_ok (at?_other (spells.current_ne starts rfl))]
  exact found

end Parse

end EventScript
