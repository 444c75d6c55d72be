import EventScript.Proofs.Syntax.Parts
import EventScript.Proofs.Syntax.Reader
import EventScript.Proofs.Syntax.Sequel

/-!
# Where the parts of a tree lie

Every span in a tree that was read lies in the part of the text that the tokens taken for it take
up. `Parse.Laid` says that tokens lie one behind the other from an offset on, and `Parse.Covers`
that a reader leaves such tokens, and what it finds lies before them. The lemmas follow the readers,
one for each, by induction on the depth.
-/

namespace EventScript

/-- The span lies between two offsets, starts before it stops, and has the line of its start. -/
structure Span.Between (lines : Nat → Nat) (low high : Nat) (span : Span) : Prop where
  low : low ≤ span.start
  ordered : span.start ≤ span.stop
  high : span.stop ≤ high
  line : span.line = lines span.start

namespace Span.Between

variable {lines : Nat → Nat} {low middle middle' high : Nat} {first last span : Span}

/-- A span between two offsets does not run backwards. -/
theorem le (between : span.Between lines low high) : low ≤ high :=
  Nat.le_trans between.low (Nat.le_trans between.ordered between.high)

/-- A span between two offsets is between others further apart. -/
theorem widen {lower higher : Nat} (between : span.Between lines low high) (below : lower ≤ low)
    (above : high ≤ higher) : span.Between lines lower higher :=
  { between with low := Nat.le_trans below between.low, high := Nat.le_trans between.high above }

/-- Spans one behind the other are joined in order. -/
theorem upTo (before : first.Between lines low middle) (after : last.Between lines middle' high)
    (le : middle ≤ middle') : (first.upTo last).Between lines low high where
  low := before.low
  ordered := by
    have := before.ordered
    have := before.high
    have := after.low
    have := after.ordered
    simp only [upTo_start, upTo_stop]
    omega
  high := after.high
  line := before.line

end Span.Between

section Spans

/-- The superclass that a statement itself names. -/
def Stmt.superclass? : Stmt → Option SuperclassName
  | .classDecl _ _ superclass _ => superclass
  | _ => none

/-- All spans in the expression have the property. -/
inductive Expr.AllSpans (property : Span → Prop) : Expr → Prop where
  | intro {expr : Expr} (span : property expr.span)
      (parts : ∀ part ∈ expr.parts, AllSpans property part) : AllSpans property expr

/-- All spans in the statement have the property. -/
inductive Stmt.AllSpans (property : Span → Prop) : Stmt → Prop where
  | intro {stmt : Stmt} (span : property stmt.span)
      (superclass : ∀ named ∈ stmt.superclass?, property named.span)
      (exprs : ∀ expr ∈ stmt.exprs, expr.AllSpans property)
      (parts : ∀ part ∈ stmt.parts, AllSpans property part)
      (functions : ∀ decl ∈ stmt.functions, property decl.span)
      (bodies : ∀ decl ∈ stmt.functions, ∀ inner ∈ decl.body, AllSpans property inner) :
      AllSpans property stmt

/-- All spans in the function have the property, but for those of its parameters. -/
structure FunctionDecl.AllSpans (property : Span → Prop) (decl : FunctionDecl) : Prop where
  span : property decl.span
  body : ∀ inner ∈ decl.body, inner.AllSpans property

variable {property weaker : Span → Prop}

/-- What all spans of an expression have its own span has. -/
theorem Expr.AllSpans.span {expr : Expr} (all : expr.AllSpans property) : property expr.span := by
  cases all with
  | intro span => exact span

/-- What all spans of an expression have they have in a weaker form. -/
theorem Expr.AllSpans.mono {expr : Expr} (all : expr.AllSpans property)
    (le : ∀ span, property span → weaker span) : expr.AllSpans weaker := by
  induction all with
  | intro span _ ih => exact .intro (le _ span) ih

/-- What all spans of a statement have its own span has. -/
theorem Stmt.AllSpans.span {stmt : Stmt} (all : stmt.AllSpans property) : property stmt.span := by
  cases all with
  | intro span => exact span

/-- What all spans of a statement have they have in a weaker form. -/
theorem Stmt.AllSpans.mono {stmt : Stmt} (all : stmt.AllSpans property)
    (le : ∀ span, property span → weaker span) : stmt.AllSpans weaker := by
  induction all with
  | intro span superclass exprs _ functions _ parts bodies =>
    have superclass := fun named member => le _ (superclass named member)
    have exprs := fun expr member => (exprs expr member).mono le
    have functions := fun decl member => le _ (functions decl member)
    exact .intro (le _ span) superclass exprs parts functions bodies

/-- What all spans of a function have they have in a weaker form. -/
theorem FunctionDecl.AllSpans.mono {decl : FunctionDecl} (all : decl.AllSpans property)
    (le : ∀ span, property span → weaker span) : decl.AllSpans weaker where
  span := le _ all.span
  body inner member := (all.body inner member).mono le

/-- A statement that declares nothing has its span and those of its parts. -/
theorem Stmt.AllSpans.of_plain {stmt : Stmt} (superclass : stmt.superclass? = none)
    (functions : stmt.functions = []) (span : property stmt.span)
    (exprs : ∀ expr ∈ stmt.exprs, expr.AllSpans property)
    (parts : ∀ part ∈ stmt.parts, part.AllSpans property) : stmt.AllSpans property := by
  refine .intro span ?_ exprs parts ?_ ?_
  · rw [superclass]
    exact fun _ member => absurd member (Option.not_mem_none _)
  · rw [functions]
    exact List.forall_mem_nil _
  · rw [functions]
    exact List.forall_mem_nil _

end Spans

namespace Parse

/-- The tokens lie one behind the other from an offset on, up to the mark of the end of a text of
that size. -/
inductive Laid (lines : Nat → Nat) (size : Nat) : Nat → List Token → Prop where
  | mark {low : Nat} {token : Token} (ends : token.kind = .endOfInput) (inside : low ≤ size) :
      Laid lines size low [token]
  | word {low high : Nat} {token : Token} {rest : List Token} (some : token.kind ≠ .endOfInput)
      (lies : token.span.Between lines low high) (onward : Laid lines size high rest) :
      Laid lines size low (token :: rest)

variable {lines : Nat → Nat} {size low middle : Nat} {tokens rest : List Token} {α β : Type}

/-- Tokens are laid from an offset inside the text. -/
theorem Laid.le (laid : Laid lines size low tokens) : low ≤ size := by
  induction laid with
  | mark _ inside => exact inside
  | word _ lies _ ih => exact Nat.le_trans lies.le ih

/-- Where no mark comes next, a word does. -/
theorem Laid.exists_cons (laid : Laid lines size low tokens)
    (some : (current tokens).kind ≠ .endOfInput) :
    ∃ token after high, tokens = token :: after ∧ token.span.Between lines low high ∧
      Laid lines size high after := by
  cases laid with
  | mark ends => exact absurd ends some
  | word _ lies onward => exact ⟨_, _, _, rfl, lies, onward⟩

/-- Where the reader succeeds, the tokens left lie from an offset on that what was found goes
with. -/
def Covers (lines : Nat → Nat) (size : Nat) (reader : Parse α) (tokens : List Token)
    (post : Nat → α → Prop) : Prop :=
  ∀ value rest, reader tokens = .ok (value, rest) → ∃ stop, Laid lines size stop rest ∧
    post stop value

section Rules

variable {reader : Parse α} {next : α → Parse β} {post : Nat → α → Prop}

/-- One reader after another covers what they cover in turn. -/
theorem Covers.bind {post : Nat → β → Prop}
    (covers : Covers lines size reader tokens fun stop value =>
      ∀ rest, Laid lines size stop rest → Covers lines size (next value) rest post) :
    Covers lines size (reader >>= next) tokens post := by
  intro value rest found
  obtain ⟨first, middle, start, onward⟩ := exists_of_bind found
  obtain ⟨stop, laid, then_⟩ := covers first middle start
  exact then_ middle laid value rest onward

/-- One reader after another covers what they cover in turn, if the second one covers it behind all
that the first one may find. -/
theorem Covers.then {found : Nat → α → Prop} {post : Nat → β → Prop}
    (covers : Covers lines size reader tokens found)
    (onward : ∀ stop value, found stop value → ∀ rest, Laid lines size stop rest →
      Covers lines size (next value) rest post) :
    Covers lines size (reader >>= next) tokens post := by
  intro value rest read
  obtain ⟨first, middle, start, finish⟩ := exists_of_bind read
  obtain ⟨stop, laid, holds⟩ := covers first middle start
  exact onward stop first holds middle laid value rest finish

/-- What a reader covers it covers in a weaker sense. -/
theorem Covers.mono {weaker : Nat → α → Prop} (covers : Covers lines size reader tokens post)
    (le : ∀ stop value, post stop value → weaker stop value) :
    Covers lines size reader tokens weaker := by
  intro value rest found
  obtain ⟨stop, laid, holds⟩ := covers value rest found
  exact ⟨stop, laid, le stop value holds⟩

/-- Looking at the kind of the next token covers nothing. -/
theorem Covers.peek {next : TokenKind → Parse β} {post : Nat → β → Prop}
    (covers : Covers lines size (next (current tokens).kind) tokens post) :
    Covers lines size (peek >>= next) tokens post := covers

/-- Looking at the span of the next token covers nothing. -/
theorem Covers.here {next : Span → Parse β} {post : Nat → β → Prop}
    (covers : Covers lines size (next (current tokens).span) tokens post) :
    Covers lines size (here >>= next) tokens post := covers

/-- A reader that fails covers whatever one likes. -/
theorem covers_fail (fault : SyntaxFault) : Covers lines size (fail fault) tokens post := by
  intro value rest found
  contradiction

/-- A reader that fails at a span covers whatever one likes. -/
theorem covers_failAt (fault : SyntaxFault) (span : Span) :
    Covers lines size (failAt fault span) tokens post := by
  intro value rest found
  contradiction

/-- A reader covers what it is seen to read. -/
theorem covers_of_eq {value : α} (laid : Laid lines size low rest) (holds : post low value)
    (same : reader tokens = .ok (value, rest)) : Covers lines size reader tokens post := by
  intro value' rest' found
  obtain ⟨rfl, rfl⟩ := Prod.mk.inj (Except.ok.inj (same.symm.trans found))
  exact ⟨low, laid, holds⟩

/-- A reader that takes nothing covers nothing. -/
theorem covers_pure {value : α} (laid : Laid lines size low tokens) (holds : post low value) :
    Covers lines size (pure value) tokens post :=
  covers_of_eq laid holds rfl

/-- Taking the next token covers its span. -/
theorem covers_advance (laid : Laid lines size low tokens)
    (some : (current tokens).kind ≠ .endOfInput) :
    Covers lines size advance tokens fun stop span => span.Between lines low stop := by
  obtain ⟨token, after, high, rfl, lies, onward⟩ := laid.exists_cons some
  exact covers_of_eq onward lies rfl

/-- A symbol that may be there covers its span if it is. -/
theorem covers_symbol? {post : Nat → Option Span → Prop} (laid : Laid lines size low tokens)
    (symbol : Symbol) (found : ∀ stop span, span.Between lines low stop → post stop (some span))
    (other : post low none) : Covers lines size (symbol? symbol) tokens post := by
  by_cases kind : (current tokens).kind = .symbol symbol
  · obtain ⟨token, after, high, rfl, lies, onward⟩ := laid.exists_cons (by simp [kind])
    exact covers_of_eq onward (found _ _ lies) (symbol?_found kind)
  · exact covers_of_eq laid other (symbol?_other kind)

/-- A keyword that may be there covers its span if it is. -/
theorem covers_keyword? {post : Nat → Option Span → Prop} (laid : Laid lines size low tokens)
    (keyword : Keyword) (found : ∀ stop span, span.Between lines low stop → post stop (some span))
    (other : post low none) : Covers lines size (keyword? keyword) tokens post := by
  by_cases kind : (current tokens).kind = .keyword keyword
  · obtain ⟨token, after, high, rfl, lies, onward⟩ := laid.exists_cons (by simp [kind])
    exact covers_of_eq onward (found _ _ lies) (keyword?_found kind)
  · exact covers_of_eq laid other (keyword?_other kind)

/-- A symbol that must be there covers its span. -/
theorem covers_symbol (laid : Laid lines size low tokens) (symbol : Symbol) (what : String) :
    Covers lines size (Parse.symbol symbol what) tokens
      fun stop span => span.Between lines low stop := by
  refine .bind (covers_symbol? laid symbol ?_ ?_)
  · intro stop span lies rest laid
    exact covers_pure laid lies
  · intro rest laid
    exact covers_fail _

/-- A name that must be there covers its span. -/
theorem covers_name (laid : Laid lines size low tokens) (what : String) :
    Covers lines size (name what) tokens
      fun stop found => found.2.Between lines low stop := by
  refine .peek ?_
  split
  · rename_i name kind
    apply (covers_advance laid (by simp [kind])).then
    intro stop span lies rest laid
    exact covers_pure laid lies
  · exact covers_fail _

/-- What is missing before a symbol covers nothing. -/
theorem covers_unlessAt {missing : α} (laid : Laid lines size low tokens) (symbol : Symbol)
    (absent : post low missing) (present : Covers lines size reader tokens post) :
    Covers lines size (unlessAt symbol missing reader) tokens post := by
  by_cases kind : (current tokens).kind = .symbol symbol
  · have here : unlessAt symbol missing reader tokens = .ok (missing, tokens) :=
      bind_ok (at?_found kind)
    exact covers_of_eq laid absent here
  · intro value rest found
    rw [unlessAt, bind_ok (at?_other kind)] at found
    exact present value rest found

/-- What is missing without a symbol covers nothing. -/
theorem covers_afterSymbol {missing : α} (laid : Laid lines size low tokens) (symbol : Symbol)
    (absent : post low missing)
    (present : ∀ stop rest, low ≤ stop → Laid lines size stop rest →
      Covers lines size reader rest post) :
    Covers lines size (afterSymbol symbol missing reader) tokens post :=
  .bind (covers_symbol? laid symbol (fun stop _ lies rest laid => present stop rest lies.le laid)
    fun _ laid => covers_pure laid absent)

/-- Behind a look whether a body ends nothing has been taken. -/
theorem covers_atEndOfBody {post : Nat → Bool → Prop} (laid : Laid lines size low tokens)
    (holds : ∀ ended, post low ended) : Covers lines size atEndOfBody tokens post :=
  covers_of_eq laid (holds _) (atEndOfBody_eq tokens)

end Rules

/-! ## Expressions -/

/-- All spans of the expression lie between the offsets. -/
abbrev ExprBetween (lines : Nat → Nat) (low high : Nat) (value : Expr) : Prop :=
  value.AllSpans (Span.Between lines low high)

/-- The offsets are in order, and all spans of the expressions lie between them. -/
abbrev ExprsBetween (lines : Nat → Nat) (low high : Nat) (values : List Expr) : Prop :=
  low ≤ high ∧ ∀ value ∈ values, ExprBetween lines low high value

/-- An expression between two offsets is between others further apart. -/
theorem ExprBetween.widen {high lower higher : Nat} {value : Expr}
    (between : ExprBetween lines low high value) (below : lower ≤ low) (above : high ≤ higher) :
    ExprBetween lines lower higher value :=
  Expr.AllSpans.mono between fun _ lies => lies.widen below above

/-- A word that is an expression alone lies where the word does. -/
theorem exprBetween_atom {span : Span} {kind : TokenKind} {value : Expr} {high : Nat}
    (alone : atom? span kind = some value) (lies : span.Between lines low high) :
    ExprBetween lines low high value := by
  unfold atom? at alone
  split at alone <;> cases alone <;> exact .intro lies (List.forall_mem_nil _)

/-- Operands that are joined lie between the ends of the two. -/
theorem exprBetween_join {high : Nat} {left right : Expr} {middle' : Nat} (connective : Connective)
    (before : ExprBetween lines low middle left) (after : ExprBetween lines middle' high right)
    (le : middle ≤ middle') : ExprBetween lines low high (connective.join left right) := by
  have joined := before.span.upTo after.span le
  have parts : ∀ part ∈ [left, right], ExprBetween lines low high part := by
    have first := before.widen (Nat.le_refl _) (Nat.le_trans le after.span.le)
    have second := after.widen (Nat.le_trans before.span.le le) (Nat.le_refl _)
    exact List.forall_mem_cons.mpr ⟨first, List.forall_mem_singleton.mpr second⟩
  cases connective <;> exact .intro joined parts

/-- An assignment lies between the start of its target and the end of its value. -/
theorem covers_assignTo {target value : Expr} {middle' high : Nat} (sign : Span)
    (before : ExprBetween lines low middle target) (le : middle ≤ middle')
    (after : ExprBetween lines middle' high value) (laid : Laid lines size high tokens) :
    Covers lines size (assignTo target value sign) tokens (ExprBetween lines low) := by
  have joined := before.span.upTo after.span le
  have second := after.widen (Nat.le_trans before.span.le le) (Nat.le_refl _)
  cases target with
  | «variable» span name =>
    exact covers_pure laid (.intro joined (List.forall_mem_singleton.mpr second))
  | get span object name =>
    cases before with
    | intro _ parts =>
      have first : ExprBetween lines low high object :=
        (parts object List.mem_cons_self).mono fun _ lies =>
          lies.widen (Nat.le_refl _) (Nat.le_trans le after.span.le)
      have both := List.forall_mem_cons.mpr ⟨first, List.forall_mem_singleton.mpr second⟩
      exact covers_pure laid (.intro joined both)
  | _ => exact covers_failAt _ _

mutual

/-- What is read as an expression lies between the tokens it is read from. -/
theorem expression_covers : (depth : Nat) → {low : Nat} → {tokens : List Token} →
    Laid lines size low tokens →
    Covers lines size (expression depth) tokens (ExprBetween lines low)
  | 0, _, _, _ => covers_fail _
  | depth + 1, low, tokens, laid => by
    rw [expression]
    apply (level_covers depth .disjunction laid).then
    intro middle target before rest laid
    refine .bind (covers_symbol? laid .assign ?_ ?_)
    · intro stop sign signed rest laid
      apply (expression_covers depth laid).then
      intro high value after rest laid
      exact covers_assignTo sign before signed.le after laid
    · intro rest laid
      exact covers_pure laid before

/-- What is read as operands joined by operators of some strength lies between the tokens it is read
from. -/
theorem level_covers : (depth : Nat) → (strength : Level) → {low : Nat} → {tokens : List Token} →
    Laid lines size low tokens →
    Covers lines size (level depth strength) tokens (ExprBetween lines low)
  | 0, _, _, _, _ => covers_fail _
  | depth + 1, strength, low, tokens, laid => by
    rw [level]
    apply (operand_covers depth strength laid).then
    intro middle first before rest laid
    exact joined_covers depth strength before laid

/-- What is read as an operand of such operators lies between the tokens it is read from. -/
theorem operand_covers : (depth : Nat) → (strength : Level) → {low : Nat} → {tokens : List Token} →
    Laid lines size low tokens →
    Covers lines size (operand depth strength) tokens (ExprBetween lines low)
  | 0, _, _, _, _ => covers_fail _
  | depth + 1, strength, low, tokens, laid => by
    rw [operand]
    split
    · exact level_covers depth _ laid
    · exact unary_covers depth laid

/-- What is read as more operands joined to a first one lies between the tokens it is read from. -/
theorem joined_covers : (depth : Nat) → (strength : Level) → {first : Expr} → {low middle : Nat} →
    {tokens : List Token} → ExprBetween lines low middle first → Laid lines size middle tokens →
    Covers lines size (joined depth strength first) tokens (ExprBetween lines low)
  | 0, _, _, _, _, _, _, _ => covers_fail _
  | depth + 1, strength, first, low, middle, tokens, before, laid => by
    rw [joined]
    refine .peek ?_
    split
    · exact covers_pure laid before
    · rename_i connective sign
      have some : (current tokens).kind ≠ .endOfInput := by
        intro mark
        rw [mark] at sign
        cases strength <;> contradiction
      apply (covers_advance laid some).then
      intro stop span signed rest laid
      apply (operand_covers depth strength laid).then
      intro high second after rest laid
      exact joined_covers depth strength (exprBetween_join connective before after signed.le) laid

/-- What is read as an operand with signs before it lies between the tokens it is read from. -/
theorem unary_covers : (depth : Nat) → {low : Nat} → {tokens : List Token} →
    Laid lines size low tokens → Covers lines size (unary depth) tokens (ExprBetween lines low)
  | 0, _, _, _ => covers_fail _
  | depth + 1, low, tokens, laid => by
    rw [unary]
    refine .peek ?_
    split
    · exact call_covers depth laid
    · rename_i op sign
      have some : (current tokens).kind ≠ .endOfInput := by
        intro mark
        rw [mark] at sign
        contradiction
      apply (covers_advance laid some).then
      intro stop span signed rest laid
      apply (unary_covers depth laid).then
      intro high operand after rest laid
      have span := signed.upTo after.span (Nat.le_refl _)
      have part := after.widen signed.le (Nat.le_refl _)
      exact covers_pure laid (.intro span (List.forall_mem_singleton.mpr part))

/-- What is read as a call or less lies between the tokens it is read from. -/
theorem call_covers : (depth : Nat) → {low : Nat} → {tokens : List Token} →
    Laid lines size low tokens → Covers lines size (call depth) tokens (ExprBetween lines low)
  | 0, _, _, _ => covers_fail _
  | depth + 1, low, tokens, laid => by
    rw [call]
    apply (primary_covers depth laid).then
    intro middle callee before rest laid
    exact applied_covers depth before laid

/-- What is read as calls and properties of a subject lies between the tokens it is read from. -/
theorem applied_covers : (depth : Nat) → {subject : Expr} → {low middle : Nat} →
    {tokens : List Token} → ExprBetween lines low middle subject → Laid lines size middle tokens →
    Covers lines size (applied depth subject) tokens (ExprBetween lines low)
  | 0, _, _, _, _, _, _ => covers_fail _
  | depth + 1, subject, low, middle, tokens, before, laid => by
    rw [applied_succ]
    refine .bind (covers_symbol? laid .leftParen ?_ ?_)
    · intro stop _ opened rest laid
      have list : Covers lines size (unlessAt .rightParen [] (arguments depth argumentLimit)) rest
          (ExprsBetween lines stop) :=
        covers_unlessAt laid .rightParen ⟨Nat.le_refl _, List.forall_mem_nil _⟩
          (arguments_covers depth argumentLimit laid)
      apply list.then
      intro high values after rest laid
      apply (covers_symbol laid _ _).then
      intro last close closed rest laid
      have below := Nat.le_trans opened.le after.1
      have parts : ∀ part ∈ subject :: values, ExprBetween lines low last part := by
        refine List.forall_mem_cons.mpr ⟨?_, fun value member => ?_⟩
        · exact before.widen (Nat.le_refl _) (Nat.le_trans below closed.le)
        · exact (after.2 value member).widen (Nat.le_trans before.span.le opened.le) closed.le
      exact applied_covers depth (.intro (before.span.upTo closed below) parts) laid
    · intro rest laid
      refine .bind (covers_symbol? laid .dot ?_ ?_)
      · intro stop _ dotted rest laid
        apply (covers_name laid _).then
        rintro high ⟨property, span⟩ named rest laid
        have part := before.widen (Nat.le_refl _) (Nat.le_trans dotted.le named.le)
        have joined := before.span.upTo named dotted.le
        refine applied_covers depth (.intro joined ?_) laid
        exact List.forall_mem_singleton.mpr part
      · intro rest laid
        exact covers_pure laid before

/-- What is read as arguments lies between the tokens it is read from. -/
theorem arguments_covers : (depth allowed : Nat) → {low : Nat} → {tokens : List Token} →
    Laid lines size low tokens →
    Covers lines size (arguments depth allowed) tokens (ExprsBetween lines low)
  | 0, _, _, _, _ => covers_fail _
  | _ + 1, 0, _, _, _ => covers_fail _
  | depth + 1, allowed + 1, low, tokens, laid => by
    rw [arguments]
    apply (expression_covers depth laid).then
    intro middle first before rest laid
    refine .bind (covers_symbol? laid .comma ?_ ?_)
    · intro stop _ parted rest laid
      apply (arguments_covers depth allowed laid).then
      intro high others after rest laid
      have below := Nat.le_trans before.span.le parted.le
      refine covers_pure laid ⟨Nat.le_trans below after.1, List.forall_mem_cons.mpr ⟨?_, ?_⟩⟩
      · exact before.widen (Nat.le_refl _) (Nat.le_trans parted.le after.1)
      · exact fun value member => (after.2 value member).widen below (Nat.le_refl _)
    · intro rest laid
      exact covers_pure laid ⟨before.span.le, List.forall_mem_singleton.mpr before⟩

/-- What is read as a primary expression lies between the tokens it is read from. -/
theorem primary_covers : (depth : Nat) → {low : Nat} → {tokens : List Token} →
    Laid lines size low tokens → Covers lines size (primary depth) tokens (ExprBetween lines low)
  | 0, _, _, _ => covers_fail _
  | depth + 1, low, tokens, laid => by
    rw [primary]
    refine .peek ?_
    split
    · rename_i kind
      apply (covers_advance laid (by simp [kind])).then
      intro stop start begun rest laid
      apply (covers_symbol laid _ _).then
      intro stop' _ dotted rest laid
      apply (covers_name laid _).then
      rintro high ⟨method, span⟩ named rest laid
      exact covers_pure laid (.intro (begun.upTo named dotted.le) (List.forall_mem_nil _))
    · rename_i kind
      apply (covers_advance laid (by simp [kind])).then
      intro stop start begun rest laid
      apply (expression_covers depth laid).then
      intro middle inner between rest laid
      apply (covers_symbol laid _ _).then
      intro high close closed rest laid
      have span := begun.upTo closed between.span.le
      have part := between.widen begun.le closed.le
      exact covers_pure laid (.intro span (List.forall_mem_singleton.mpr part))
    · refine .here ?_
      split
      · exact covers_fail _
      · rename_i atom alone
        have some : (current tokens).kind ≠ .endOfInput := by
          intro mark
          rw [mark] at alone
          contradiction
        obtain ⟨token, after, high, rfl, lies, onward⟩ := laid.exists_cons some
        have taken : advance (token :: after) = .ok (token.span, after) := rfl
        refine .bind (covers_of_eq onward ?_ taken)
        intro rest laid
        exact covers_pure laid (exprBetween_atom alone lies)

end

/-! ## Statements -/

/-- All spans of the statement lie between the offsets. -/
abbrev StmtBetween (lines : Nat → Nat) (low high : Nat) (stmt : Stmt) : Prop :=
  stmt.AllSpans (Span.Between lines low high)

/-- The offsets are in order, and all spans of the statements lie between them. -/
abbrev StmtsBetween (lines : Nat → Nat) (low high : Nat) (body : List Stmt) : Prop :=
  low ≤ high ∧ ∀ stmt ∈ body, StmtBetween lines low high stmt

/-- All spans of the function lie between the offsets. -/
abbrev DeclBetween (lines : Nat → Nat) (low high : Nat) (decl : FunctionDecl) : Prop :=
  decl.AllSpans (Span.Between lines low high)

/-- The offsets are in order, and all spans of what may be missing lie between them. -/
abbrev MaybeBetween (lines : Nat → Nat) (low high : Nat) (value : Option Expr) : Prop :=
  low ≤ high ∧ ∀ expr ∈ value, ExprBetween lines low high expr

/-- A statement between two offsets is between others further apart. -/
theorem StmtBetween.widen {high lower higher : Nat} {stmt : Stmt}
    (between : StmtBetween lines low high stmt) (below : lower ≤ low) (above : high ≤ higher) :
    StmtBetween lines lower higher stmt :=
  Stmt.AllSpans.mono between fun _ lies => lies.widen below above

/-- A function between two offsets is between others further apart. -/
theorem DeclBetween.widen {high lower higher : Nat} {decl : FunctionDecl}
    (between : DeclBetween lines low high decl) (below : lower ≤ low) (above : high ≤ higher) :
    DeclBetween lines lower higher decl :=
  FunctionDecl.AllSpans.mono between fun _ lies => lies.widen below above

/-- A loop written with `for` has its own span and those of the parts written. -/
theorem allSpans_forLoop {property : Span → Prop} {start separator : Span}
    {initializer : Option Stmt}
    {condition increment : Option Expr} {body : Stmt} (whole : property (start.upTo body.span))
    (first : ∀ stmt ∈ initializer, stmt.AllSpans property)
    (test : ∀ expr ∈ condition, expr.AllSpans property) (separates : property separator)
    (step : ∀ expr ∈ increment, expr.AllSpans property) (round : body.AllSpans property) :
    (forLoop start initializer condition separator increment body).AllSpans property := by
  have pair : ∀ {span : Span} {first second : Stmt}, property span → first.AllSpans property →
      second.AllSpans property → (Stmt.block span [first, second]).AllSpans property :=
    fun span head tail => .of_plain rfl rfl span (List.forall_mem_nil _)
      (List.forall_mem_cons.mpr ⟨head, List.forall_mem_singleton.mpr tail⟩)
  have head : (condition.getD (.literal separator (.bool true))).AllSpans property := by
    cases condition with
    | none => exact .intro separates (List.forall_mem_nil _)
    | some value => exact test value rfl
  have loop : ∀ {round : Stmt}, round.AllSpans property → (Stmt.while (start.upTo body.span)
      (condition.getD (.literal separator (.bool true))) round).AllSpans property :=
    fun tail => .of_plain rfl rfl whole (List.forall_mem_singleton.mpr head)
      (List.forall_mem_singleton.mpr tail)
  unfold forLoop
  cases increment with
  | none =>
    cases initializer with
    | none => exact loop round
    | some stmt => exact pair whole (first stmt rfl) (loop round)
  | some value =>
    have stepped := step value rfl
    have advancing : (Stmt.expression value.span value).AllSpans property :=
      .of_plain rfl rfl stepped.span (List.forall_mem_singleton.mpr stepped) (List.forall_mem_nil _)
    have onward := pair round.span round advancing
    cases initializer with
    | none => exact loop onward
    | some stmt => exact pair whole (first stmt rfl) (loop onward)

/-- What is read as parameters lies between the tokens it is read from. -/
theorem parameters_covers : (allowed : Nat) → {low : Nat} → {tokens : List Token} →
    Laid lines size low tokens →
    Covers lines size (parameters allowed) tokens fun stop _ => low ≤ stop
  | 0, _, _, _ => covers_fail _
  | allowed + 1, low, tokens, laid => by
    rw [parameters]
    apply (covers_name laid _).then
    rintro stop ⟨parameter, span⟩ named rest laid
    refine .bind (covers_symbol? laid .comma ?_ ?_)
    · intro middle _ parted rest laid
      apply (parameters_covers allowed laid).then
      intro high others after rest laid
      exact covers_pure laid (Nat.le_trans named.le (Nat.le_trans parted.le after))
    · intro rest laid
      exact covers_pure laid named.le

/-- What is read as an expression that may be missing lies between the tokens it is read from. -/
theorem some_expression_covers (depth : Nat) (laid : Laid lines size low tokens) :
    Covers lines size (some <$> expression depth) tokens (MaybeBetween lines low) := by
  apply (expression_covers depth laid).then
  intro high value between rest laid
  exact covers_pure laid ⟨between.span.le, fun _ member => Option.some.inj member ▸ between⟩

/-- What is missing has no spans. -/
theorem maybeBetween_none (lines : Nat → Nat) (low : Nat) : MaybeBetween lines low low none :=
  ⟨Nat.le_refl _, fun _ member => absurd member (Option.not_mem_none _)⟩

/-- An expression that is missing where the symbol comes next. -/
theorem optional_covers (depth : Nat) (symbol : Symbol) (laid : Laid lines size low tokens) :
    Covers lines size (unlessAt symbol none (some <$> expression depth)) tokens
      (MaybeBetween lines low) :=
  covers_unlessAt laid symbol (maybeBetween_none lines low) (some_expression_covers depth laid)

/-- What is read as an expression statement lies between the tokens it is read from. -/
theorem expressionStatement_covers (depth : Nat) (laid : Laid lines size low tokens) :
    Covers lines size (expressionStatement depth) tokens (StmtBetween lines low) := by
  apply (expression_covers depth laid).then
  intro middle value between rest laid
  apply (covers_symbol laid _ _).then
  intro high close closed rest laid
  have span := between.span.upTo closed (Nat.le_refl _)
  have part := between.widen (Nat.le_refl _) closed.le
  apply covers_pure laid
  exact .of_plain rfl rfl span (List.forall_mem_singleton.mpr part) (List.forall_mem_nil _)

section Started

variable {start : Span} (begun : start.Between lines low middle)
    (laid : Laid lines size middle tokens)
include begun laid

/-- What is read as a variable declaration lies between the tokens it is read from. -/
theorem letStatement_covers (depth : Nat) :
    Covers lines size (letStatement depth start) tokens (StmtBetween lines low) := by
  rw [letStatement_eq]
  apply (covers_name laid _).then
  rintro stop ⟨declared, _⟩ named rest laid
  have value : Covers lines size (afterSymbol .assign none (some <$> expression depth)) rest
      (MaybeBetween lines stop) := by
    apply covers_afterSymbol laid .assign (maybeBetween_none lines stop)
    intro middle rest le laid
    apply (some_expression_covers depth laid).mono
    rintro high value ⟨ordered, between⟩
    refine ⟨Nat.le_trans le ordered, fun expr member => ?_⟩
    exact (between expr member).widen le (Nat.le_refl _)
  apply value.then
  intro last initializer between rest laid
  apply (covers_symbol laid _ _).then
  intro high close closed rest laid
  have below := Nat.le_trans named.le between.1
  refine covers_pure laid (.of_plain rfl rfl (begun.upTo closed below) ?_ (List.forall_mem_nil _))
  intro expr member
  exact (between.2 expr (Option.mem_toList.mp member)).widen (Nat.le_trans begun.le named.le)
    closed.le

/-- What is read as a print statement lies between the tokens it is read from. -/
theorem printStatement_covers (depth : Nat) :
    Covers lines size (printStatement depth start) tokens (StmtBetween lines low) := by
  apply (expression_covers depth laid).then
  intro middle value between rest laid
  apply (covers_symbol laid _ _).then
  intro high close closed rest laid
  have span := begun.upTo closed between.span.le
  have part := between.widen begun.le closed.le
  apply covers_pure laid
  exact .of_plain rfl rfl span (List.forall_mem_singleton.mpr part) (List.forall_mem_nil _)

/-- What is read as a return statement lies between the tokens it is read from. -/
theorem returnStatement_covers (depth : Nat) :
    Covers lines size (returnStatement depth start) tokens (StmtBetween lines low) := by
  rw [returnStatement_eq]
  apply (optional_covers depth .semicolon laid).then
  intro last value between rest laid
  apply (covers_symbol laid _ _).then
  intro high close closed rest laid
  refine covers_pure laid (.of_plain rfl rfl (begun.upTo closed between.1) ?_
    (List.forall_mem_nil _))
  intro expr member
  exact (between.2 expr (Option.mem_toList.mp member)).widen begun.le closed.le

/-- What is read as a break statement lies between the tokens it is read from. -/
theorem breakStatement_covers :
    Covers lines size (breakStatement start) tokens (StmtBetween lines low) := by
  apply (covers_symbol laid _ _).then
  intro high close closed rest laid
  have span := begun.upTo closed (Nat.le_refl _)
  exact covers_pure laid (.of_plain rfl rfl span (List.forall_mem_nil _) (List.forall_mem_nil _))

end Started

/-- What is read as the initializer of a loop lies between the tokens it is read from. -/
theorem forInitializer_covers (depth : Nat) (laid : Laid lines size low tokens) :
    Covers lines size (forInitializer depth) tokens fun stop found =>
      low ≤ stop ∧ ∀ stmt ∈ found, StmtBetween lines low stop stmt := by
  have given : ∀ {stop high : Nat} {stmt : Stmt}, low ≤ stop → StmtBetween lines stop high stmt →
      low ≤ high ∧ ∀ found ∈ some stmt, StmtBetween lines low high found :=
    fun le between => ⟨Nat.le_trans le between.span.le, fun _ member =>
      Option.some.inj member ▸ between.widen le (Nat.le_refl _)⟩
  refine .bind (covers_symbol? laid .semicolon ?_ ?_)
  · intro stop _ parted rest laid
    exact covers_pure laid ⟨parted.le, fun _ member => absurd member (Option.not_mem_none _)⟩
  · intro rest laid
    refine .bind (covers_keyword? laid .let ?_ ?_)
    · intro stop start begun rest laid
      apply (letStatement_covers begun laid depth).then
      intro high stmt between rest laid
      exact covers_pure laid (given (Nat.le_refl _) between)
    · intro rest laid
      apply (expressionStatement_covers depth laid).then
      intro high stmt between rest laid
      exact covers_pure laid (given (Nat.le_refl _) between)

/-- The name of a superclass lies where it was read. -/
theorem superclassName_covers (laid : Laid lines size low tokens) :
    Covers lines size superclassName tokens fun stop superclass =>
      low ≤ stop ∧ ∀ named ∈ superclass, named.span.Between lines low stop := by
  apply (covers_name laid _).then
  rintro stop ⟨superclass, span⟩ named rest laid
  exact covers_pure laid ⟨named.le, fun _ member => Option.some.inj member ▸ named⟩

mutual

/-- What is read as a declaration lies between the tokens it is read from. -/
theorem declaration_covers : (depth : Nat) → {low : Nat} → {tokens : List Token} →
    Laid lines size low tokens →
    Covers lines size (declaration depth) tokens (StmtBetween lines low)
  | 0, _, _, _ => covers_fail _
  | depth + 1, low, tokens, laid => by
    rw [declaration]
    refine .peek ?_
    split
    · rename_i kind
      apply (covers_advance laid (by simp [kind])).then
      intro stop start begun rest laid
      exact classDeclaration_covers depth begun laid
    · rename_i kind
      apply (covers_advance laid (by simp [kind])).then
      intro stop start begun rest laid
      apply (function_covers depth _ laid).then
      intro high decl between rest laid
      have inside := between.widen begun.le (Nat.le_refl _)
      have span := begun.upTo between.span (Nat.le_refl _)
      apply covers_pure laid
      constructor
      case span => exact span
      case superclass => exact fun _ member => absurd member (Option.not_mem_none _)
      case exprs => exact List.forall_mem_nil _
      case parts => exact List.forall_mem_nil _
      case functions => exact List.forall_mem_singleton.mpr inside.span
      case bodies => exact List.forall_mem_singleton.mpr inside.body
    · rename_i kind
      apply (covers_advance laid (by simp [kind])).then
      intro stop start begun rest laid
      exact letStatement_covers begun laid depth
    · exact statement_covers depth laid

/-- What is read as a class declaration lies between the tokens it is read from. -/
theorem classDeclaration_covers : (depth : Nat) → {start : Span} → {low middle : Nat} →
    {tokens : List Token} → start.Between lines low middle → Laid lines size middle tokens →
    Covers lines size (classDeclaration depth start) tokens (StmtBetween lines low)
  | 0, _, _, _, _, _, _ => covers_fail _
  | depth + 1, start, low, middle, tokens, begun, laid => by
    rw [classDeclaration_succ]
    apply (covers_name laid _).then
    rintro stop ⟨className, _⟩ named rest laid
    have above : Covers lines size (afterSymbol .less none superclassName) rest
        fun last superclass => stop ≤ last ∧ ∀ named ∈ superclass,
          named.span.Between lines stop last := by
      refine covers_afterSymbol laid .less ⟨Nat.le_refl _, ?_⟩ ?_
      · exact fun _ member => absurd member (Option.not_mem_none _)
      · intro middle rest le laid
        apply (superclassName_covers laid).mono
        rintro last superclass ⟨ordered, between⟩
        refine ⟨Nat.le_trans le ordered, fun named member => ?_⟩
        exact (between named member).widen le (Nat.le_refl _)
    apply above.then
    intro last superclass inherits rest laid
    apply (covers_symbol laid _ _).then
    intro opening _ opened rest laid
    apply (methods_covers depth laid).then
    intro closing methods between rest laid
    apply (covers_symbol laid _ _).then
    intro high close closed rest laid
    -- The offsets go up from token to token, and everything lies between the first and the last.
    have first := begun.le
    have second := named.le
    have third := inherits.1
    have fourth := opened.le
    have fifth := between.1
    have sixth := closed.le
    have inside : ∀ method ∈ methods, DeclBetween lines low high method := fun method member =>
      (between.2 method member).widen (by omega) (by omega)
    apply covers_pure laid
    constructor
    case span => exact begun.upTo closed (by omega)
    case superclass =>
      intro named member
      exact (inherits.2 named member).widen (by omega) (by omega)
    case exprs => exact List.forall_mem_nil _
    case parts => exact List.forall_mem_nil _
    case functions => exact fun method member => (inside method member).span
    case bodies => exact fun method member => (inside method member).body

/-- What is read as methods lies between the tokens it is read from. -/
theorem methods_covers : (depth : Nat) → {low : Nat} → {tokens : List Token} →
    Laid lines size low tokens → Covers lines size (methods depth) tokens fun stop found =>
      low ≤ stop ∧ ∀ method ∈ found, DeclBetween lines low stop method
  | 0, _, _, _ => covers_fail _
  | depth + 1, low, tokens, laid => by
    rw [methods]
    refine .bind (covers_atEndOfBody laid ?_)
    intro ended rest laid
    cases ended with
    | true => exact covers_pure laid ⟨Nat.le_refl _, List.forall_mem_nil _⟩
    | false =>
      apply (function_covers depth _ laid).then
      intro middle first before rest laid
      apply (methods_covers depth laid).then
      intro high others after rest laid
      have head := before.widen (Nat.le_refl _) after.1
      refine covers_pure laid ⟨Nat.le_trans before.span.le after.1,
        List.forall_mem_cons.mpr ⟨head, fun method member => ?_⟩⟩
      exact (after.2 method member).widen before.span.le (Nat.le_refl _)

/-- What is read as a function lies between the tokens it is read from. -/
theorem function_covers : (depth : Nat) → (role : String) → {low : Nat} → {tokens : List Token} →
    Laid lines size low tokens →
    Covers lines size (function depth role) tokens (DeclBetween lines low)
  | 0, _, _, _, _ => covers_fail _
  | depth + 1, role, low, tokens, laid => by
    rw [function_succ]
    apply (covers_name laid _).then
    rintro stop ⟨functionName, start⟩ begun rest laid
    apply (covers_symbol laid _ _).then
    intro opening _ opened rest laid
    have list : Covers lines size (unlessAt .rightParen [] (parameters argumentLimit)) rest
        fun stop _ => opening ≤ stop :=
      covers_unlessAt laid .rightParen (Nat.le_refl _) (parameters_covers argumentLimit laid)
    apply list.then
    intro given parameters below rest laid
    apply (covers_symbol laid _ _).then
    intro middle _ parted rest laid
    apply (covers_symbol laid _ _).then
    intro inner _ entered rest laid
    apply (declarations_covers depth laid).then
    intro outer body between rest laid
    apply (covers_symbol laid _ _).then
    intro high close closed rest laid
    have first := begun.le
    have second := opened.le
    have third := parted.le
    have fourth := entered.le
    have fifth := between.1
    exact covers_pure laid ⟨begun.upTo closed (by omega), fun stmt member =>
      (between.2 stmt member).widen (by omega) closed.le⟩

/-- What is read as declarations lies between the tokens it is read from. -/
theorem declarations_covers : (depth : Nat) → {low : Nat} → {tokens : List Token} →
    Laid lines size low tokens →
    Covers lines size (declarations depth) tokens (StmtsBetween lines low)
  | 0, _, _, _ => covers_fail _
  | depth + 1, low, tokens, laid => by
    rw [declarations]
    refine .bind (covers_atEndOfBody laid ?_)
    intro ended rest laid
    cases ended with
    | true => exact covers_pure laid ⟨Nat.le_refl _, List.forall_mem_nil _⟩
    | false =>
      apply (declaration_covers depth laid).then
      intro middle first before rest laid
      apply (declarations_covers depth laid).then
      intro high others after rest laid
      refine covers_pure laid ⟨Nat.le_trans before.span.le after.1,
        List.forall_mem_cons.mpr ⟨?_, ?_⟩⟩
      · exact before.widen (Nat.le_refl _) after.1
      · exact fun stmt member => (after.2 stmt member).widen before.span.le (Nat.le_refl _)

/-- What is read as a statement lies between the tokens it is read from. -/
theorem statement_covers : (depth : Nat) → {low : Nat} → {tokens : List Token} →
    Laid lines size low tokens → Covers lines size (statement depth) tokens (StmtBetween lines low)
  | 0, _, _, _ => covers_fail _
  | depth + 1, low, tokens, laid => by
    rw [statement]
    refine .peek ?_
    split
    case h_8 => exact expressionStatement_covers depth laid
    all_goals
      rename_i kind
      apply (covers_advance laid (by simp [kind])).then
      intro stop start begun rest laid
    · exact forStatement_covers depth begun laid
    · exact ifStatement_covers depth begun laid
    · exact printStatement_covers begun laid depth
    · exact returnStatement_covers begun laid depth
    · exact whileStatement_covers depth begun laid
    · exact breakStatement_covers begun laid
    · apply (declarations_covers depth laid).then
      intro middle body between rest laid
      apply (covers_symbol laid _ _).then
      intro high close closed rest laid
      have span := begun.upTo closed between.1
      refine covers_pure laid (.of_plain rfl rfl span (List.forall_mem_nil _) ?_)
      intro stmt member
      exact (between.2 stmt member).widen begun.le closed.le

/-- What is read as a `for` statement lies between the tokens it is read from. -/
theorem forStatement_covers : (depth : Nat) → {start : Span} → {low middle : Nat} →
    {tokens : List Token} → start.Between lines low middle → Laid lines size middle tokens →
    Covers lines size (forStatement depth start) tokens (StmtBetween lines low)
  | 0, _, _, _, _, _, _ => covers_fail _
  | depth + 1, start, low, middle, tokens, begun, laid => by
    rw [forStatement_succ]
    apply (covers_symbol laid _ _).then
    intro opening _ opened rest laid
    apply (forInitializer_covers depth laid).then
    intro given initializer first rest laid
    apply (optional_covers depth .semicolon laid).then
    intro tested condition test rest laid
    apply (covers_symbol laid _ _).then
    intro parted separator separates rest laid
    apply (optional_covers depth .rightParen laid).then
    intro stepped increment step rest laid
    apply (covers_symbol laid _ _).then
    intro inner _ closed rest laid
    apply (statement_covers depth laid).then
    intro high body round rest laid
    have le₁ := begun.le
    have le₂ := opened.le
    have le₃ := first.1
    have le₄ := test.1
    have le₅ := separates.le
    have le₆ := step.1
    have le₇ := closed.le
    have le₈ := round.span.le
    apply covers_pure laid
    apply allSpans_forLoop
    case whole => exact begun.upTo round.span (by omega)
    case first => exact fun stmt member => (first.2 stmt member).widen (by omega) (by omega)
    case test => exact fun expr member => (test.2 expr member).widen (by omega) (by omega)
    case separates => exact separates.widen (by omega) (by omega)
    case step => exact fun expr member => (step.2 expr member).widen (by omega) (by omega)
    case round => exact round.widen (by omega) (Nat.le_refl _)

/-- What is read as an `if` statement lies between the tokens it is read from. -/
theorem ifStatement_covers : (depth : Nat) → {start : Span} → {low middle : Nat} →
    {tokens : List Token} → start.Between lines low middle → Laid lines size middle tokens →
    Covers lines size (ifStatement depth start) tokens (StmtBetween lines low)
  | 0, _, _, _, _, _, _ => covers_fail _
  | depth + 1, start, low, middle, tokens, begun, laid => by
    rw [ifStatement]
    apply (covers_symbol laid _ _).then
    intro opening _ opened rest laid
    apply (expression_covers depth laid).then
    intro tested condition test rest laid
    apply (covers_symbol laid _ _).then
    intro inner _ closed rest laid
    apply (statement_covers depth laid).then
    intro stop thenBranch before rest laid
    have le₁ := begun.le
    have le₂ := opened.le
    have le₃ := test.span.le
    have le₄ := closed.le
    have le₅ := before.span.le
    refine .bind (covers_keyword? laid .else ?_ ?_)
    · intro other _ parted rest laid
      apply (statement_covers depth laid).then
      intro high elseBranch after rest laid
      have le₆ := parted.le
      have le₇ := after.span.le
      have test : ExprBetween lines low high condition := test.widen (by omega) (by omega)
      have first : StmtBetween lines low high thenBranch := before.widen (by omega) (by omega)
      have second : StmtBetween lines low high elseBranch := after.widen (by omega) (Nat.le_refl _)
      have span := begun.upTo after.span (by omega)
      have branches := List.forall_mem_cons.mpr ⟨first, List.forall_mem_singleton.mpr second⟩
      exact covers_pure laid (.of_plain rfl rfl span (List.forall_mem_singleton.mpr test) branches)
    · intro rest laid
      have test : ExprBetween lines low stop condition := test.widen (by omega) (by omega)
      have branch : StmtBetween lines low stop thenBranch :=
        before.widen (by omega) (Nat.le_refl _)
      have span := begun.upTo before.span (by omega)
      apply covers_pure laid
      exact .of_plain rfl rfl span (List.forall_mem_singleton.mpr test)
        (List.forall_mem_singleton.mpr branch)

/-- What is read as a `while` statement lies between the tokens it is read from. -/
theorem whileStatement_covers : (depth : Nat) → {start : Span} → {low middle : Nat} →
    {tokens : List Token} → start.Between lines low middle → Laid lines size middle tokens →
    Covers lines size (whileStatement depth start) tokens (StmtBetween lines low)
  | 0, _, _, _, _, _, _ => covers_fail _
  | depth + 1, start, low, middle, tokens, begun, laid => by
    rw [whileStatement]
    apply (covers_symbol laid _ _).then
    intro opening _ opened rest laid
    apply (expression_covers depth laid).then
    intro tested condition test rest laid
    apply (covers_symbol laid _ _).then
    intro inner _ closed rest laid
    apply (statement_covers depth laid).then
    intro high body round rest laid
    have le₁ := begun.le
    have le₂ := opened.le
    have le₃ := test.span.le
    have le₄ := closed.le
    have le₅ := round.span.le
    have span := begun.upTo round.span (by omega)
    have test : ExprBetween lines low high condition := test.widen (by omega) (by omega)
    have round : StmtBetween lines low high body := round.widen (by omega) (Nat.le_refl _)
    apply covers_pure laid
    exact .of_plain rfl rfl span (List.forall_mem_singleton.mpr test)
      (List.forall_mem_singleton.mpr round)

end

/-- What is read as a program lies between the tokens it is read from. -/
theorem program_covers : (depth : Nat) → {low : Nat} → {tokens : List Token} →
    Laid lines size low tokens → Covers lines size (program depth) tokens (StmtsBetween lines low)
  | 0, _, _, _ => covers_fail _
  | depth + 1, low, tokens, laid => by
    rw [program]
    refine .peek ?_
    split
    · exact covers_pure laid ⟨Nat.le_refl _, List.forall_mem_nil _⟩
    · apply (declaration_covers depth laid).then
      intro middle first before rest laid
      apply (program_covers depth laid).then
      intro high others after rest laid
      refine covers_pure laid ⟨Nat.le_trans before.span.le after.1,
        List.forall_mem_cons.mpr ⟨?_, ?_⟩⟩
      · exact before.widen (Nat.le_refl _) after.1
      · exact fun stmt member => (after.2 stmt member).widen before.span.le (Nat.le_refl _)

end Parse

end EventScript
