import EventScript.Proofs.Syntax.Located
import EventScript.Proofs.Syntax.Taken

/-!
# Where the pieces of a program are

Every piece of a program that was read from a text owns consecutive tokens of the text
(`Piece.Owns`): those that write it or, for what the loop of a `for` statement is made of, those
that stand for it. Its span runs from the first of them to the last, and what it consists of lies
within its span. The one exception is the increment of a `for` statement. It is run behind the body,
in a block that has the span of the body, but it is written before the body (`Increment.outside`).

`Program.places_pieces` says so of all pieces of all programs that can be read.
-/

namespace EventScript

/-- The piece is the outer one, or stands in one of those that it consists of. -/
inductive Piece.In (piece : Piece) : Piece → Prop where
  | self : In piece piece
  | child {outer child : Piece} (member : child ∈ outer.children) (inside : In piece child) :
      In piece outer

/-- The piece is a statement of the program, or stands in one. -/
def Program.HasPiece (program : Program) (piece : Piece) : Prop :=
  ∃ stmt ∈ program, piece.In (.stmt stmt)

/-- One span lies within another. -/
def Span.Within (inner outer : Span) : Prop := outer.start ≤ inner.start ∧ inner.stop ≤ outer.stop

/-- The consecutive words that are a piece's own. They write it, but for the parts of the loop that
a `for` statement is read as: the loop has all words of the statement, a condition that is missing
has the semicolon that stands for it, a round has those of the body, and the increment has those of
its expression. -/
inductive Piece.Owns (words : List Token) : Piece → List Token → Prop where
  | written {piece : Piece} {own : List Token} (part : own <:+: words)
      (written : Written [.piece piece] own) : Owns words piece own
  | loop {text : ForText} {own : List Token} (part : own <:+: words)
      (written : Written text.items own) :
      Owns words (.stmt text.loop) own
  | test {text : ForText} {all : List Token} {semicolon : Token} (part : all <:+: words)
      (written : Written text.items all) (missing : text.condition = none)
      (inside : [semicolon] <:+: all)
      (kind : semicolon.kind = .symbol .semicolon) (span : semicolon.span = text.separator) :
      Owns words (.expr text.test) [semicolon]
  | round {text : ForText} {all own : List Token} (part : all <:+: words)
      (written : Written text.items all) (inside : own <:+: all)
      (body : Written [.piece (.stmt text.body)] own) : Owns words (.stmt text.round) own
  | step {text : ForText} {step : Expr} {all own : List Token} (part : all <:+: words)
      (written : Written text.items all) (steps : text.increment = some step)
      (inside : own <:+: all)
      (value : Written [.piece (.expr step)] own) :
      Owns words (.stmt (.expression step.span step)) own

/-- The child is the increment of a `for` statement among the words, the piece is what is gone
through in each round, and the loop is the one that the program has for the statement. -/
def Increment (program : Program) (words : List Token) (piece child loop : Piece) : Prop :=
  ∃ (text : ForText) (step : Expr) (own : List Token), own <:+: words ∧ Written text.items own ∧
    text.increment = some step ∧ piece = .stmt text.round ∧
    child = .stmt (.expression step.span step) ∧ loop = .stmt text.loop ∧ program.HasPiece loop

/-- A piece of a program is where its own words are. -/
structure Piece.Placed (source : String) (program : Program) (words : List Token) (piece : Piece) :
    Prop where
  owns : ∃ own, Owns words piece own ∧ piece.span.Of own
  filled : piece.span.start < piece.span.stop
  inside : piece.span.stop ≤ source.utf8ByteSize
  line : piece.span.line = lineAt source piece.span.start
  /-- A function runs from its name to the brace behind its body. -/
  function : ∀ decl own, piece = .function decl → Owns words piece own →
    own.head?.map Token.kind = some (.identifier decl.name) ∧
      own.getLast?.map Token.kind = some (.symbol .rightBrace)
  children : ∀ child ∈ piece.children, (¬∃ loop, Increment program words piece child loop) →
    child.span.Within piece.span
  /-- The increment of a `for` statement stands before its round, but within the loop. -/
  increments : ∀ child loop, Increment program words piece child loop →
    child ∈ piece.children ∧ child.span.stop ≤ piece.span.start ∧ child.span.Within loop.span

/-- A piece in a piece of another one is in that. -/
theorem Piece.In.trans {inner middle outer : Piece} (left : inner.In middle)
    (right : middle.In outer) :
    inner.In outer := by
  induction right with
  | self => exact left
  | child member _ ih => exact .child member ih

/-- A program has the pieces of its pieces. -/
theorem Program.HasPiece.inner {program : Program} {inner outer : Piece}
    (has : program.HasPiece outer)
    (inside : inner.In outer) : program.HasPiece inner := by
  obtain ⟨stmt, member, around⟩ := has
  exact ⟨stmt, member, inside.trans around⟩

/-- A span is within itself. -/
theorem Span.Within.of_eq {inner outer : Span} (same : inner = outer) : inner.Within outer :=
  same ▸ ⟨Nat.le_refl _, Nat.le_refl _⟩

/-! ## Words in order -/

/-- The words lie one behind the other, and none is empty. -/
structure Token.InOrder (words : List Token) : Prop where
  ordered : words.Pairwise fun earlier later => earlier.span.stop ≤ later.span.start
  filled : ∀ word ∈ words, word.span.start < word.span.stop

namespace Token.InOrder

variable {words own : List Token}

/-- Words that are in order are so in each part. -/
theorem part (order : InOrder words) (part : own <:+: words) : InOrder own :=
  ⟨order.ordered.sublist part.sublist, fun word member => order.filled word (part.subset member)⟩

/-- No word starts before the first. -/
theorem start_le (order : InOrder own) {first word : Token} (front : first ∈ own.head?)
    (member : word ∈ own) : first.span.start ≤ word.span.start := by
  obtain ⟨others, rfl⟩ := List.head?_eq_some_iff.mp front
  obtain ⟨behind, -⟩ := List.pairwise_cons.mp order.ordered
  rcases List.mem_cons.mp member with rfl | later
  · exact Nat.le_refl _
  · exact Nat.le_trans (Nat.le_of_lt (order.filled first List.mem_cons_self)) (behind word later)

/-- No word stops behind the last. -/
theorem stop_le (order : InOrder own) {last word : Token} (back : last ∈ own.getLast?)
    (member : word ∈ own) : word.span.stop ≤ last.span.stop := by
  obtain ⟨others, rfl⟩ := List.getLast?_eq_some_iff.mp back
  obtain ⟨-, -, before⟩ := List.pairwise_append.mp order.ordered
  rcases List.mem_append.mp member with earlier | same
  · have lies := before word earlier last List.mem_cons_self
    have filled := order.filled last (List.mem_of_getLast? back)
    exact Nat.le_trans lies (Nat.le_of_lt filled)
  · rw [List.mem_singleton.mp same]

end Token.InOrder

namespace Span.Of

variable {own mine : List Token} {span inner outer : Span}

/-- A span that runs over words in order is not empty. -/
theorem start_lt (of : span.Of own) (order : Token.InOrder own) : span.start < span.stop := by
  obtain ⟨first, front, last, back, rfl⟩ := of
  have member := List.mem_of_getLast? back
  exact Nat.lt_of_le_of_lt (order.start_le front member) (order.filled last member)

/-- A span that runs over some of the words lies within one that runs over all of them. -/
theorem within (of : inner.Of mine) (around : outer.Of own) (part : mine <:+: own)
    (order : Token.InOrder own) : inner.Within outer := by
  obtain ⟨first, front, last, back, rfl⟩ := of
  obtain ⟨begins, opening, ends, closing, rfl⟩ := around
  have starts := order.start_le opening (part.subset (List.mem_of_head? front))
  have stops := order.stop_le closing (part.subset (List.mem_of_getLast? back))
  exact ⟨starts, stops⟩

end Span.Of

/-! ## The parts of a `for` statement -/

namespace ForText

variable {text : ForText} {piece : Piece}

/-- The pieces that a `for` statement is written with are its clauses and its body. -/
theorem piece_mem_items : .piece piece ∈ text.items ↔
    (∃ first, text.initializer = some first ∧ piece = .stmt first) ∨
      (∃ condition, text.condition = some condition ∧ piece = .expr condition) ∨
      (∃ step, text.increment = some step ∧ piece = .expr step) ∨ piece = .stmt text.body := by
  have clause : .piece piece ∈ Item.clause text.absent text.initializer ↔
      ∃ first, text.initializer = some first ∧ piece = .stmt first := by
    cases text.initializer <;> simp [Item.clause]
  simp [items, clause, eq_comm]

/-- The round of a loop has the span of the body. -/
theorem round_span (text : ForText) : text.round.span = text.body.span := by
  unfold round
  split <;> rfl

/-- A `for` statement has the span of its loop. -/
theorem stmt_span (text : ForText) : text.stmt.span = text.loop.span := by
  rw [stmt_eq]
  cases text.initializer <;> rfl

/-- The loop is in the statement. -/
theorem loop_in (text : ForText) : (Piece.stmt text.loop).In (.stmt text.stmt) := by
  rw [stmt_eq]
  cases text.initializer with
  | none => exact .self
  | some first => exact .child (List.mem_cons_of_mem _ List.mem_cons_self) .self

/-- The round is in the statement. -/
theorem round_in (text : ForText) : (Piece.stmt text.round).In (.stmt text.stmt) :=
  .trans (.child (List.mem_cons_of_mem _ List.mem_cons_self) .self) text.loop_in

/-- The pieces that a `for` statement is written with are parts of the statement that it is read
as. -/
theorem in_of_mem (member : .piece piece ∈ text.items) : piece.In (.stmt text.stmt) := by
  rcases piece_mem_items.mp member with ⟨first, some, rfl⟩ | ⟨condition, some, rfl⟩ |
      ⟨step, some, rfl⟩ | rfl
  · rw [stmt_eq, some]
    exact .child List.mem_cons_self .self
  · have same : text.test = condition := by rw [test, some]; rfl
    exact .trans (.child (same ▸ List.mem_cons_self) .self) text.loop_in
  · refine .trans ?_ text.round_in
    unfold round
    rw [some]
    exact .child (List.mem_cons_of_mem _ List.mem_cons_self) (.child List.mem_cons_self .self)
  · refine .trans ?_ text.round_in
    unfold round
    split
    · exact .child List.mem_cons_self .self
    · exact .self

/-- The increment of a `for` statement is written before its body. -/
theorem step_before {own : List Token} {step : Expr} (written : Written text.items own)
    (order : Token.InOrder own) (steps : text.increment = some step) :
    step.span.stop ≤ text.body.span.start := by
  have split :
    text.items = (.word (.keyword .for) text.start :: .word (.symbol .leftParen) text.opening ::
      (Item.clause text.absent text.initializer ++
        (text.condition.toList.map (fun condition => .piece (.expr condition)) ++
          [.word (.symbol .semicolon) text.separator, .piece (.expr step)]))) ++
      [.word (.symbol .rightParen) text.closing, .piece (.stmt text.body)] := by
    simp [items, steps]
  rw [split] at written
  obtain ⟨before, after, rfl, head, tail⟩ := written.split
  obtain ⟨stepped, inHead, first⟩ := head.exists_of_mem (show Item.piece (.expr step) ∈ _ by simp)
  obtain ⟨round, inTail, last⟩ := tail.exists_of_mem (show Item.piece (.stmt text.body) ∈ _ by simp)
  obtain ⟨_, _, ends, back, stops⟩ := first.of
  obtain ⟨begins, front, _, _, starts⟩ := last.of
  obtain ⟨-, -, apart⟩ := List.pairwise_append.mp order.ordered
  have parted := apart ends (inHead.subset (List.mem_of_getLast? back)) begins
    (inTail.subset (List.mem_of_head? front))
  have stop := congrArg Span.stop stops
  have start := congrArg Span.start starts
  calc step.span.stop = ends.span.stop := stop
    _ ≤ begins.span.start := parted
    _ = text.body.span.start := start.symm

/-- The semicolon that stands for a missing condition is one of the words. -/
theorem exists_separator {own : List Token} (written : Written text.items own) :
    ∃ semicolon, [semicolon] <:+: own ∧ semicolon.kind = .symbol .semicolon ∧
      semicolon.span = text.separator := by
  obtain ⟨first, others, split⟩ : ∃ first others,
      text.items = first ++ .word (.symbol .semicolon) text.separator :: others := by
    apply List.append_of_mem
    simp [items]
  rw [split] at written
  obtain ⟨before, after, rfl, -, tail⟩ := written.split
  obtain ⟨semicolon, rest, rfl, kind, span, -⟩ := tail.exists_word
  exact ⟨semicolon, ⟨before, rest, List.append_assoc ..⟩, kind, span⟩

end ForText

/-! ## Pieces in their places -/

section Places

variable {program : Program} {words own : List Token} {piece inner child loop : Piece}

/-- The span of a piece runs from the first of its own words to the last. -/
theorem Piece.Owns.of (owns : Piece.Owns words piece own) : piece.span.Of own := by
  cases owns with
  | written _ written => exact written.of
  | @loop text _ _ written =>
    have whole := written.forText.of
    rwa [Piece.span, text.stmt_span] at whole
  | @test text _ _ _ _ missing _ _ span =>
    have same : (Piece.expr text.test).span = text.separator := by
      rw [ForText.test, missing]
      rfl
    exact same ▸ span ▸ .of_token _
  | @round text _ _ _ _ _ body =>
    have inner := body.of
    rwa [Piece.span, ← text.round_span] at inner
  | step _ _ _ _ value => exact value.of

/-- A piece owns words that stand together. -/
theorem Piece.Owns.part (owns : Piece.Owns words piece own) : own <:+: words := by
  cases owns with
  | written part | loop part => exact part
  | test part _ _ inside | round part _ inside | step part _ _ inside => exact inside.trans part

/-- The increment of a `for` statement stands before its round, but within the loop. -/
theorem Increment.outside (order : Token.InOrder words)
    (increment : Increment program words piece child loop) :
    child ∈ piece.children ∧ child.span.stop ≤ piece.span.start ∧ child.span.Within loop.span := by
  obtain ⟨text, step, own, part, written, steps, rfl, rfl, rfl, -⟩ := increment
  have inOrder := order.part part
  refine ⟨?_, ?_, ?_⟩
  · unfold ForText.round
    rw [steps]
    exact List.mem_cons_of_mem _ List.mem_cons_self
  · have before := ForText.step_before written inOrder steps
    rw [← text.round_span] at before
    exact before
  · have member := ForText.piece_mem_items.mpr (.inr (.inr (.inl ⟨step, steps, rfl⟩)))
    obtain ⟨mine, inside, value⟩ := written.exists_of_mem member
    exact value.of.within (Piece.Owns.loop part written).of inside inOrder

/-- A piece of a program owns words, and its children lie within it. -/
structure Piece.Sits (program : Program) (words : List Token) (piece : Piece) : Prop where
  owns : ∃ own, Owns words piece own
  children : ∀ child ∈ piece.children, (¬∃ loop, Increment program words piece child loop) →
    child.span.Within piece.span

/-- A piece that is laid out by the rule for its form sits where it is written. -/
theorem Piece.Layout.sits {parts : List Item} (layout : piece.Layout parts)
    (order : Token.InOrder words) (part : own <:+: words) (inside : Written parts own) :
    piece.Sits program words where
  owns := ⟨own, .written part (layout.written inside)⟩
  children child member _ := by
    obtain ⟨mine, within, written⟩ := inside.exists_of_mem (layout.piece_mem.mpr member)
    exact written.of.within (layout.written inside).of within (order.part part)

/-! The loop that a `for` statement is read as, from the inside out, where the pieces that the
statement is written with sit. -/

section Loop

variable {text : ForText} (order : Token.InOrder words) (part : own <:+: words)
  (inside : Written text.items own)

include order part inside

/-- What a `for` statement is written with lies within the loop. -/
theorem ForText.within_loop (member : .piece piece ∈ text.items) :
    piece.span.Within text.loop.span := by
  obtain ⟨mine, within, written⟩ := inside.exists_of_mem member
  exact written.of.within (Piece.Owns.loop part inside).of within (order.part part)

variable (sits : ∀ piece, .piece piece ∈ text.items →
  ∀ inner : Piece, inner.In piece → inner.Sits program words)

include sits

/-- What is in the test of a loop sits in the program, and the test is within the loop. -/
theorem ForText.test_sits (within : inner.In (.expr text.test)) :
    inner.Sits program words ∧ (Piece.expr text.test).span.Within text.loop.span := by
  cases missing : text.condition with
  | some condition =>
    have same : text.test = condition := by rw [test, missing]; rfl
    have member := piece_mem_items.mpr (.inr (.inl ⟨condition, missing, rfl⟩))
    rw [same] at within ⊢
    exact ⟨sits _ member inner within, within_loop order part inside member⟩
  | none =>
    have same : text.test = .literal text.separator (.bool true) := by rw [test, missing]; rfl
    obtain ⟨semicolon, among, kind, span⟩ := exists_separator inside
    have owns := Piece.Owns.test part inside missing among kind span
    have lies := owns.of.within (Piece.Owns.loop part inside).of among (order.part part)
    refine ⟨?_, lies⟩
    rw [same] at within owns
    cases within with
    | self => exact ⟨⟨_, owns⟩, nofun⟩
    | child member => contradiction

omit order in
/-- What is in the increment of a loop sits in the program. -/
theorem ForText.step_sits {step : Expr} (steps : text.increment = some step)
    (within : inner.In (.stmt (.expression step.span step))) : inner.Sits program words := by
  have member := piece_mem_items.mpr (.inr (.inr (.inl ⟨step, steps, rfl⟩)))
  cases within with
  | self =>
    obtain ⟨mine, among, value⟩ := inside.exists_of_mem member
    refine ⟨⟨mine, .step part inside steps among value⟩, fun child only _ => ?_⟩
    rw [List.mem_singleton.mp only]
    exact .of_eq rfl
  | child only within =>
    rw [List.mem_singleton.mp only] at within
    exact sits _ member inner within

variable (has : program.HasPiece (.stmt text.loop))

include has

omit order in
/-- What is in the round of a loop sits in the program. -/
theorem ForText.round_sits (within : inner.In (.stmt text.round)) : inner.Sits program words := by
  have member : .piece (.stmt text.body) ∈ text.items :=
    piece_mem_items.mpr (.inr (.inr (.inr rfl)))
  cases steps : text.increment with
  | none =>
    have same : text.round = text.body := by rw [round, steps]
    exact sits _ member inner (same ▸ within)
  | some step =>
    have same : text.round = .block text.body.span [text.body, .expression step.span step] := by
      rw [round, steps]
    have increments :
      Increment program words (.stmt text.round) (.stmt (.expression step.span step))
        (.stmt text.loop) := ⟨text, step, own, part, inside, steps, rfl, rfl, rfl, has⟩
    obtain ⟨mine, among, written⟩ := inside.exists_of_mem member
    have owns : Piece.Owns words (.stmt text.round) mine := .round part inside among written
    rw [same] at within increments owns
    cases within with
    | self =>
      refine ⟨⟨mine, owns⟩, fun child either apart => ?_⟩
      rcases List.mem_cons.mp either with rfl | later
      · exact .of_eq rfl
      · rw [List.mem_singleton.mp later] at apart
        exact absurd ⟨_, increments⟩ apart
    | child either within =>
      rcases List.mem_cons.mp either with rfl | later
      · exact sits _ member inner within
      · rw [List.mem_singleton.mp later] at within
        exact step_sits part inside sits steps within

/-- What is in a loop sits in the program. -/
theorem ForText.loop_sits (within : inner.In (.stmt text.loop)) : inner.Sits program words := by
  cases within with
  | self =>
    refine ⟨⟨own, .loop part inside⟩, fun child either _ => ?_⟩
    rcases List.mem_cons.mp either with rfl | later
    · exact (test_sits order part inside sits .self).2
    · rw [List.mem_singleton.mp later, Piece.span, text.round_span]
      have body : .piece (.stmt text.body) ∈ text.items :=
        piece_mem_items.mpr (.inr (.inr (.inr rfl)))
      exact within_loop order part inside body
  | child either within =>
    rcases List.mem_cons.mp either with rfl | later
    · exact (test_sits order part inside sits within).1
    · rw [List.mem_singleton.mp later] at within
      exact round_sits part inside sits has within

/-- What is in a `for` statement sits in the program. -/
theorem ForText.stmt_sits (within : inner.In (.stmt text.stmt)) : inner.Sits program words := by
  cases given : text.initializer with
  | none =>
    have same : text.stmt = text.loop := by rw [stmt_eq, given]
    exact loop_sits order part inside sits has (same ▸ within)
  | some first =>
    have same : text.stmt = .block (text.start.upTo text.body.span) [first, text.loop] := by
      rw [stmt_eq, given]
    have member := piece_mem_items.mpr (.inl ⟨first, given, rfl⟩)
    have owns : Piece.Owns words (.stmt text.stmt) own := .written part inside.forText
    rw [same] at within owns
    cases within with
    | self =>
      refine ⟨⟨own, owns⟩, fun child either _ => ?_⟩
      rcases List.mem_cons.mp either with rfl | later
      · exact within_loop order part inside member
      · rw [List.mem_singleton.mp later]
        exact .of_eq rfl
    | child either within =>
      rcases List.mem_cons.mp either with rfl | later
      · exact sits _ member inner within
      · rw [List.mem_singleton.mp later] at within
        exact loop_sits order part inside sits has within

end Loop

/-- What is written by some of the words sits there, with all that is in it. -/
theorem Written.sits {items : List Item} (order : Token.InOrder words) (written : Written items own)
    (part : own <:+: words) (has : ∀ piece, .piece piece ∈ items → program.HasPiece piece) :
    ∀ piece, .piece piece ∈ items → ∀ inner : Piece, inner.In piece → inner.Sits program words := by
  induction written with
  | nil => nofun
  | word behind ih =>
    intro piece member
    rcases List.mem_cons.mp member with same | later
    · contradiction
    · exact ih ((List.suffix_cons _ _).isInfix.trans part)
        (fun other inRest => has other (List.mem_cons_of_mem _ inRest)) piece later
  | @piece first parts items mine rest layout inside behind ihInside ih =>
    intro piece member
    rcases List.mem_cons.mp member with same | later
    · obtain rfl := Item.piece.inj same
      have front := (List.prefix_append mine rest).isInfix.trans part
      have hasFirst := has piece List.mem_cons_self
      intro inner within
      cases within with
      | self => exact layout.sits order front inside
      | child childMember within =>
        refine ihInside front (fun other inParts => ?_) _ (layout.piece_mem.mpr childMember)
          inner within
        exact hasFirst.inner (.child (layout.piece_mem.mp inParts) .self)
    · exact ih ((List.suffix_append mine rest).isInfix.trans part)
        (fun other inRest => has other (List.mem_cons_of_mem _ inRest)) piece later
  | @loop text items mine rest inside behind ihInside ih =>
    intro piece member
    rcases List.mem_cons.mp member with same | later
    · obtain rfl := Item.piece.inj same
      have front := (List.prefix_append mine rest).isInfix.trans part
      have hasFirst := has _ List.mem_cons_self
      have parts := ihInside front fun other inItems => hasFirst.inner (ForText.in_of_mem inItems)
      exact fun inner within => ForText.stmt_sits order front inside parts
        (hasFirst.inner text.loop_in) within
    · exact ih ((List.suffix_append mine rest).isInfix.trans part)
        (fun other inRest => has other (List.mem_cons_of_mem _ inRest)) piece later

/-- A function is written from its name to the brace behind its body. -/
theorem Piece.Layout.function_ends {parts : List Item} {decl : FunctionDecl}
    (layout : piece.Layout parts)
    (same : piece = .function decl) :
    (∃ named others, parts = .word (.identifier decl.name) named :: others) ∧
      ∃ others close, parts = others ++ [.word (.symbol .rightBrace) close] := by
  cases layout with
  | @function name named opening closing entry close parameters items listed body =>
    cases same
    refine ⟨⟨_, _, rfl⟩, ⟨.word (.identifier name) named :: .word (.symbol .leftParen) opening ::
      (items ++ .word (.symbol .rightParen) closing :: .word (.symbol .leftBrace) entry ::
        body.map fun inner => .piece (.stmt inner)), close, ?_⟩⟩
    simp only [List.cons_append, List.append_assoc]
  | _ => contradiction

/-- A function owns words from its name to a closing brace. -/
theorem Piece.Owns.function {decl : FunctionDecl} (owns : Piece.Owns words piece own)
    (same : piece = .function decl) :
    own.head?.map Token.kind = some (.identifier decl.name) ∧
      own.getLast?.map Token.kind = some (.symbol .rightBrace) := by
  cases owns with
  | written _ written =>
    rcases written.layout with ⟨parts, layout, inside⟩ | ⟨text, other, -⟩
    · obtain ⟨⟨named, others, first⟩, front, close, last⟩ := layout.function_ends same
      refine ⟨?_, ?_⟩
      · obtain ⟨token, rest, rfl, kind, -, -⟩ := (first ▸ inside).exists_word
        exact congrArg some kind
      · obtain ⟨before, after, rfl, -, tail⟩ := (last ▸ inside).split
        obtain ⟨token, rest, rfl, kind, -, behind⟩ := tail.exists_word
        rw [behind.eq_nil, List.getLast?_concat]
        exact congrArg some kind
    · rw [same] at other
      contradiction
  | _ => contradiction

end Places

namespace Program

variable {source : String} {program : Program} {words : List Token} {mark : Token}

/-- The statements of a program are written by the words before the mark of the end. -/
theorem written_of_ofTokens (marked : mark.kind = .endOfInput)
    (free : ∀ word ∈ words, word.kind ≠ .endOfInput)
    (forms : ofTokens (words ++ [mark]) = .ok program) :
    Parse.WritesBody program words := by
  obtain ⟨rest, found⟩ := exists_of_ofTokens forms
  obtain ⟨own, split, written⟩ := Parse.program_takes _ _ _ found
  have left : Parse.Left (words ++ [mark]) (words ++ [mark]) :=
    ⟨fun _ => id, words, mark, rfl, marked⟩
  have finds := Parse.program_finds (Parse.depthFor (words ++ [mark]).length) left
  unfold Parse.Yields at finds
  rw [found] at finds
  obtain ⟨_, passed, -, ends⟩ := finds
  obtain ⟨before, last, rfl, -⟩ := passed.left.marked
  rw [← List.append_assoc] at split
  obtain ⟨rfl, -⟩ := List.append_inj' split rfl
  cases before with
  | nil =>
    rw [List.append_nil]
    exact written
  | cons word before => exact absurd ends (free word (List.mem_append_right _ List.mem_cons_self))

/-- Every piece of a program that was read from a text is where its own words are: its span runs
from the first of them to the last, which is not nothing, on the line on which it starts; and what
it consists of lies within, but for the increments of `for` statements, which lie before their
rounds and within their loops. -/
theorem places_pieces (reads : ofText source = .ok program) :
    ∃ words mark, Token.ofText source = .ok (words ++ [mark]) ∧ mark.kind = .endOfInput ∧
      Parse.WritesBody program words ∧
      ∀ piece, program.HasPiece piece → piece.Placed source program words := by
  obtain ⟨tokens, divides, forms⟩ := exists_of_ofText reads
  have segmented := (Token.ofText_segments source).1 tokens divides
  obtain ⟨words, mark, rfl, marked, start, -, each⟩ := segmented.words
  have written := written_of_ofTokens marked (fun word member => (each word member).1) forms
  obtain ⟨ordered, -, before⟩ := List.pairwise_append.mp segmented.ordered
  have order : Token.InOrder words := ⟨ordered, fun word member => (each word member).2.1⟩
  refine ⟨words, mark, divides, marked, written, fun piece ⟨stmt, member, within⟩ => ?_⟩
  have sits : piece.Sits program words := by
    refine written.sits order List.infix_rfl (fun other inProgram => ?_) (.stmt stmt)
      (List.mem_map_of_mem member) piece within
    obtain ⟨first, inBody, same⟩ := List.mem_map.mp inProgram
    exact ⟨first, inBody, Item.piece.inj same ▸ .self⟩
  obtain ⟨own, owns⟩ := sits.owns
  have part := owns.part
  obtain ⟨first, front, last, back, span⟩ := owns.of
  have inFront := part.subset (List.mem_of_head? front)
  have inBack := part.subset (List.mem_of_getLast? back)
  exact {
    owns := ⟨own, owns, owns.of⟩
    filled := owns.of.start_lt (order.part part)
    inside := by
      rw [span, ← start]
      exact before last inBack mark List.mem_cons_self
    line := by
      rw [span]
      exact segmented.lines first (List.mem_append_left _ inFront)
    function := fun decl own same owns => owns.function same
    children := sits.children
    increments := fun child loop increment => increment.outside order }

/-- A method with a parameter, of a class with a superclass, and in it a `for` statement with an
increment and without a condition. -/
theorem places_pieces_of_class :
    ∃ program : Program,
      ofText "class A<B\x7bm(a)\x7bfor(let i=a;;i=a)print i;\x7d\x7d" = .ok program ∧
      program.length = 1 ∧ ∃ words mark,
        Token.ofText "class A<B\x7bm(a)\x7bfor(let i=a;;i=a)print i;\x7d\x7d" =
          .ok (words ++ [mark]) ∧
          mark.kind = .endOfInput ∧ Parse.WritesBody program words ∧
          ∀ piece, program.HasPiece piece → piece.Placed
            "class A<B\x7bm(a)\x7bfor(let i=a;;i=a)print i;\x7d\x7d" program words := by
  have counted : (ofText "class A<B\x7bm(a)\x7bfor(let i=a;;i=a)print i;\x7d\x7d").toOption.any
      (fun program => program.length == 1) = true := by decide +kernel
  cases found : ofText "class A<B\x7bm(a)\x7bfor(let i=a;;i=a)print i;\x7d\x7d" with
  | error diagnostic =>
    rw [found] at counted
    contradiction
  | ok program =>
    rw [found] at counted
    exact ⟨program, rfl, of_decide_eq_true counted, places_pieces found⟩

end Program

end EventScript
