import EventScript.Proofs.Mirroring.Ending
import EventScript.Proofs.Session.Intact

/-!
# What a `for` statement means

The parser reads a `for` statement as a `while` loop with blocks around and inside it.
`ForLoop.ending` says what a `for` statement is to do, without any of that: its clauses and its body
are run where they stand, in one new scope around the whole loop. `ForLoop.desugars` is that the two
are alike on every intact machine, and they are wherever a session comes to a `for` statement
(`Session.Runs.forStatement_endsAlike`). The blocks add scopes in which no name is ever bound, so no
program can tell.
-/

namespace EventScript

/-- The clauses and the body of a `for` statement. -/
structure ForLoop where
  initializer : Option Stmt
  condition : Option Expr
  increment : Option Expr
  body : Stmt

namespace ForLoop

/-- What a clause ends in. One that is left out is true. -/
def clause : Option Expr → Ending Value
  | some form => (Code.expr form).Ends
  | none => .give (.bool true)

/-- What the initializer ends in, if there is one. -/
def start : Option Stmt → Ending Flow
  | some first => (Code.stmt first).Ends
  | none => .give .next

/-- What the body ends in, with the increment after it if it ends normally. -/
def round (loop : ForLoop) : Ending Flow :=
  Ending.Then (Code.stmt loop.body).Ends fun
    | .next => (clause loop.increment).Then fun _ => .give .next
    | other => .give other

/-- What the loop ends in. In a new scope around the whole loop the initializer is run once, and
then rounds are gone through for as long as the condition holds. -/
def ending (loop : ForLoop) : Ending Flow :=
  ((start loop.initializer).Then fun
    | .next => (clause loop.condition).loop loop.round
    | other => .give other).inNewScope

/-- The statement that the parser makes of the clauses and the body. -/
def parsed (loop : ForLoop) (start separator : Span) : Stmt :=
  Parse.forLoop start loop.initializer loop.condition separator loop.increment loop.body

end ForLoop

/-- The outcomes that a statement has on a machine are alike: they are the same flow or the same
failure, and leave machines that differ at most in the numbers of scopes made since and in blank
scopes. Scopes that the machine had stand for themselves, with variables that hold the same. -/
def Machine.Alike (machine : Machine) (outcome outcome' : Outcome Flow) : Prop :=
  ∃ later, (Pairing.itself machine.heap.scopes.size).Grows later ∧
    outcome.Mirrors later machine.scope machine.scope (Flow.Mirrors later) outcome'

/-- Each of the two ends on the machine as the other one does, if it ends there at all. -/
def Machine.EndsAlike (machine : Machine) (one other : Ending Flow) : Prop :=
  (∀ outcome, one machine outcome → ∃ outcome', other machine outcome' ∧
    machine.Alike outcome outcome') ∧
  (∀ outcome', other machine outcome' → ∃ outcome, one machine outcome ∧
    machine.Alike outcome outcome')

namespace ForLoop

variable {pairing : Pairing} {scope scope' : Nat}

/-- A clause agrees with itself in scopes that meet. -/
theorem clause_agrees (meets : pairing.Meets scope scope') (form : Option Expr) :
    (clause form).Agrees pairing scope scope' Value.Mirrors (clause form) := by
  cases form with
  | none => exact .give (.bool true)
  | some form => exact Code.agrees (.expr form) ⟨meets, .inl trivial⟩

/-- A round is the same in scopes that meet, since the body declares nothing there. -/
theorem round_agrees {loop : ForLoop} (plain : loop.body.Plain)
    (meets : pairing.Meets scope scope') :
    loop.round.Agrees pairing scope scope' Flow.Mirrors loop.round := by
  refine (Code.agrees (.stmt loop.body) ⟨meets, .inl plain⟩).then fun grown flows => ?_
  cases flows with
  | next => exact (clause_agrees (meets.grows grown) loop.increment).then fun _ _ => .give .next
  | returned values => exact .give (.returned values)
  | broke => exact .give .broke

/-! ## The loop that the parser makes -/

/-- What the parser makes of the body and the increment. -/
def repeated (loop : ForLoop) : Stmt :=
  match loop.increment with
  | some step => .block loop.body.span [loop.body, .expression step.span step]
  | none => loop.body

/-- What the parser makes of all but the initializer. -/
def repetition (loop : ForLoop) (span separator : Span) : Stmt :=
  .while span (loop.condition.getD (.literal separator (.bool true))) loop.repeated

/-- The parser puts a block around the initializer, if there is one. -/
theorem parsed_eq (loop : ForLoop) (start separator : Span) :
    loop.parsed start separator = match loop.initializer with
      | some first =>
        .block (start.upTo loop.body.span) [first,
          loop.repetition (start.upTo loop.body.span) separator]
      | none => loop.repetition (start.upTo loop.body.span) separator := rfl

/-- A condition that is left out is true. -/
theorem ends_condition (condition : Option Expr) (separator : Span) :
    (Code.expr (condition.getD (.literal separator (.bool true)))).Ends = clause condition := by
  cases condition with
  | none => exact Code.ends_literal_bool separator true
  | some form => rfl

/-- Without an increment a round is the body. -/
theorem round_of_none {loop : ForLoop} (none : loop.increment = none) :
    loop.round = (Code.stmt loop.body).Ends := by
  unfold round
  rw [none]
  refine Eq.trans (congrArg _ (funext fun flow => ?_)) (Ending.then_give (Ending.proper_ends _))
  cases flow with
  | next => exact Ending.give_then _ _
  | returned | broke => rfl

/-- With an increment the parser puts a round in a block. -/
theorem ends_block_of_some {loop : ForLoop} {step : Expr} (some : loop.increment = some step)
    (around inside : Span) :
    (Code.stmt (.block around [loop.body, .expression inside step])).Ends =
      loop.round.inNewScope := by
  rw [Code.ends_block, Code.ends_stmts_pair, Code.ends_expression]
  unfold round
  rw [some]
  rfl

/-- What the parser makes of a round agrees with it. -/
theorem repeated_agrees {loop : ForLoop} (plain : loop.body.Plain)
    (meets : pairing.Meets scope scope') :
    Ending.Agrees pairing scope scope' Flow.Mirrors (Code.stmt loop.repeated).Ends loop.round := by
  unfold repeated
  split
  · rename_i step some
    rw [ends_block_of_some some]
    exact .skip meets fun grown blank => round_agrees plain (.left blank (meets.grows grown))
  · rename_i none
    rw [← round_of_none none]
    exact round_agrees plain meets

/-- What the parser makes of all but the initializer agrees with going through rounds. -/
theorem repetition_agrees {loop : ForLoop} (plain : loop.body.Plain)
    (meets : pairing.Meets scope scope')
    (span separator : Span) :
    Ending.Agrees pairing scope scope' Flow.Mirrors
      (Code.stmt (loop.repetition span separator)).Ends
      ((clause loop.condition).loop loop.round) := by
  rw [repetition, Code.ends_while, Code.ends_loop, ends_condition]
  exact .loop (fun grown => clause_agrees (meets.grows grown) _)
    fun grown => repeated_agrees plain (meets.grows grown)

/-- The statement that the parser makes agrees with the loop. -/
theorem parsed_agrees {loop : ForLoop} (plain : loop.body.Plain)
    (meets : pairing.Meets scope scope')
    (start separator : Span) :
    Ending.Agrees pairing scope scope' Flow.Mirrors (Code.stmt (loop.parsed start separator)).Ends
      loop.ending := by
  rw [parsed_eq]
  unfold ending ForLoop.start
  cases loop.initializer with
  | none =>
    dsimp only
    rw [Ending.give_then]
    -- The loop has a scope of its own, and the statement has none.
    exact .skip' meets fun grown blank =>
      repetition_agrees plain (.right blank (meets.grows grown)) _ _
  | some first =>
    dsimp only
    rw [Code.ends_block, Code.ends_stmts_pair]
    refine .pair meets fun grown paired => ?_
    refine (Code.agrees (.stmt first) ⟨.paired paired, .inr paired⟩).then fun grown' flows => ?_
    cases flows with
    | next => exact repetition_agrees plain (.paired (grown'.paired paired)) _ _
    | returned values => exact .give (.returned values)
    | broke => exact .give .broke

/-- On every intact machine the statement that the parser makes of a plain loop ends alike with the
loop. -/
theorem parsed_endsAlike {loop : ForLoop} (plain : loop.body.Plain) (start separator : Span)
    {machine : Machine} (intact : machine.Intact) :
    machine.EndsAlike (Code.stmt (loop.parsed start separator)).Ends loop.ending := by
  have meets : (Pairing.itself machine.heap.scopes.size).Meets machine.scope machine.scope :=
    .paired ⟨rfl, intact.scope⟩
  have agrees := parsed_agrees plain meets start separator
  constructor
  · intro outcome ends
    obtain ⟨later, direct, grown, ends', outcomes⟩ := agrees.forth intact.mirrors ends
    exact ⟨direct, ends', later, grown, outcomes⟩
  · intro direct ends
    obtain ⟨later, outcome, grown, ends', outcomes⟩ := agrees.back intact.mirrors ends
    exact ⟨outcome, ends', later, grown, outcomes⟩

/-- What the parser reads as a `for` statement it makes of a loop whose body it has read. -/
theorem forStatement_parsed (depth : Nat) (start : Span) :
    (Parse.forStatement depth start).FindsOnly fun stmt =>
      ∃ (loop : ForLoop) (separator : Span) (depth : Nat) (tokens rest : List Token),
        stmt = loop.parsed start separator ∧
          Parse.statement depth tokens = .ok (loop.body, rest) := by
  cases depth with
  | zero => exact .fail _
  | succ depth =>
    rw [Parse.forStatement_succ]
    refine .bind fun _ => .bind fun initializer => .bind fun condition => .bind fun separator => ?_
    refine .bind fun increment => .bind fun _ => ?_
    have found : (Parse.statement depth).FindsOnly fun body =>
        ∃ tokens rest, Parse.statement depth tokens = .ok (body, rest) :=
      fun tokens _ rest read => ⟨tokens, rest, read⟩
    refine found.then fun body ⟨tokens, rest, read⟩ => ?_
    exact .pure ⟨⟨initializer, condition, increment, body⟩, separator, depth, tokens, rest,
      rfl, read⟩

/-- On every intact machine the statement that the parser makes of a `for` statement, whose body it
has read, ends alike with the loop itself: each of the two ends as the other one does, if it ends at
all. -/
theorem desugars (loop : ForLoop) (start separator : Span) {depth : Nat} {tokens rest : List Token}
    (read : Parse.statement depth tokens = .ok (loop.body, rest)) {machine : Machine}
    (intact : machine.Intact) :
    (∀ outcome, (Code.stmt (loop.parsed start separator)).Ends machine outcome →
      ∃ direct, loop.ending machine direct ∧ machine.Alike outcome direct) ∧
    (∀ direct, loop.ending machine direct →
      ∃ outcome, (Code.stmt (loop.parsed start separator)).Ends machine outcome ∧
        machine.Alike outcome direct) := by
  have plain : loop.body.Plain := Parse.statement_plain depth read
  exact parsed_endsAlike plain start separator intact

/-- `for (nil; ; nil) break;` ends on a machine that has run nothing, and so does the loop
itself. -/
theorem desugars_break :
    ∃ (loop : ForLoop) (machine later : Machine) (direct : Outcome Flow),
      loop.initializer = some (.expression default (.literal default .nil)) ∧
      loop.increment = some (.literal default .nil) ∧
      Parse.statement 1 [⟨.keyword .break, "break", default⟩, ⟨.symbol .semicolon, ";", default⟩] =
        .ok (loop.body, []) ∧
      machine = .new {} (.captured "") {} {} ∧ machine.Intact ∧
      (Code.stmt (loop.parsed default default)).Ends machine (.done .next later) ∧
      loop.ending machine direct ∧ machine.Alike (.done .next later) direct := by
  let loop : ForLoop :=
    ⟨some (.expression default (.literal default .nil)), none, some (.literal default .nil),
      .break default⟩
  have read : Parse.statement 1
      [⟨.keyword .break, "break", default⟩, ⟨.symbol .semicolon, ";", default⟩] =
        .ok (loop.body, []) := rfl
  obtain ⟨machine, new, intact⟩ :
      ∃ machine : Machine, machine = .new {} (.captured "") {} {} ∧ machine.Intact :=
    ⟨_, rfl, Machine.intact_new ..⟩
  obtain ⟨later, ran⟩ :
      ∃ later, (Code.stmt (loop.parsed default default)).run 8 machine = .done .next later :=
    ⟨_, rfl⟩
  have ends := Code.Ends.of_run ran nofun
  obtain ⟨direct, ends', alike⟩ := (loop.desugars default default read intact).1 _ ends
  exact ⟨loop, machine, later, direct, rfl, rfl, read, new, intact, ends, ends', alike⟩

end ForLoop

/-- Wherever a session comes to what the parser has read as a `for` statement, that ends alike with
a loop. -/
theorem Session.Runs.forStatement_endsAlike {session : Session} (reached : session.Reachable)
    {depth : Nat} {start : Span} {tokens rest : List Token} {form : Stmt} {machine : Machine}
    (read : Parse.forStatement depth start tokens = .ok (form, rest))
    (runs : session.Runs (.stmt form) machine) :
    ∃ (loop : ForLoop) (separator : Span), form = loop.parsed start separator ∧
      machine.EndsAlike (Code.stmt form).Ends loop.ending := by
  obtain ⟨loop, separator, inner, before, after, rfl, body⟩ :=
    ForLoop.forStatement_parsed depth start read
  have plain : loop.body.Plain := Parse.statement_plain inner body
  have intact : machine.Intact := runs.intact reached
  exact ⟨loop, separator, rfl, ForLoop.parsed_endsAlike plain start separator intact⟩

end EventScript
