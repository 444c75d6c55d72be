import EventScript.Proofs.Resolution.Accepted
import EventScript.Proofs.Syntax.RoundTrip
import EventScript.Session

/-!
# Names that code leaves alone

Code spares a name when nothing in it assigns to a variable of that name or declares one. All names
that a program binds are words of its text (`Phrase.Reads.spares`), and no word is both a name and
reserved. So whatever is accepted spares `this` (`Program.spares_this`), and only calling a method
binds it.
-/

namespace EventScript

/-- No variable of that name is assigned to in the expression. -/
inductive Expr.Spares (name : String) : Expr → Prop where
  | intro {expr : Expr} (assigned : expr.assigned? ≠ some name)
      (parts : ∀ part ∈ expr.parts, Spares name part) : Spares name expr

/-- No variable of that name is declared or assigned to in the statement. -/
inductive Stmt.Spares (name : String) : Stmt → Prop where
  | intro {stmt : Stmt} (declared : stmt.declared? ≠ some name)
      (exprs : ∀ expr ∈ stmt.exprs, expr.Spares name)
      (parts : ∀ part ∈ stmt.parts, Spares name part)
      (parameters : ∀ decl ∈ stmt.functions, ∀ parameter ∈ decl.parameters, parameter.name ≠ name)
      (bodies : ∀ decl ∈ stmt.functions, ∀ inner ∈ decl.body, Spares name inner) :
      Spares name stmt

/-- No variable of that name is declared or assigned to in the function. -/
structure FunctionDecl.Spares (name : String) (decl : FunctionDecl) : Prop where
  parameters : ∀ parameter ∈ decl.parameters, parameter.name ≠ name
  body : ∀ stmt ∈ decl.body, stmt.Spares name

variable {name : String}

/-- An expression that spares a name does not assign to it. -/
theorem Expr.Spares.assigned {expr : Expr} (spares : expr.Spares name) :
    expr.assigned? ≠ some name := by
  cases spares with
  | intro assigned => exact assigned

/-- The parts of an expression spare the names that it does. -/
theorem Expr.Spares.part {expr part : Expr} (spares : expr.Spares name)
    (member : part ∈ expr.parts) :
    part.Spares name := by
  cases spares with
  | intro _ parts => exact parts part member

/-- A statement that spares a name does not declare it. -/
theorem Stmt.Spares.declared {stmt : Stmt} (spares : stmt.Spares name) :
    stmt.declared? ≠ some name := by
  cases spares with
  | intro declared => exact declared

/-- The expressions of a statement spare the names that it does. -/
theorem Stmt.Spares.expr {stmt : Stmt} {expr : Expr} (spares : stmt.Spares name)
    (member : expr ∈ stmt.exprs) : expr.Spares name := by
  cases spares with
  | intro _ exprs => exact exprs expr member

/-- The parts of a statement spare the names that it does. -/
theorem Stmt.Spares.part {stmt part : Stmt} (spares : stmt.Spares name)
    (member : part ∈ stmt.parts) :
    part.Spares name := by
  cases spares with
  | intro _ _ parts => exact parts part member

/-- The functions of a statement spare the names that it does. -/
theorem Stmt.Spares.function {stmt : Stmt} {decl : FunctionDecl} (spares : stmt.Spares name)
    (member : decl ∈ stmt.functions) : decl.Spares name := by
  cases spares with
  | intro _ _ _ parameters bodies => exact ⟨parameters decl member, bodies decl member⟩

/-- A statement that declares nothing spares a name if its expressions and statements do. -/
theorem Stmt.Spares.of_plain {stmt : Stmt} (declared : stmt.declared? = none)
    (functions : stmt.functions = []) (exprs : ∀ expr ∈ stmt.exprs, expr.Spares name)
    (parts : ∀ part ∈ stmt.parts, part.Spares name) : stmt.Spares name := by
  refine .intro ?_ exprs parts ?_ ?_
  · rw [declared]
    exact nofun
  · rw [functions]
    exact nofun
  · rw [functions]
    exact nofun

/-- A loop written with `for` spares what the parts written spare. -/
theorem Parse.spares_forLoop {start separator : Span} {initializer : Option Stmt}
    {condition increment : Option Expr} {body : Stmt}
    (first : ∀ stmt ∈ initializer, stmt.Spares name)
    (test : ∀ expr ∈ condition, expr.Spares name) (step : ∀ expr ∈ increment, expr.Spares name)
    (round : body.Spares name) :
    (Parse.forLoop start initializer condition separator increment body).Spares name := by
  have pair : ∀ {span : Span} {first second : Stmt}, first.Spares name → second.Spares name →
      (Stmt.block span [first, second]).Spares name := by
    intro span first second head tail
    refine .of_plain rfl rfl nofun ?_
    simp only [Stmt.parts, List.mem_cons, List.not_mem_nil, or_false]
    rintro part (rfl | rfl)
    · exact head
    · exact tail
  have loop : ∀ {span : Span} {condition : Expr} {round : Stmt}, condition.Spares name →
      round.Spares name → (Stmt.while span condition round).Spares name := by
    intro span condition round head tail
    refine .of_plain rfl rfl ?_ ?_
    · exact fun expr member => List.mem_singleton.mp member ▸ head
    · exact fun part member => List.mem_singleton.mp member ▸ tail
  have head : (condition.getD (.literal separator (.bool true))).Spares name := by
    cases condition with
    | none => exact .intro nofun nofun
    | some value => exact test value rfl
  unfold Parse.forLoop
  cases increment with
  | none =>
    cases initializer with
    | none => exact loop head round
    | some stmt => exact pair (first stmt rfl) (loop head round)
  | some value =>
    have onward : (Stmt.expression value.span value).Spares name :=
      .of_plain rfl rfl (fun expr member => List.mem_singleton.mp member ▸ step value rfl) nofun
    cases initializer with
    | none => exact loop head (pair round onward)
    | some stmt => exact pair (first stmt rfl) (loop head (pair round onward))

/-- No variable of that name is declared or assigned to in the phrase. -/
def Phrase.Spares (name : String) : Phrase → Prop
  | .primary value | .call value | .unary value | .operand _ value | .level _ value
  | .expression value => value.Spares name
  | .arguments values => ∀ value ∈ values, value.Spares name
  | .optional value => ∀ expr ∈ value, expr.Spares name
  | .letDecl stmt | .statement _ stmt | .declaration stmt => stmt.Spares name
  | .clause initializer => ∀ stmt ∈ initializer, stmt.Spares name
  | .declarations body => ∀ stmt ∈ body, stmt.Spares name
  | .function decl => decl.name ≠ name ∧ decl.Spares name
  | .methods decls => ∀ decl ∈ decls, decl.Spares name

/-- The names of parameters are among their words. -/
theorem mem_parameterWords {parameters : List Parameter} :
    ∀ parameter ∈ parameters, .identifier parameter.name ∈ parameterWords parameters := by
  induction parameters with
  | nil => exact nofun
  | cons first rest ih =>
    intro parameter member
    cases rest with
    | nil =>
      rw [List.mem_singleton.mp member]
      exact List.mem_cons_self
    | cons next others =>
      rcases List.mem_cons.mp member with rfl | later
      · exact List.mem_cons_self
      · exact List.mem_cons_of_mem _ (List.mem_cons_of_mem _ (ih parameter later))

/-- Whatever a phrase declares or assigns to is a word of it. -/
theorem Phrase.Reads.spares {phrase : Phrase} {words : List TokenKind} (reads : phrase.Reads words)
    (absent : .identifier name ∉ words) : phrase.Spares name := by
  have single : ∀ {expr value : Expr}, expr.Spares name → value ∈ [expr] → value.Spares name :=
    fun spares member => List.mem_singleton.mp member ▸ spares
  have pair : ∀ {left right value : Expr}, left.Spares name → right.Spares name →
      value ∈ [left, right] → value.Spares name := by
    intro left right value head tail member
    rcases List.mem_cons.mp member with rfl | last
    · exact head
    · exact single tail last
  -- The words of a part are words of the whole, so the name is absent from them too.
  induction reads with
  | super => exact .intro nofun nofun
  | atom alone =>
    unfold Parse.atom? at alone
    split at alone <;> cases alone <;> exact .intro nofun nofun
  | primary _ ih | call _ ih | tightest _ _ ih | tighter _ _ ih | operand _ ih | level _ ih
  | letDecl _ ih | statement _ ih => exact ih absent
  | group _ ih =>
    simp only [List.mem_cons, List.mem_append, not_or] at absent
    exact .intro nofun fun _ => single (ih absent.2.1)
  | applied _ _ _ head tail =>
    simp only [List.mem_append, List.mem_cons, not_or] at absent
    refine .intro nofun fun part member => ?_
    rcases List.mem_cons.mp member with rfl | argument
    · exact head absent.1
    · exact tail absent.2.2.1 part argument
  | get _ ih =>
    rw [List.mem_append, not_or] at absent
    exact .intro nofun fun _ => single (ih absent.1)
  | prefixed _ _ ih =>
    rw [List.mem_cons, not_or] at absent
    exact .intro nofun fun _ => single (ih absent.2)
  | @joined _ _ _ _ connective _ _ _ _ _ head tail =>
    simp only [List.mem_append, List.mem_cons, not_or] at absent
    cases connective <;>
      exact .intro nofun fun _ => pair (head absent.1) (tail absent.2.2)
  | @assign _ target _ _ _ ih =>
    simp only [List.mem_cons, not_or] at absent
    refine .intro ?_ fun _ => single (ih absent.2.2)
    intro same
    exact absent.1 (congrArg TokenKind.identifier (Option.some.inj same).symm)
  | set _ _ head tail =>
    simp only [List.mem_append, List.mem_cons, not_or] at absent
    exact .intro nofun fun _ => pair (head absent.1) (tail absent.2.2.2.2)
  | noArguments | absent | noClause | noDeclarations | noMethods => exact nofun
  | argument _ ih => exact fun _ => single (ih absent)
  | moreArguments _ _ head tail =>
    simp only [List.mem_append, List.mem_cons, not_or] at absent
    intro value member
    rcases List.mem_cons.mp member with rfl | later
    · exact head absent.1
    · exact tail absent.2.2 value later
  | present _ ih => exact fun expr member => Option.some.inj member ▸ ih absent
  | @letBare _ target =>
    simp only [List.mem_cons, not_or] at absent
    refine .intro ?_ nofun nofun nofun nofun
    exact fun same => absent.2.1 (congrArg TokenKind.identifier (Option.some.inj same).symm)
  | @letValue _ target _ _ _ ih =>
    simp only [List.mem_cons, List.mem_append, not_or] at absent
    refine .intro ?_ (fun _ => single (ih absent.2.2.2.1)) nofun nofun nofun
    exact fun same => absent.2.1 (congrArg TokenKind.identifier (Option.some.inj same).symm)
  | letClause _ ih => exact fun stmt member => Option.some.inj member ▸ ih absent
  | expressionClause _ ih =>
    rw [List.mem_append, not_or] at absent
    intro stmt member
    rw [← Option.some.inj member]
    exact .of_plain rfl rfl (fun _ => single (ih absent.1)) nofun
  | expression _ ih =>
    rw [List.mem_append, not_or] at absent
    exact .of_plain rfl rfl (fun _ => single (ih absent.1)) nofun
  | print _ ih =>
    simp only [List.mem_cons, List.mem_append, not_or] at absent
    exact .of_plain rfl rfl (fun _ => single (ih absent.2.1)) nofun
  | «return» _ ih =>
    simp only [List.mem_cons, List.mem_append, not_or] at absent
    exact .of_plain rfl rfl (fun expr member => ih absent.2.1 expr (Option.mem_toList.mp member))
      nofun
  | «break» => exact .of_plain rfl rfl nofun nofun
  | block _ ih =>
    simp only [List.mem_cons, List.mem_append, not_or] at absent
    exact .of_plain rfl rfl nofun (ih absent.2.1)
  | «while» _ _ head tail =>
    simp only [List.mem_cons, List.mem_append, not_or] at absent
    refine .of_plain rfl rfl (fun _ => single (head absent.2.2.1)) fun stmt member => ?_
    rw [List.mem_singleton.mp member]
    exact tail absent.2.2.2.2
  | «for» _ _ _ _ first second third tail =>
    simp only [List.mem_cons, List.mem_append, not_or] at absent
    obtain ⟨-, -, inFirst, inSecond, -, inThird, -, inTail⟩ := absent
    exact Parse.spares_forLoop (first inFirst) (second inSecond) (third inThird) (tail inTail)
  | «if» _ _ head tail =>
    simp only [List.mem_cons, List.mem_append, not_or] at absent
    refine .of_plain rfl rfl (fun _ => single (head absent.2.2.1)) fun stmt member => ?_
    rw [List.mem_singleton.mp member]
    exact tail absent.2.2.2.2
  | ifElse _ _ _ head first second =>
    simp only [List.mem_cons, List.mem_append, not_or] at absent
    obtain ⟨-, -, inHead, -, inFirst, -, inSecond⟩ := absent
    refine .of_plain rfl rfl (fun _ => single (head inHead)) fun stmt member => ?_
    rcases List.mem_cons.mp member with rfl | last
    · exact first inFirst
    · rw [List.mem_singleton.mp last]
      exact second inSecond
  | @classDecl _ target _ decls _ _ ih =>
    simp only [List.mem_cons, List.mem_append, not_or] at absent
    obtain ⟨-, named, -, -, inside, -⟩ := absent
    have parameters := fun decl member => (ih inside decl member).parameters
    have bodies := fun decl member => (ih inside decl member).body
    refine .intro ?_ nofun nofun parameters bodies
    exact fun same => named (congrArg TokenKind.identifier (Option.some.inj same).symm)
  | @funDecl _ decl _ _ ih =>
    rw [List.mem_cons, not_or] at absent
    obtain ⟨named, spares⟩ := ih absent.2
    have same : ∀ other ∈ [decl], other.Spares name := fun other member =>
      List.mem_singleton.mp member ▸ spares
    have parameters := fun other member => (same other member).parameters
    have bodies := fun other member => (same other member).body
    refine .intro ?_ nofun nofun parameters bodies
    exact fun declared => named (Option.some.inj declared)
  | moreDeclarations _ _ head tail =>
    rw [List.mem_append, not_or] at absent
    intro stmt member
    rcases List.mem_cons.mp member with rfl | later
    · exact head absent.1
    · exact tail absent.2 stmt later
  | @function _ parameters _ _ _ _ _ ih =>
    simp only [List.mem_cons, List.mem_append, not_or] at absent
    obtain ⟨named, -, inParameters, -, -, inside, -⟩ := absent
    refine ⟨fun same => named (congrArg TokenKind.identifier same.symm), ?_, ih inside⟩
    intro parameter member same
    have word := mem_parameterWords parameter member
    rw [same] at word
    exact inParameters word
  | moreMethods _ _ head tail =>
    rw [List.mem_append, not_or] at absent
    intro decl member
    rcases List.mem_cons.mp member with rfl | later
    · exact (head absent.1).2
    · exact tail absent.2 decl later

/-- No word of a text is both a name and reserved. -/
theorem Token.Lexeme.ne_spelling {lexeme : List Char}
    (form : Token.Lexeme (.identifier name) lexeme)
    (keyword : Keyword) : name ≠ keyword.spelling := by
  cases form with
  | identifier _ _ free => exact fun same => free keyword same.symm

/-- Nothing in an accepted program declares `this` or assigns to it: the word is reserved. -/
theorem Program.spares_this {source : String} {program : Program}
    (accepted : Program.accept source = .ok program) : ∀ stmt ∈ program, stmt.Spares "this" := by
  obtain ⟨reads, written⟩ := Program.reads_words (Program.accept_iff.mp accepted).1
  have absent : .identifier "this" ∉ program.words := by
    intro member
    obtain ⟨lexeme, form⟩ := written _ member
    exact form.ne_spelling .this rfl
  exact reads.spares absent

end EventScript
