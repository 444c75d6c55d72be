import EventScript.Proofs.Syntax.Names

/-!
# Branches and declarations

A declaration is one of the statements of a block, of a function body or of the program. It is never
itself a branch of an `if` or the body of a loop, as statements are read there
(`Phrase.Reads.tidy`). So a branch declares nothing in the scope around it
(`Stmt.Tidy.check_scope`).
-/

namespace EventScript

/-- The statements that are run in the scope of the statement itself. -/
def Stmt.branches : Stmt → List Stmt
  | .conditional _ _ thenBranch elseBranch => thenBranch :: elseBranch.toList
  | .while _ _ body => [body]
  | _ => []

/-- No branch in the statement is a declaration, at whatever depth. -/
inductive Stmt.Tidy : Stmt → Prop where
  | intro {stmt : Stmt} (branches : ∀ branch ∈ stmt.branches, branch.declared? = none)
      (parts : ∀ part ∈ stmt.parts, Tidy part)
      (bodies : ∀ decl ∈ stmt.functions, ∀ inner ∈ decl.body, Tidy inner) : Tidy stmt

/-- The branches of a tidy statement declare nothing. -/
theorem Stmt.Tidy.branch {stmt branch : Stmt} (tidy : stmt.Tidy) (member : branch ∈ stmt.branches) :
    branch.declared? = none := by
  cases tidy with
  | intro branches => exact branches branch member

/-- The parts of a tidy statement are tidy. -/
theorem Stmt.Tidy.part {stmt part : Stmt} (tidy : stmt.Tidy) (member : part ∈ stmt.parts) :
    part.Tidy := by
  cases tidy with
  | intro _ parts => exact parts part member

/-- The bodies of the functions of a tidy statement are tidy. -/
theorem Stmt.Tidy.body {stmt inner : Stmt} {decl : FunctionDecl} (tidy : stmt.Tidy)
    (declared : decl ∈ stmt.functions) (member : inner ∈ decl.body) : inner.Tidy := by
  cases tidy with
  | intro _ _ bodies => exact bodies decl declared inner member

/-- A tidy statement that declares nothing itself leaves the scope as it is. -/
theorem Stmt.Tidy.check_scope {stmt : Stmt} (tidy : stmt.Tidy) (bare : stmt.declared? = none)
    (context : CodeContext) (scope : LocalScope) : (stmt.check context scope).1 = scope := by
  induction tidy generalizing context scope with
  | @intro stmt branches _ _ ih =>
    cases stmt with
    | letDecl | function | classDecl => contradiction
    | expression | print | block | «break» => rfl
    | «return» span value => cases value <;> rfl
    | «while» span condition body =>
      have member : body ∈ [body] := List.mem_cons_self
      exact ih body member (branches body member) _ scope
    | conditional span condition thenBranch elseBranch =>
      have first : thenBranch ∈ thenBranch :: elseBranch.toList := List.mem_cons_self
      have same := ih thenBranch first (branches thenBranch first) context scope
      cases elseBranch with
      | none => exact same
      | some branch =>
        have second : branch ∈ [thenBranch, branch] := List.mem_cons_of_mem _ List.mem_cons_self
        exact (ih branch second (branches branch second) context _).trans same

/-- After a tidy statement the scope has the name that it declares. -/
theorem Stmt.Tidy.check_names {form : Stmt} (tidy : form.Tidy) (context : CodeContext)
    (scope : LocalScope) :
    (form.check context scope).1 = scope.map (form.declared?.toList ++ ·) := by
  cases declared : form.declared? with
  | none =>
    refine (tidy.check_scope declared context scope).trans ?_
    cases scope <;> rfl
  | some name =>
    cases form with
    | letDecl span other initializer =>
      obtain rfl := Option.some.inj declared
      cases scope <;> cases initializer <;> rfl
    | function | classDecl =>
      obtain rfl := Option.some.inj declared
      cases scope <;> rfl
    | _ => contradiction

/-- Both are tidy and declare nothing, if the body of the loop and the first clause are tidy and the
body declares nothing. -/
theorem Parse.tidy_forLoop {start separator : Span} {initializer : Option Stmt}
    {condition increment : Option Expr} {body : Stmt} (first : ∀ stmt ∈ initializer, stmt.Tidy)
    (round : body.Tidy) (bare : body.declared? = none) :
    (Parse.forLoop start initializer condition separator increment body).Tidy ∧
      (Parse.forLoop start initializer condition separator increment body).declared? = none := by
  have pair : ∀ {span : Span} {first second : Stmt}, first.Tidy → second.Tidy →
      (Stmt.block span [first, second]).Tidy := by
    intro span first second head tail
    refine .intro (List.forall_mem_nil _) ?_ (List.forall_mem_nil _)
    simp only [Stmt.parts, List.mem_cons, List.not_mem_nil, or_false]
    rintro part (rfl | rfl)
    · exact head
    · exact tail
  have loop : ∀ {span : Span} {condition : Expr} {round : Stmt}, round.Tidy →
      round.declared? = none → (Stmt.while span condition round).Tidy := by
    intro span condition round tidy bare
    refine .intro (fun branch member => ?_) (fun part member => ?_) (List.forall_mem_nil _)
    · rw [List.mem_singleton.mp member]
      exact bare
    · rw [List.mem_singleton.mp member]
      exact tidy
  unfold Parse.forLoop
  cases increment with
  | none =>
    cases initializer with
    | none => exact ⟨loop round bare, rfl⟩
    | some stmt => exact ⟨pair (first stmt rfl) (loop round bare), rfl⟩
  | some value =>
    have onward : (Stmt.expression value.span value).Tidy :=
      .intro (List.forall_mem_nil _) (List.forall_mem_nil _) (List.forall_mem_nil _)
    cases initializer with
    | none => exact ⟨loop (pair round onward) rfl, rfl⟩
    | some stmt => exact ⟨pair (first stmt rfl) (loop (pair round onward) rfl), rfl⟩

/-- No branch in the phrase is a declaration, and no statement in its own right is one. -/
def Phrase.Tidy : Phrase → Prop
  | .letDecl stmt | .declaration stmt => stmt.Tidy
  | .statement _ stmt => stmt.Tidy ∧ stmt.declared? = none
  | .clause initializer => ∀ stmt ∈ initializer, stmt.Tidy
  | .declarations body => ∀ stmt ∈ body, stmt.Tidy
  | .function decl => ∀ stmt ∈ decl.body, stmt.Tidy
  | .methods decls => ∀ decl ∈ decls, ∀ stmt ∈ decl.body, stmt.Tidy
  | _ => True

/-- Whatever is read is tidy. -/
theorem Phrase.Reads.tidy {phrase : Phrase} {words : List TokenKind} (reads : phrase.Reads words) :
    phrase.Tidy := by
  induction reads with
  | super | group | atom | primary | applied | get | call | prefixed | tightest | tighter | operand
  | joined | level | assign | set | noArguments | argument | moreArguments | absent | present =>
    trivial
  | letBare | letValue => exact .intro nofun nofun nofun
  | noClause | noDeclarations | noMethods => exact nofun
  | letClause _ ih => exact fun stmt member => Option.some.inj member ▸ ih
  | expressionClause =>
    exact fun stmt member => Option.some.inj member ▸ .intro nofun nofun nofun
  | expression | print | «return» | «break» => exact ⟨.intro nofun nofun nofun, rfl⟩
  | block _ ih => exact ⟨.intro nofun ih nofun, rfl⟩
  | «while» _ _ _ ih =>
    refine ⟨.intro (fun branch member => ?_) (fun part member => ?_) nofun, rfl⟩
    · rw [List.mem_singleton.mp member]
      exact ih.2
    · rw [List.mem_singleton.mp member]
      exact ih.1
  | «for» _ _ _ _ clause _ _ ih => exact Parse.tidy_forLoop clause ih.1 ih.2
  | «if» _ _ _ ih =>
    refine ⟨.intro (fun branch member => ?_) (fun part member => ?_) nofun, rfl⟩
    · rw [List.mem_singleton.mp member]
      exact ih.2
    · rw [List.mem_singleton.mp member]
      exact ih.1
  | @ifElse _ _ _ thenBranch elseBranch _ _ _ _ _ _ _ first second =>
    have both : ∀ branch ∈ [thenBranch, elseBranch], branch.Tidy ∧ branch.declared? = none :=
      List.forall_mem_cons.mpr ⟨first, List.forall_mem_singleton.mpr second⟩
    have branches := fun branch member => (both branch member).2
    have parts := fun part member => (both part member).1
    exact ⟨.intro branches parts nofun, rfl⟩
  | classDecl _ ih => exact .intro nofun nofun ih
  | funDecl _ ih => exact .intro nofun nofun (List.forall_mem_singleton.mpr ih)
  | letDecl _ ih => exact ih
  | statement _ ih => exact ih.1
  | moreDeclarations _ _ head tail => exact List.forall_mem_cons.mpr ⟨head, tail⟩
  | function _ _ ih => exact ih
  | moreMethods _ _ head tail => exact List.forall_mem_cons.mpr ⟨head, tail⟩

/-- Whatever is read from a text is tidy. -/
theorem Program.tidy_of_ofText {source : String} {program : Program}
    (found : Program.ofText source = .ok program) : ∀ stmt ∈ program, stmt.Tidy :=
  (Program.reads_words found).1.tidy

end EventScript
