import EventScript.Syntax

/-!
# Sites in a program

A program is a tree of statements, functions, parameters and expressions. A site is a node of that
tree together with all that is around it, so a rule about where something may stand is a property of
sites. The sites inside one are the site itself and those inside its children (`Site.inside_iff`),
and no site is inside two of these (`Site.not_inside_of_among`).
-/

namespace EventScript

/-- What a program is made of. -/
inductive Node where
  | program (body : List Stmt)
  | stmt (form : Stmt)
  /-- What a `fun` declaration declares. -/
  | function (decl : FunctionDecl)
  /-- What a class declares. -/
  | method (decl : FunctionDecl)
  | parameter (parameter : Parameter)
  | expr (value : Expr)

/-- What a node directly consists of, in an order in which statements and parameters stand as
written. -/
def Node.children : Node → List Node
  | .program body => body.map .stmt
  | .stmt form =>
    match form with
    | .letDecl _ _ initializer => initializer.toList.map .expr
    | .function _ decl => [.function decl]
    | .classDecl _ _ _ methods => methods.map .method
    | .expression _ value | .print _ value => [.expr value]
    | .block _ body => body.map .stmt
    | .conditional _ condition thenBranch elseBranch =>
      .expr condition :: .stmt thenBranch :: elseBranch.toList.map .stmt
    | .while _ condition body => [.expr condition, .stmt body]
    | .return _ value => value.toList.map .expr
    | .break _ => []
  | .function decl | .method decl => decl.parameters.map .parameter ++ decl.body.map .stmt
  | .parameter _ => []
  | .expr value =>
    match value with
    | .literal .. | .variable .. | .this _ | .super .. => []
    | .assign _ _ value => [.expr value]
    | .binary _ _ left right | .logical _ _ left right => [.expr left, .expr right]
    | .unary _ _ operand => [.expr operand]
    | .call _ callee arguments => .expr callee :: arguments.map .expr
    | .get _ object _ => [.expr object]
    | .set _ object _ value => [.expr object, .expr value]
    | .group _ inner => [.expr inner]

/-- A node, and its position among the children of the node around it. -/
structure Step where
  position : Nat
  node : Node

/-- A node with its position, then those of the node around it, and so on outward. -/
abbrev Site := List Step

/-- The site is the outer one or stands somewhere inside it. -/
inductive Site.Inside (outer : Site) : Site → Prop where
  | here : Inside outer outer
  | child {step : Step} {around : Site} {position : Nat} {node : Node}
      (inside : Inside outer (step :: around))
      (stands : step.node.children[position]? = some node) :
      Inside outer (⟨position, node⟩ :: step :: around)

/-- The site stands inside one of the nodes, which are the children from that position on. -/
def Site.Among (around : Site) (position : Nat) (nodes : List Node) (site : Site) : Prop :=
  ∃ (skipped : Nat) (node : Node), nodes[skipped]? = some node ∧
    Site.Inside (⟨position + skipped, node⟩ :: around) site

/-- The sites of a program. -/
def Program.Has (program : Program) (site : Site) : Prop :=
  Site.Inside [⟨0, .program program⟩] site

namespace Site

variable {outer site around : Site}

/-- The outer site is what the inner one ends with. -/
theorem Inside.suffix (inside : outer.Inside site) : outer <:+ site := by
  induction inside with
  | here => exact List.suffix_rfl
  | child _ _ ih => exact ih.trans (List.suffix_cons ..)

/-- A site stands inside at most one of the nodes at a depth. -/
theorem Inside.unique {first second : Step} (left : Inside (first :: around) site)
    (right : Inside (second :: around) site) : first = second :=
  have same :=
    (List.suffix_of_suffix_length_le left.suffix right.suffix (Nat.le_refl _)).eq_of_length rfl
  (List.cons.inj same).1

/-- A site inside a site that is inside another is inside that. -/
theorem Inside.trans {inner : Site} (left : outer.Inside inner) (right : inner.Inside site) :
    outer.Inside site := by
  induction right with
  | here => exact left
  | child _ stands ih => exact .child ih stands

/-- What stands inside a site is the site itself, or stands inside one of its children. -/
theorem inside_iff {step : Step} :
    Inside (step :: around) site ↔
      site = step :: around ∨ Among (step :: around) 0 step.node.children site := by
  refine ⟨fun inside => ?_, fun either => ?_⟩
  · induction inside with
    | here => exact .inl rfl
    | child inside stands ih =>
      rcases ih with same | ⟨skipped, node, first, within⟩
      · obtain ⟨rfl, rfl⟩ := List.cons.inj same
        exact .inr ⟨_, _, stands, by rw [Nat.zero_add]; exact .here⟩
      · exact .inr ⟨skipped, node, first, .child within stands⟩
  · rcases either with rfl | ⟨skipped, node, first, within⟩
    · exact .here
    · rw [Nat.zero_add] at within
      exact Inside.trans (.child .here first) within

/-- Nothing is among no nodes. -/
theorem among_nil {position : Nat} : ¬Among around position [] site := by
  rintro ⟨skipped, node, stands, -⟩
  contradiction

/-- What stands among nodes stands inside the first one or among the others. -/
theorem among_cons {position : Nat} {node : Node} {rest : List Node} :
    Among around position (node :: rest) site ↔
      Inside (⟨position, node⟩ :: around) site ∨ Among around (position + 1) rest site := by
  constructor
  · rintro ⟨skipped, other, stands, inside⟩
    cases skipped with
    | zero =>
      obtain rfl := Option.some.inj stands
      exact .inl inside
    | succ skipped =>
      rw [← Nat.add_assoc, Nat.add_right_comm] at inside
      exact .inr ⟨skipped, other, stands, inside⟩
  · rintro (inside | ⟨skipped, other, stands, inside⟩)
    · exact ⟨0, node, rfl, inside⟩
    · rw [Nat.add_right_comm] at inside
      exact ⟨skipped + 1, other, stands, inside⟩

/-- No site stands inside a node and among later ones. -/
theorem not_inside_of_among {position : Nat} {node : Node} {rest : List Node}
    (among : Among around (position + 1) rest site) :
    ¬Inside (⟨position, node⟩ :: around) site := by
  obtain ⟨skipped, other, -, inside⟩ := among
  intro within
  have same := congrArg Step.position (within.unique inside)
  simp only at same
  omega

/-- A site does not stand among its own children. -/
theorem ne_of_among {position : Nat} {nodes : List Node}
    (among : Among around position nodes site) :
    site ≠ around := by
  obtain ⟨skipped, node, -, inside⟩ := among
  rintro rfl
  exact absurd inside.suffix.length_le (Nat.not_succ_le_self _)

end Site

end EventScript
