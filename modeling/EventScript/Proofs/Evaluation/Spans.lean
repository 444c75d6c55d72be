import EventScript.Proofs.Evaluation.CallSites
import EventScript.Proofs.Evaluation.Disciplined
import EventScript.Proofs.Evaluation.Stable
import EventScript.Proofs.Resolution.Inheritance
import EventScript.Proofs.Syntax.Extent

/-!
# The spans of code that is run

All code that is run was read somewhere, so its spans are those of a text that was read. This is an
invariant of evaluation, since values keep the functions that they were made from: if all spans of
the program and of the functions around have a property, so have those of all code that evaluation
comes to (`spanDiscipline_lawful`), and operations are begun at such spans only
(`beginsAt_of_ownSpans`).
-/

namespace EventScript

open Run

variable {property : Span → Prop}

/-- All spans in the methods of the class, its own and those of its ancestors, have the property. -/
def Class.AllSpans (property : Span → Prop) (cls : Class) : Prop :=
  ∀ body ∈ cls.lineage, body.methods.All (FunctionDecl.AllSpans property)

/-- All spans in the code that the value may run have the property. -/
inductive Value.AllSpans (property : Span → Prop) : Value → Prop where
  | data {value : Value} (plain : value.isPlain = true) : AllSpans property value
  | function {closure : Closure} (identity : Nat) (decl : closure.decl.AllSpans property)
      (home : ∀ owner ∈ closure.home, owner.AllSpans property) :
      AllSpans property (.function identity closure)
  | method {receiver : Value} {method : Method} (identity : Nat)
      (receives : AllSpans property receiver)
      (owner : method.owner.AllSpans property) (decl : method.decl.AllSpans property) :
      AllSpans property (.method identity receiver method)
  | classObject {cls : Class} (methods : cls.AllSpans property) :
      AllSpans property (.classObject cls)
  | builtin (identity : Nat) (builtin : Builtin) (receiver : Option Value) :
      AllSpans property (.builtin identity builtin receiver)

/-- All spans in the code that the activation may run have the property. -/
structure Activation.AllSpans (property : Span → Prop) (called : Activation) : Prop where
  decl : called.decl.AllSpans property
  receiver : ∀ value ∈ called.receiver, value.AllSpans property
  home : ∀ owner ∈ called.home, owner.AllSpans property

/-- All spans of a class value are those of the class. -/
theorem Value.AllSpans.cls {cls : Class} (all : (Value.classObject cls).AllSpans property) :
    cls.AllSpans property := by
  cases all with
  | data plain => contradiction
  | classObject methods => exact methods

/-- The object is bound, and the class of the method stays what it is. -/
theorem Activation.AllSpans.ofMethod {receiver : Value} {method : Method}
    (receives : receiver.AllSpans property)
    (all : method.owner.AllSpans property ∧ method.decl.AllSpans property) :
    (Activation.ofMethod receiver method).AllSpans property where
  decl := all.2
  receiver _ member := Option.some.inj member ▸ receives
  home _ member := Option.some.inj member ▸ all.1

/-- All code that is run, and all that values may run, has only spans with the property. -/
def spanDiscipline (property : Span → Prop) : Discipline where
  Place := Unit
  holds _ value := value.AllSpans property
  grows _ _ := True
  expr _ form := form.AllSpans property
  stmt _ form := form.AllSpans property
  around _ _ home _ := ∀ owner ∈ home, owner.AllSpans property
  calls _ called := called.AllSpans property
  names _ := True
  occurs _ := True

/-- Evaluation comes only to code that was read. -/
theorem spanDiscipline_lawful (property : Span → Prop) : (spanDiscipline property).Lawful where
  grows_trans _ _ := trivial
  grows_of_keeps _ := trivial
  grows_define _ _ _ _ := trivial
  grows_newScope _ _ := trivial
  grows_start _ _ _ := trivial
  holds_grows all _ := all
  around_grows all _ := all
  calls_grows all _ := all
  plain _ _ plain := .data plain
  global _ _ := .builtin ..
  builtin _ _ _ := .builtin ..
  bareClass _ _ _ _ := .classObject (List.forall_mem_singleton.mpr OrderedMap.all_empty)
  expr_part := by
    intro _ expr part all member
    cases all with
    | intro _ parts => exact parts part member
  expr_assigned _ _ := trivial
  stmt_expr := by
    intro _ stmt expr all member
    cases all with
    | intro _ _ exprs => exact exprs expr member
  stmt_part := by
    intro _ stmt part all member
    cases all with
    | intro _ _ _ parts => exact parts part member
  stmt_declared _ _ := trivial
  method _ all found :=
    have ⟨owner, decl⟩ := Class.AllMethods.findMethod? (Value.AllSpans.cls all) found
    .method _ (.data rfl) owner decl
  super identity good around _ superclass this found := by
    obtain ⟨owner, home, inherits⟩ := Option.bind_eq_some_iff.mp superclass
    have above := Class.AllMethods.superclass (around owner home) inherits
    obtain ⟨parent, decl⟩ := above.findMethod? found
    exact .method identity (good.heap.lookup? this) parent decl
  closure := by
    intro machine _ span decl identity around all
    cases all with
    | intro _ _ _ _ functions bodies =>
      exact .function identity ⟨functions decl List.mem_cons_self,
        bodies decl List.mem_cons_self⟩ around
  made := by
    intro machine later _ span name superclass methods parent cls all _ _ inherited makes
    cases all with
    | intro _ _ _ _ functions bodies =>
      obtain ⟨cls, rfl, methods⟩ := Class.allMethods_of_makes
        (fun decl member => ⟨functions decl member, bodies decl member⟩)
        (fun ancestor member => Value.AllSpans.cls (inherited ancestor member)) makes
      exact .classObject methods
  block around := around
  calls_function := by
    intro _ _ closure all
    cases all with
    | data plain => contradiction
    | function _ decl home =>
      exact ⟨decl, fun _ member => absurd member (Option.not_mem_none _), home⟩
  calls_method := by
    intro _ _ receiver method all
    cases all with
    | data plain => contradiction
    | method _ receives owner decl => exact .ofMethod receives ⟨owner, decl⟩
  calls_initializer all found :=
    .ofMethod (.data rfl) (Class.AllMethods.findMethod? (Value.AllSpans.cls all) found)
  receiver all := all.receiver
  body all _ _ := ⟨(), all.home, all.decl.body⟩

/-- The spans that the code itself goes by have the property: that of an expression and that of the
superclass that a declaration names. -/
def Code.OwnSpans (property : Span → Prop) {kind : ResultKind} : Code kind → Prop
  | .expr form => property form.span
  | .stmt form => ∀ named ∈ form.superclass?, property named.span
  | _ => True

/-- Code that may be run has spans with the property. -/
theorem ownSpans_of_fits {kind : ResultKind} {code : Code kind} {machine : Machine}
    (fits : (spanDiscipline property).Fits machine code) : code.OwnSpans property := by
  cases code with
  | expr form =>
    obtain ⟨_, _, all⟩ := fits
    exact all.span
  | stmt form =>
    obtain ⟨_, _, all⟩ := fits
    cases all with
    | intro _ superclass => exact superclass
  | _ => trivial

/-- Operations are begun only where a call expression stands, and where the code itself begins
them. -/
theorem beginsAt_of_ownSpans {bound : Nat} {kind : ResultKind} {code : Code kind}
    {machine : Machine}
    (own : ∀ occasion ∈ code.trace bound machine, occasion.code.OwnSpans property)
    (root : ∀ span, code.sites span → property span) :
    BeginsAt property (code.trace bound machine) := by
  rintro ⟨inner, reached⟩ member span site
  rcases (Code.mem_trace.mp member).written with same | written
  · obtain ⟨rfl, same, -⟩ := Occasion.mk.inj same
    exact root span (eq_of_heq same ▸ site)
  · cases inner with
    | call callee arguments _ =>
      obtain ⟨function, forms, before, _, visits, -⟩ := written
      obtain ⟨-, rfl⟩ := site
      exact own ⟨_, before⟩ (Code.mem_trace.mpr visits)
    | _ => cases site

end EventScript
