import EventScript.Proofs.Evaluation.Disciplined
import EventScript.Proofs.Resolution.Accepted
import EventScript.Proofs.Resolution.Inheritance

/-!
# The programs that code stems from

All code that is run stands in the text of some program: one that is run now, or one that was run
before and has left functions behind. Let only some programs be admitted. A value stems from them
when the functions and methods that it may run are declared in them, functions as functions and
methods as methods of a class. This is an invariant of evaluation (`stemDiscipline_lawful`), so
whatever the programs have in common holds of all code that is run.
-/

namespace EventScript

open Run

/-- The statement stands in the program, at whatever depth. -/
inductive Program.Encloses (program : Program) : Stmt → Prop where
  | top {form : Stmt} (member : form ∈ program) : Encloses program form
  | part {form part : Stmt} (encloses : Encloses program form) (member : part ∈ form.parts) :
      Encloses program part
  | body {form inner : Stmt} {decl : FunctionDecl} (encloses : Encloses program form)
      (declared : decl ∈ form.functions) (member : inner ∈ decl.body) : Encloses program inner

/-- All that stands in a program without violations is accepted. -/
theorem Program.Encloses.accepted {program : Program} {form : Stmt}
    (encloses : program.Encloses form)
    (clear : program.check = []) : ∃ cls, form.Accepted cls := by
  induction encloses with
  | top member => exact ⟨_, Program.accepted_of_check clear _ member⟩
  | part _ member ih => exact ih.imp fun _ accepted => accepted.part member
  | @body form _ decl _ declared member ih =>
    obtain ⟨cls, accepted⟩ := ih
    cases form with
    | function =>
      rw [List.mem_singleton.mp declared] at member
      exact ⟨_, accepted.function.body _ member⟩
    | classDecl => exact ⟨_, (accepted.methods decl declared).body _ member⟩
    | _ => contradiction

variable {admitted : Program → Prop}

/-- The statement stands in an admitted program. -/
def Stmt.Stems (admitted : Program → Prop) (form : Stmt) : Prop :=
  ∃ program, admitted program ∧ program.Encloses form

/-- The parts of a statement stem from the programs that it stems from. -/
theorem Stmt.Stems.part {form part : Stmt} (stems : form.Stems admitted)
    (member : part ∈ form.parts) :
    part.Stems admitted :=
  stems.imp fun _ ⟨is, encloses⟩ => ⟨is, .part encloses member⟩

/-- The declaration is that of a function in an admitted program. -/
def FunctionDecl.IsFunction (admitted : Program → Prop) (decl : FunctionDecl) : Prop :=
  ∃ span, (Stmt.function span decl).Stems admitted

/-- The declaration is that of a method in an admitted program. -/
def FunctionDecl.IsMethod (admitted : Program → Prop) (decl : FunctionDecl) : Prop :=
  ∃ span name superclass methods,
    (Stmt.classDecl span name superclass methods).Stems admitted ∧ decl ∈ methods

/-- The body of a function stands where the function does. -/
theorem FunctionDecl.IsFunction.body {decl : FunctionDecl} (is : decl.IsFunction admitted) :
    ∀ form ∈ decl.body, form.Stems admitted := by
  obtain ⟨span, program, admits, encloses⟩ := is
  exact fun form member => ⟨program, admits, .body encloses List.mem_cons_self member⟩

/-- The body of a method stands where its class does. -/
theorem FunctionDecl.IsMethod.body {decl : FunctionDecl} (is : decl.IsMethod admitted) :
    ∀ form ∈ decl.body, form.Stems admitted := by
  obtain ⟨span, name, superclass, methods, ⟨program, admits, encloses⟩, declared⟩ := is
  exact fun form member => ⟨program, admits, .body encloses declared member⟩

/-- All code that the value may run stems from admitted programs. -/
inductive Value.Stems (admitted : Program → Prop) : Value → Prop where
  | data {value : Value} (plain : value.isPlain = true) : Stems admitted value
  | function {closure : Closure} (identity : Nat) (decl : closure.decl.IsFunction admitted)
      (home : ∀ owner ∈ closure.home, owner.AllMethods (FunctionDecl.IsMethod admitted)) :
      Stems admitted (.function identity closure)
  | method {receiver : Value} {method : Method} (identity : Nat)
      (receives : Stems admitted receiver)
      (owner : method.owner.AllMethods (FunctionDecl.IsMethod admitted))
      (decl : method.decl.IsMethod admitted) : Stems admitted (.method identity receiver method)
  | classObject {cls : Class} (methods : cls.AllMethods (FunctionDecl.IsMethod admitted)) :
      Stems admitted (.classObject cls)
  | builtin (identity : Nat) (builtin : Builtin) (receiver : Option Value) :
      Stems admitted (.builtin identity builtin receiver)

/-- The activation is that of a function or a method of an admitted program. -/
inductive Activation.Stems (admitted : Program → Prop) : Activation → Prop where
  | closure {closure : Closure} (decl : closure.decl.IsFunction admitted)
      (home : ∀ owner ∈ closure.home, owner.AllMethods (FunctionDecl.IsMethod admitted)) :
      Stems admitted (.ofClosure closure)
  | method {receiver : Value} {method : Method} (receives : receiver.Stems admitted)
      (owner : method.owner.AllMethods (FunctionDecl.IsMethod admitted))
      (decl : method.decl.IsMethod admitted) : Stems admitted (.ofMethod receiver method)

/-- The methods of a class value stem from the programs that it stems from. -/
theorem Value.Stems.cls {cls : Class} (stems : (Value.classObject cls).Stems admitted) :
    cls.AllMethods (FunctionDecl.IsMethod admitted) := by
  cases stems with
  | data plain => contradiction
  | classObject methods => exact methods

/-- All code that is run, and all that values may run, stems from admitted programs. -/
def stemDiscipline (admitted : Program → Prop) : Discipline where
  Place := Unit
  holds _ value := value.Stems admitted
  grows _ _ := True
  expr _ _ := True
  stmt _ form := form.Stems admitted
  around _ _ home _ := ∀ owner ∈ home, owner.AllMethods (FunctionDecl.IsMethod admitted)
  calls _ called := called.Stems admitted
  names _ := True
  occurs _ := True

/-- Evaluation comes only to code of admitted programs. -/
theorem stemDiscipline_lawful (admitted : Program → Prop) : (stemDiscipline admitted).Lawful where
  grows_trans _ _ := trivial
  grows_of_keeps _ := trivial
  grows_define _ _ _ _ := trivial
  grows_newScope _ _ := trivial
  grows_start _ _ _ := trivial
  holds_grows stems _ := stems
  around_grows stems _ := stems
  calls_grows stems _ := stems
  plain _ _ plain := .data plain
  global _ _ := .builtin ..
  builtin _ _ _ := .builtin ..
  bareClass _ _ _ _ := .classObject (List.forall_mem_singleton.mpr OrderedMap.all_empty)
  expr_part _ _ := trivial
  expr_assigned _ _ := trivial
  stmt_expr _ _ := trivial
  stmt_part stems member := stems.part member
  stmt_declared _ _ := trivial
  method _ stems found :=
    have ⟨owner, decl⟩ := (Value.Stems.cls stems).findMethod? found
    .method _ (.data rfl) owner decl
  super identity good around _ superclass this found := by
    obtain ⟨owner, home, inherits⟩ := Option.bind_eq_some_iff.mp superclass
    obtain ⟨parent, decl⟩ := ((around owner home).superclass inherits).findMethod? found
    exact .method identity (good.heap.lookup? this) parent decl
  closure identity around stems := .function identity ⟨_, stems⟩ around
  made := by
    intro machine later _ span name superclass methods parent cls stems _ _ inherited makes
    obtain ⟨cls, rfl, all⟩ := Class.allMethods_of_makes
      (fun decl member => ⟨span, name, superclass, methods, stems, member⟩)
      (fun ancestor member => (inherited ancestor member).cls) makes
    exact .classObject all
  block around := around
  calls_function := by
    intro _ _ closure stems
    cases stems with
    | data plain => contradiction
    | function _ decl home => exact .closure decl home
  calls_method := by
    intro _ _ receiver method stems
    cases stems with
    | data plain => contradiction
    | method _ receives owner decl => exact .method receives owner decl
  calls_initializer stems found :=
    have ⟨owner, decl⟩ := (Value.Stems.cls stems).findMethod? found
    .method (.data rfl) owner decl
  receiver := by
    intro _ called stems value member
    cases stems with
    | closure => contradiction
    | method receives => exact Option.some.inj member ▸ receives
  body stems _ _ := by
    cases stems with
    | closure decl home => exact ⟨(), home, decl.body⟩
    | method _ owner decl =>
      exact ⟨(), fun other member => Option.some.inj member ▸ owner, decl.body⟩

/-- All values that the machine holds stem from admitted programs. -/
abbrev Machine.Stems (admitted : Program → Prop) (machine : Machine) : Prop :=
  (stemDiscipline admitted).Good machine

end EventScript
