import EventScript.Proofs.Session.Disciplined

/-!
# What is on the heap stays there

Whatever code is run, instances stay instances of their classes, and scopes stay inside the scopes
around them and go on binding the names they bind (`Code.grows`). Nothing has to be known about the
code or about the machine for this.
-/

namespace EventScript

/-- Everything is in order, and heaps grow. -/
def growthDiscipline : Discipline where
  Place := Unit
  holds _ _ := True
  grows := Heap.Grows
  expr _ _ := True
  stmt _ _ := True
  around _ _ _ _ := True
  calls _ _ := True
  names _ := True
  occurs _ := True

/-- Evaluation lets heaps grow. -/
theorem growthDiscipline_lawful : growthDiscipline.Lawful where
  grows_trans := Heap.Grows.trans
  grows_of_keeps := Heap.KeepsScopes.grows
  grows_define heap scope value _ := heap.grows_define scope _ value
  grows_newScope := Heap.grows_newScope
  grows_start := Activation.grows_start
  holds_grows _ _ := trivial
  around_grows _ _ := trivial
  calls_grows _ _ := trivial
  plain _ _ _ := trivial
  global _ _ := trivial
  builtin _ _ _ := trivial
  bareClass _ _ _ _ := trivial
  expr_part _ _ := trivial
  expr_assigned _ _ := trivial
  stmt_expr _ _ := trivial
  stmt_part _ _ := trivial
  stmt_declared _ _ := trivial
  method _ _ _ := trivial
  super _ _ _ _ _ _ _ := trivial
  closure _ _ _ := trivial
  made _ _ _ _ _ := trivial
  block _ := trivial
  calls_function _ := trivial
  calls_method _ := trivial
  calls_initializer _ _ := trivial
  receiver _ _ _ := trivial
  body _ _ _ := ⟨(), trivial, fun _ _ => trivial⟩

/-- Whatever is run, the heap grows. -/
theorem Code.grows (bound : Nat) {kind : ResultKind} (code : Code kind) (machine : Machine) :
    (code.run bound machine).Leaves fun later => machine.heap.Grows later.heap := by
  have fits : growthDiscipline.Fits machine code := by
    cases code with
    | expr | exprs | stmt | stmts | loop =>
      simp [Discipline.Fits, growthDiscipline, Discipline.Hosts]
    | call | instantiation | activation => simp [Discipline.Fits, growthDiscipline]
  have good : growthDiscipline.Good machine := Machine.all_of_forall (fun _ => trivial) machine
  have keeps : growthDiscipline.Keeps machine (code.run bound machine) :=
    growthDiscipline_lawful.keeps (fun _ _ => trivial) ⟨good, fits⟩
  cases ended : code.run bound machine with
  | exhausted => trivial
  | done result later =>
    rw [ended] at keeps
    exact keeps.2.1.heap
  | failed diagnostic later =>
    rw [ended] at keeps
    exact keeps.2.heap

end EventScript
