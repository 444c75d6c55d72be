import EventScript.Proofs.Evaluation.Contents
import EventScript.Proofs.Evaluation.Handling
import EventScript.Proofs.Evaluation.Trace
import EventScript.Proofs.Mirroring.Evaluation

/-!
# Machines that refer to scopes that are there

A machine is intact (`Machine.Intact`) when every scope is there that its code, its open calls, its
heap and its event loop refer to, and scopes lie inside older ones. An intact machine mirrors
itself, each scope standing for itself (`Machine.Intact.mirrors`), and a machine that mirrors
another one is intact (`Machine.Mirrors.intact`), so running code leaves intact machines and comes
to code on intact machines only.
-/

namespace EventScript

/-- The scopes that the class and its ancestors were declared in. -/
def Class.scopes (cls : Class) : List Nat := cls.lineage.map ClassBody.scope

/-- The scopes that a closure refers to. -/
def Closure.scopes (closure : Closure) : List Nat :=
  closure.scope :: closure.home.elim [] Class.scopes

/-- The scopes that a value refers to, but for those that the contents of objects do. -/
def Value.scopes : Value → List Nat
  | .function _ closure => closure.scopes
  | .method _ receiver found => receiver.scopes ++ found.owner.scopes
  | .classObject cls => cls.scopes
  | .builtin _ _ (some receiver) => receiver.scopes
  | _ => []

/-- The value refers to no scope but the first ones, so many. -/
def Value.Within (size : Nat) (value : Value) : Prop := ∀ scope ∈ value.scopes, scope < size

/-- What the heap and the event loop refer to is there, and so is the global scope. -/
structure Machine.Rooted (globals : Nat) (machine : Machine) : Prop where
  values : machine.All (Value.Within machine.heap.scopes.size)
  older : ∀ {scope parent : Nat} {content : Scope}, machine.heap.scopes.get? scope = some content →
    content.parent = some parent → parent < scope
  global : globals < machine.heap.scopes.size

/-- All scopes that the machine refers to are there. -/
structure Machine.Intact (machine : Machine) : Prop extends machine.Rooted machine.globals where
  scope : machine.scope < machine.heap.scopes.size
  frames : ∀ frame ∈ machine.frames, ∀ cls ∈ frame.home,
    (Value.classObject cls).Within machine.heap.scopes.size

/-! ## Values -/

section Itself

variable {pairing : Pairing}

/-- A class mirrors itself if its scopes stand for themselves. -/
theorem Class.mirrors_self {cls : Class}
    (known : ∀ scope ∈ cls.scopes, pairing.paired scope scope) :
    cls.Mirrors pairing cls where
  body := ⟨rfl, rfl, rfl, known _ List.mem_cons_self⟩
  ancestors := by
    rw [List.forall₂_same]
    intro body member
    have inside : body.scope ∈ cls.scopes := List.mem_cons_of_mem _ (List.mem_map_of_mem member)
    exact ⟨rfl, rfl, rfl, known _ inside⟩

/-- A closure mirrors itself if its scopes stand for themselves. -/
theorem Closure.mirrors_self {closure : Closure}
    (known : ∀ scope ∈ closure.scopes, pairing.paired scope scope) :
    closure.Mirrors pairing closure where
  decl := rfl
  scope := known _ List.mem_cons_self
  home := by
    refine .of_forall fun cls member => Class.mirrors_self fun scope inside => ?_
    have home : closure.home = some cls := member
    apply known
    rw [Closure.scopes, home]
    exact List.mem_cons_of_mem _ inside

/-- A value mirrors itself when each scope that it refers to stands for itself. -/
theorem Value.mirrors_self :
    {value : Value} → (∀ scope ∈ value.scopes, pairing.paired scope scope) →
    value.Mirrors pairing value
  | .nil, _ => .nil
  | .bool value, _ => .bool value
  | .number value, _ => .number value
  | .string ref, _ => .string ref
  | .list ref, _ => .list ref
  | .map ref, _ => .map ref
  | .object ref, _ => .object ref
  | .function identity _, known => .function identity (Closure.mirrors_self known)
  | .method identity _ _, known =>
    .method identity (mirrors_self fun _ member => known _ (List.mem_append_left _ member))
      ⟨Class.mirrors_self fun _ member => known _ (List.mem_append_right _ member), rfl⟩
  | .classObject _, known => .classObject (Class.mirrors_self known)
  | .builtin identity called none, _ => .builtin identity called
  | .builtin identity called (some _), known => .builtinMethod identity called (mirrors_self known)

/-- Classes that mirror each other refer to scopes that stand for each other. -/
theorem Class.Mirrors.scopes {cls cls' : Class} (mirrors : cls.Mirrors pairing cls') :
    List.Forall₂ pairing.paired cls.scopes cls'.scopes := by
  unfold Class.scopes
  rw [List.forall₂_map_left_iff, List.forall₂_map_right_iff]
  exact mirrors.lineage.imp fun _ _ body => body.scope

/-- The scopes of closures that mirror each other are paired. -/
theorem Closure.Mirrors.scopes {closure closure' : Closure}
    (mirrors : closure.Mirrors pairing closure') :
    List.Forall₂ pairing.paired closure.scopes closure'.scopes := by
  refine .cons mirrors.scope ?_
  rcases mirrors.home.cases with ⟨first, second⟩ | ⟨cls, cls', first, second, classes⟩
  · rw [first, second]
    exact .nil
  · rw [first, second]
    exact classes.scopes

/-- Values that mirror each other refer to scopes that stand for each other. -/
theorem Value.Mirrors.scopes {value value' : Value} (mirrors : value.Mirrors pairing value') :
    List.Forall₂ pairing.paired value.scopes value'.scopes := by
  induction mirrors with
  | function identity closures => exact closures.scopes
  | method identity _ methods ih => exact List.rel_append ih methods.owner.scopes
  | classObject classes => exact classes.scopes
  | builtinMethod identity called _ ih => exact ih
  | _ => exact .nil

/-- Values that mirror others refer to scopes that are there. -/
theorem Value.Mirrors.within {value value' : Value} (mirrors : value.Mirrors pairing value')
    {scopes scopes' : Store Scope} (links : pairing.Links scopes scopes') :
    value.Within scopes.size :=
  List.Forall₂.forall_left mirrors.scopes fun _ _ paired => (links.paired_lt paired).1

end Itself

/-! ## What holds values -/

section Holders

variable {α β κ : Type} {same : α → β → Prop} {good : α → Prop}

/-- What the relation implies of a first value holds of all of them in a map. -/
theorem OrderedMap.Rel.all {same : α → α → Prop} {map map' : OrderedMap κ α}
    (related : map.Rel same map')
    (implies : ∀ a b, same a b → good a) : map.All good :=
  List.Forall₂.forall_left related fun _ _ entry => implies _ _ entry.2

/-- What the relation implies of a first content holds of all of them in a store. -/
theorem Store.Rel.all {same : α → α → Prop} {store store' : Store α}
    (related : store.Rel same store')
    (implies : ∀ a b, same a b → good a) : store.All good := by
  intro index content stored
  have found := related index
  rw [stored] at found
  obtain ⟨content', -, contents⟩ := found.exists_of_some
  exact implies _ _ contents

/-- A map whose values are related to themselves is. -/
theorem OrderedMap.All.rel_self {same : α → α → Prop} {map : OrderedMap κ α}
    (all : map.All fun value => same value value) : map.Rel same map :=
  List.forall₂_same.mpr fun entry member => ⟨rfl, all entry member⟩

/-- A store whose contents are related to themselves is. -/
theorem Store.All.rel_self {same : α → α → Prop} {store : Store α}
    (all : store.All fun content => same content content) : store.Rel same store :=
  fun index => .of_forall fun content stored => all index content stored

/-- Related actions are about values with the property. -/
theorem Action.Rel.all {same : κ → κ → Prop} {good : κ → Prop} {action action' : Action κ}
    (related : action.Rel same action') (implies : ∀ a b, same a b → good a) : action.All good := by
  cases related with
  | call callees all => exact ⟨implies _ _ callees, List.Forall₂.forall_left all implies⟩
  | deliver callbacks => exact implies _ _ callbacks
  | fail => trivial

/-- What the relation implies of a first value holds of all of them in an event loop. -/
theorem EventLoop.Rel.all {same : κ → κ → Prop} {good : κ → Prop} {loop loop' : EventLoop κ}
    (related : loop.Rel same loop') (implies : ∀ a b, same a b → good a) : loop.All good where
  queue := List.Forall₂.forall_left related.queue fun _ _ tasks => tasks.action.all implies
  pending := List.Forall₂.forall_left related.pending fun _ _ operations callback member => by
    have callbacks := operations.callback
    rw [show _ = some callback from member] at callbacks
    obtain ⟨callback', -, values⟩ := callbacks.exists_of_some
    exact implies _ _ values

end Holders

/-! ## Machines -/

/-- Each of the first scopes stands for itself, so many of them. -/
def Pairing.itself (size : Nat) : Pairing where
  paired scope scope' := scope = scope' ∧ scope < size
  blank _ _ := False
  blank' _ _ := False

/-- A value that leads to known scopes only mirrors itself. -/
theorem Value.Within.mirrors {size : Nat} {value : Value} (inside : value.Within size) :
    value.Mirrors (.itself size) value :=
  Value.mirrors_self fun scope member => ⟨rfl, inside scope member⟩

/-- A class that leads to known scopes only mirrors itself. -/
theorem Value.Within.mirrors_class {size : Nat} {cls : Class}
    (inside : (Value.classObject cls).Within size) : cls.Mirrors (.itself size) cls :=
  Class.mirrors_self fun scope member => ⟨rfl, inside scope member⟩

/-- An action with values that lead to known scopes only mirrors itself. -/
theorem Action.All.mirrors {size : Nat} {action : Action Value}
    (inside : action.All (Value.Within size)) :
    action.Rel (Value.Mirrors (.itself size)) action := by
  cases action with
  | call callee arguments =>
    have all := List.forall₂_same.mpr fun argument member => (inside.2 argument member).mirrors
    exact .call inside.1.mirrors all
  | deliver callback result => exact .deliver (Value.Within.mirrors inside) result
  | fail diagnostic => exact .fail diagnostic

/-- An event loop with values that lead to known scopes only mirrors itself. -/
theorem EventLoop.All.mirrors {size : Nat} {events : EventLoop Value}
    (inside : events.All (Value.Within size)) :
    events.Rel (Value.Mirrors (.itself size)) events where
  clock := rfl
  queue := List.forall₂_same.mpr fun task member => ⟨rfl, rfl, (inside.queue task member).mirrors⟩
  nextSeq := rfl
  nextOperation := rfl
  pending := List.forall₂_same.mpr fun operation member =>
    ⟨rfl, rfl, rfl, .of_forall fun callback calls =>
      (inside.pending operation member callback calls).mirrors⟩
  unreported := rfl
  inbox := rfl
  virtualNow := rfl

namespace Machine

variable {machine machine' : Machine} {globals : Nat}

/-- What is on the heap mirrors itself. -/
theorem Rooted.heap (rooted : machine.Rooted globals) :
    machine.heap.Mirrors (.itself machine.heap.scopes.size) machine.heap where
  strings := rfl
  lists := Store.All.rel_self fun index items stored => List.forall₂_same.mpr fun item member =>
    (rooted.values.heap.lists index items stored item (Array.mem_def.mpr member)).mirrors
  maps := Store.All.rel_self fun index content stored => OrderedMap.All.rel_self fun entry member =>
    have inside := rooted.values.heap.maps index content stored entry member
    ⟨inside.1.mirrors, inside.2.mirrors⟩
  instances := Store.All.rel_self fun index object stored =>
    have inside := rooted.values.heap.instances index object stored
    ⟨inside.1.mirrors_class, OrderedMap.All.rel_self fun entry member =>
      (inside.2 entry member).mirrors⟩
  scopes := by
    refine ⟨?paired, ?unique, ?first, ?second⟩
    case paired =>
      rintro scope _ ⟨rfl, inside⟩
      obtain ⟨content, stored⟩ : ∃ content, machine.heap.scopes.get? scope = some content :=
        Option.ne_none_iff_exists'.mp fun none =>
          Nat.not_le.mpr inside (Store.get?_eq_none_iff.mp none)
      refine ⟨content, content, stored, stored, ?_,
        .of_forall fun parent around => .paired ⟨rfl, ?_⟩⟩
      · exact OrderedMap.All.rel_self fun entry member =>
          (rooted.values.heap.scopes scope content stored entry member).mirrors
      · exact Nat.lt_trans (rooted.older stored around) inside
    case unique =>
      rintro scope _ other _ ⟨rfl, -⟩ ⟨rfl, -⟩
      exact Iff.rfl
    case first => exact ⟨False.elim, rooted.older, fun inside => .inl ⟨_, rfl, inside⟩⟩
    case second => exact ⟨False.elim, rooted.older, fun inside => .inl ⟨_, rfl, inside⟩⟩
  nextIdentity := rfl

/-- An intact machine mirrors itself. -/
theorem Intact.mirrors (intact : machine.Intact) :
    machine.Mirrors (.itself machine.heap.scopes.size) machine.scope machine.scope machine where
  heap := intact.heap
  globals := ⟨rfl, intact.global⟩
  scope := rfl
  scope' := rfl
  frames := List.forall₂_same.mpr fun frame member =>
    Option.Rel.of_forall fun cls home => (intact.frames frame member cls home).mirrors_class
  events := intact.values.events.mirrors
  launched := rfl
  settings := rfl
  console := rfl
  sink := rfl
  reported := rfl
  clock := rfl

/-- A machine that mirrors another one refers only to scopes that are there. -/
theorem Mirrors.rooted {pairing : Pairing} {scope scope' : Nat}
    (mirrors : machine.Mirrors pairing scope scope' machine') : machine.Rooted machine.globals where
  values := by
    have inside : ∀ value value' : Value, value.Mirrors pairing value' →
        value.Within machine.heap.scopes.size := fun _ _ values => values.within mirrors.heap.scopes
    refine ⟨⟨?lists, ?maps, ?instances, ?scopes⟩, mirrors.events.all inside⟩
    case lists =>
      refine mirrors.heap.lists.all fun items items' all item member => ?_
      exact List.Forall₂.forall_left all inside item (Array.mem_def.mp member)
    case maps =>
      exact mirrors.heap.maps.all fun _ _ contents =>
        contents.all fun _ _ pair => ⟨inside _ _ pair.1, inside _ _ pair.2⟩
    case instances =>
      exact mirrors.heap.instances.all fun _ _ object =>
        ⟨inside _ _ (.classObject object.cls), object.fields.all inside⟩
    case scopes =>
      intro scope content stored
      have covered := mirrors.heap.scopes.first.covered (Store.lt_size_of_get? stored)
      rcases covered with ⟨scope', paired⟩ | ⟨around, blank⟩
      · obtain ⟨found, found', same, -, contents⟩ := mirrors.heap.scopes.paired paired
        obtain rfl := Option.some.inj (stored.symm.trans same)
        exact contents.bindings.all inside
      · obtain rfl := Option.some.inj (stored.symm.trans (mirrors.heap.scopes.first.empty blank).1)
        exact OrderedMap.all_empty
  older := mirrors.heap.scopes.first.older
  global := (mirrors.heap.scopes.paired_lt mirrors.globals).1

/-- A machine that mirrors another one is intact. -/
theorem Mirrors.intact {pairing : Pairing} {scope scope' : Nat}
    (mirrors : machine.Mirrors pairing scope scope' machine') (meets : pairing.Meets scope scope') :
    machine.Intact where
  toRooted := mirrors.rooted
  scope := mirrors.scope ▸ (mirrors.heap.scopes.meets_lt meets).1
  frames := List.Forall₂.forall_left mirrors.frames fun frame frame' frames cls home => by
    have classes : Option.Rel (Class.Mirrors pairing) frame.home frame'.home := frames
    rw [show frame.home = some cls from home] at classes
    obtain ⟨cls', -, classes⟩ := classes.exists_of_some
    exact (Value.Mirrors.classObject classes).within mirrors.heap.scopes

end Machine

/-! ## Computations -/

section Computations

variable {α β : Type} {pairing : Pairing} {scope scope' : Nat} {machine machine' : Machine}

/-- What computations that do the same leave is intact. -/
theorem Run.Parallels.leaves_intact {same : Pairing → α → β → Prop} {run : Run α} {run' : Run β}
    (parallels : run.Parallels pairing scope scope' same run') (meets : pairing.Meets scope scope')
    (machines : machine.Mirrors pairing scope scope' machine') :
    (run machine).Leaves Machine.Intact := by
  obtain ⟨later, grown, outcomes⟩ := parallels machine machine' machines
  have meets' := meets.grows grown
  cases ended : run machine with
  | exhausted => trivial
  | done value last =>
    rw [ended] at outcomes
    obtain ⟨_, _, _, _, lasts⟩ := outcomes.exists_done
    exact lasts.intact meets'
  | failed diagnostic last =>
    rw [ended] at outcomes
    cases ended' : run' machine' <;> rw [ended'] at outcomes <;> cases outcomes
    case failed lasts => exact lasts.intact meets'

end Computations

/-! ## Code that mirrors code -/

/-- The code and its machine mirror some code on some machine. -/
inductive Occasion.Mirrored : Occasion → Prop where
  | intro {kind : ResultKind} {code other : Code kind} {machine machine' : Machine}
      {pairing : Pairing}
      {scope scope' : Nat} (codes : code.Mirrors pairing other)
      (stands : code.Stands pairing scope scope')
      (machines : machine.Mirrors pairing scope scope' machine') : Mirrored ⟨code, machine⟩

namespace Occasion.Mirrored

variable {bound : Nat} {kind kind' : ResultKind} {code : Code kind} {code' : Code kind'}
variable {machine reached later : Machine}

/-- All code that is come to mirrors some code. -/
theorem visited (mirrored : Mirrored ⟨code, machine⟩)
    (visits : Code.Visits bound code machine code' reached) : Mirrored ⟨code', reached⟩ := by
  cases mirrored with
  | intro codes stands machines =>
    obtain ⟨_, _, _, _, _, _, codes', stands', machines'⟩ := visits.mirrors codes stands machines
    exact .intro codes' stands' machines'

/-- A machine on which code comes to be run is intact. -/
theorem intact (mirrored : Mirrored ⟨code, machine⟩) : machine.Intact := by
  cases mirrored with
  | intro _ stands machines => exact machines.intact stands.meets

/-- The values in hand refer to scopes that are there. -/
theorem hand (mirrored : Mirrored ⟨code, machine⟩) :
    ∀ value ∈ code.hand, value.Within machine.heap.scopes.size := by
  cases mirrored with
  | @intro _ _ _ _ _ pairing _ _ codes _ machines =>
    have within : ∀ value value' : Value, value.Mirrors pairing value' →
        value.Within machine.heap.scopes.size :=
          fun _ _ values => values.within machines.heap.scopes
    cases codes with
    | expr | exprs | stmt | stmts | loop => exact List.forall_mem_nil _
    | call callees all =>
      exact List.forall_mem_cons.mpr ⟨within _ _ callees, all.forall_left within⟩
    | instantiation classes all =>
      exact List.forall_mem_cons.mpr ⟨within _ _ (.classObject classes), all.forall_left within⟩
    | activation activations all =>
      refine List.forall_mem_append.mpr ⟨fun value member => ?_, all.forall_left within⟩
      have receivers := activations.receiver
      rw [Option.mem_toList.mp member] at receivers
      obtain ⟨_, _, values⟩ := receivers.exists_of_some
      exact within _ _ values

/-- However the code ends, it leaves an intact machine. -/
theorem leaves (mirrored : Mirrored ⟨code, machine⟩) (bound : Nat) :
    (code.run bound machine).Leaves Machine.Intact := by
  cases mirrored with
  | intro codes stands machines =>
    exact (Code.run_parallels bound codes stands).leaves_intact stands.meets machines

/-- The values that the code gives refer to scopes that are there. -/
theorem given {result : kind.Result} (mirrored : Mirrored ⟨code, machine⟩)
    (ended : code.run bound machine = .done result later) :
    ∀ value ∈ kind.hand result, value.Within later.heap.scopes.size := by
  cases mirrored with
  | intro codes stands machines =>
    obtain ⟨pairing, -, outcomes⟩ := Code.run_parallels bound codes stands _ _ machines
    have ended : Runner.within bound kind code machine = .done result later := ended
    rw [ended] at outcomes
    obtain ⟨result', _, -, results, laters⟩ := outcomes.exists_done
    have within : ∀ value value' : Value, value.Mirrors pairing value' →
        value.Within later.heap.scopes.size := fun _ _ values => values.within laters.heap.scopes
    cases kind with
    | value => exact List.forall_mem_singleton.mpr (within _ _ results)
    | values => exact List.Forall₂.forall_left results within
    | flow =>
      cases results with
      | next | broke => exact List.forall_mem_nil _
      | returned values => exact List.forall_mem_singleton.mpr (within _ _ values)

end Occasion.Mirrored

end EventScript
