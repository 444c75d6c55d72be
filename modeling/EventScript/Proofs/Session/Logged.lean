import EventScript.Proofs.Session.History

/-!
# Sessions of admitted programs

Programs need not have been checked before they are run. `Session.Logged` says what was run on the
way to a state of a session that runs admitted programs only, whatever these are, and
`Session.Stretch` what may be run next. A session of accepted source texts is one of them
(`Session.Recorded.logged`).
-/

namespace EventScript.Session

/-- The states between the steps of a session that runs admitted programs only, each with all that
was run before. -/
inductive Logged (admitted : Program → Prop) : Session → List Occasion → Prop where
  | new (settings : Settings) (sink : Sink) (console : Console) (clock : WallClock) (host : Host) :
      Logged admitted { machine := .new settings sink console clock, host } []
  /-- The statements of an admitted program are run. -/
  | body {session : Session} {past : List Occasion} {program : Program} {bound : Nat}
      {machine : Machine}
      (logged : Logged admitted session past) (admits : admitted program)
      (ran : session.machine.runBody bound program = some machine) :
      Logged admitted { session with machine }
        (past ++ (Code.stmts program).trace bound session.machine.toTopLevel)
  /-- The event loop takes a turn. -/
  | turn {session : Session} {past : List Occasion} {bound : Nat} {poll : Poll Value}
      {machine : Machine}
      (logged : Logged admitted session past)
      (turned : session.machine.turn bound = some (poll, machine)) :
      Logged admitted { session with machine } (past ++ session.machine.turnTrace bound)
  /-- Something happens from outside. -/
  | outside {session later : Session} {past : List Occasion} (logged : Logged admitted session past)
      (happens : session.machine.Happens later.machine) : Logged admitted later past
  /-- The event loop has ended. -/
  | finish {session : Session} {past : List Occasion} (logged : Logged admitted session past) :
      Logged admitted { session with machine := session.machine.toTopLevel } past
  /-- Somebody reads what was printed, or provides input. -/
  | exchange {session : Session} {past : List Occasion} (logged : Logged admitted session past)
      (console : Console) (sink : Sink) :
      Logged admitted { session with machine := { session.machine with console, sink } } past

/-- What may be run from a state of a session on, until it ends or the bound does not suffice. -/
inductive Stretch (admitted : Program → Prop) (session : Session) : List Occasion → Prop where
  /-- The statements of an admitted program. -/
  | body {program : Program} (bound : Nat) (admits : admitted program) :
      Stretch admitted session ((Code.stmts program).trace bound session.machine.toTopLevel)
  /-- A turn of the event loop. -/
  | turn (bound : Nat) : Stretch admitted session (session.machine.turnTrace bound)

variable {session : Session} {past episode : List Occasion}

/-- More programs may be admitted. -/
theorem Stretch.mono {admitted further : Program → Prop}
    (running : session.Stretch admitted episode)
    (more : ∀ program, admitted program → further program) : session.Stretch further episode := by
  cases running with
  | body bound admits => exact .body bound (more _ admits)
  | turn bound => exact .turn bound

/-- Accepted source texts may be admitted. -/
theorem Recorded.logged (recorded : session.Recorded past) :
    session.Logged (fun program => ∃ source, Program.accept source = .ok program) past := by
  induction recorded with
  | new settings sink console clock host => exact .new ..
  | body _ accepted ran ih => exact .body ih ⟨_, accepted⟩ ran
  | turn _ turned ih => exact .turn ih turned
  | outside _ happens ih => exact .outside ih happens
  | finish _ ih => exact .finish ih
  | exchange _ console sink ih => exact .exchange ih console sink

/-- An episode is a stretch of accepted programs. -/
theorem Episode.stretch (running : session.Episode episode) :
    session.Stretch (fun program => ∃ source, Program.accept source = .ok program) episode := by
  cases running with
  | body bound accepted => exact .body bound ⟨_, accepted⟩
  | turn bound => exact .turn bound

end EventScript.Session
