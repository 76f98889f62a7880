import ProcCheck.Analysis.Session
import ProcCheck.Proofs.Analysis.Growth

/-!
# Walks of a session

A step of a session may hold further steps, and these may open, close and change frames in any
order and be cut short anywhere. `Session.Spans` collects what has to be shown of a relation
between states so that it holds from the state before every step to the state behind it.
-/

namespace ProcCheck

namespace Session

variable {α β : Type}

/-! ## Running pieces of a session -/

/-- The answer of a piece of a session that starts in `s`, and the state that it leaves. -/
def exec (act : Play α) (s : Session) : Except Abort α × Session := act.run.run s

theorem exec_bind (x : Play α) (f : α → Play β) (s : Session) :
    exec (x >>= f) s =
      match exec x s with
      | (.ok a, t) => exec (f a) t
      | (.error abort, t) => (.error abort, t) := by
  unfold exec ExceptT.run StateT.run
  simp only [bind, ExceptT.bind, ExceptT.mk, StateT.bind, ExceptT.bindCont]
  rcases x s with ⟨_ | a, t⟩ <;> rfl

theorem exec_bind_ok {x : Play α} {s t : Session} {a : α} (h : exec x s = (.ok a, t))
    (f : α → Play β) : exec (x >>= f) s = exec (f a) t := by
  rw [exec_bind, h]

theorem exec_finally (x : Play Unit) (f : Session → Session) (s : Session) :
    exec (tryFinally x (modify f)) s = ((exec x s).1, f (exec x s).2) := by
  unfold exec ExceptT.run StateT.run
  simp only [tryFinally, tryFinally', Functor.map, ExceptT.map, ExceptT.mk, bind, StateT.bind]
  rcases x s with ⟨_ | a, t⟩ <;> rfl

/-- The tables and the innermost frame. -/
def scanState (s : Session) : ScanState := ⟨s.symbols, s.current.frame⟩

/-- The session with the tables and the innermost frame that a scan has left. -/
def withScan (s : Session) (t : ScanState) : Session :=
  { s with symbols := t.symbols, current := { s.current with frame := t.frame } }

theorem exec_scan (act : Scan α) (s : Session) :
    exec (scan act) s =
      ((Scan.exec act s.scanState).1, s.withScan (Scan.exec act s.scanState).2) := by
  have read : exec get s = (.ok s, s) := rfl
  rw [scan, exec_bind_ok read]
  cases run : Scan.exec act s.scanState with
  | mk result after =>
    have whole : act.run.run ⟨s.symbols, s.current.frame⟩ = (result, after) := run
    rw [whole]
    cases result <;> rfl

/-- A step that consists of a scanning step leaves what that leaves. -/
theorem exec_scan_answer (act : Scan α) (answer : α → β) (s : Session) :
    (exec (scan act >>= fun a => pure (answer a)) s).2 =
      s.withScan (Scan.exec act s.scanState).2 := by
  rw [exec_bind, exec_scan]
  cases (Scan.exec act s.scanState).1 with
  | ok a => rfl
  | error abort => rfl

/-- The session with the frame of a new function. -/
def opening (fresh : Function) (s : Session) : Session :=
  { s with
    current := ⟨s.opened + 1, ⟨some fresh, []⟩⟩
    outer := s.current :: s.outer
    opened := s.opened + 1 }

theorem exec_enter (name returnType : Text) (line : Int) (s : Session) :
    exec (enter name returnType line) s =
      match ValueType.ofSpelling? returnType with
      | some type => (.ok (), s.opening { name, returnType := type, line })
      | none => (.error (.unknownType returnType), s) := by
  rw [enter, exec_bind, exec_scan, Scan.resolveType]
  cases ValueType.ofSpelling? returnType with
  | some type => rfl
  | none => rfl

/-- The session without its innermost frame, whose function is perhaps registered. -/
def closing (register : Bool) (s : Session) : Session :=
  match s.outer with
  | [] => s
  | next :: outer =>
    let closed := if register then s.current.frame.function?.toList else []
    { s with
      symbols := { s.symbols with functions := s.symbols.functions ++ closed }
      current := next
      outer }

theorem exec_leave (register : Bool) (s : Session) :
    (exec (take entry (.leave register)) s).2 = s.closing register := by
  have run : exec (leave register) s = (.ok (s.outer ≠ []), s.closing register) := by
    rcases s with ⟨symbols, current, _ | ⟨next, outer⟩, opened, entries, shown⟩ <;> rfl
  rw [take, exec_bind_ok run]
  rfl

/-- The session inside a further control structure of the innermost frame. -/
def inside (head : ControlHead) (s : Session) : Session :=
  s.withScan (s.scanState.openControl head)

/-- The steps inside a control structure. -/
def walk (entry : Text) (rethrow : Bool) (steps : List Step) : Play Unit :=
  if rethrow then take.takeAll entry steps else take.noteAll entry steps

/-- A control structure is entered, its steps are taken, and it is left, whether they return or are
cut short. -/
theorem exec_track (entry : Text) (head : ControlHead) (rethrow : Bool) (steps : List Step)
    (s : Session) :
    exec (take entry (.track head rethrow steps)) s =
      ((exec (walk entry rethrow steps) (s.inside head)).1.map fun _ =>
          .tracked (head.atDepth s.current.frame.nesting.length),
        leaveControl s.current.number (exec (walk entry rethrow steps) (s.inside head)).2) := by
  have entered : exec (scan (Scan.enterControl head)) s =
      (.ok (head.atDepth s.current.frame.nesting.length), s.inside head) := by
    rw [exec_scan]
    rfl
  have here : exec get s = (.ok s, s) := rfl
  unfold walk
  rw [take, exec_bind_ok here, exec_bind_ok entered, exec_bind, exec_finally]
  generalize exec (if rethrow then take.takeAll entry steps else take.noteAll entry steps)
    (s.inside head) = walked
  cases walked.1 with
  | ok a => rfl
  | error abort => rfl

theorem exec_takeAll_cons (entry : Text) (step : Step) (rest : List Step) (s : Session) :
    exec (take.takeAll entry (step :: rest)) s =
      match exec (take entry step) s with
      | (.ok _, t) => exec (take.takeAll entry rest) t
      | (.error abort, t) => (.error abort, t) := by
  rw [take.takeAll, discard_eq_bind, exec_bind, exec_bind]
  rcases exec (take entry step) s with ⟨abort | answer, t⟩
  · rfl
  · rfl

theorem exec_noteAll_cons (entry : Text) (step : Step) (rest : List Step) (s : Session) :
    exec (take.noteAll entry (step :: rest)) s =
      exec (take.noteAll entry rest)
        (note step (exec (take entry step) s).1 (exec (take entry step) s).2) := by
  have observed : exec (take.observing (take entry step)) s =
      (.ok (exec (take entry step) s).1, (exec (take entry step) s).2) := rfl
  rw [take.noteAll, exec_bind_ok observed]
  rfl

/-! ## Relations across steps -/

/-- What makes a relation hold across all steps of a session: it holds across every single change
that a step makes to the session, and across several in a row. A control structure is a change
around those inside it. -/
structure Spans (Rel : Session → Session → Prop) : Prop where
  refl : ∀ s, Rel s s
  trans : ∀ {s t u}, Rel s t → Rel t u → Rel s u
  scan : ∀ {s : Session} {t : ScanState}, s.scanState.GrowsTo t → Rel s (s.withScan t)
  opening : ∀ fresh s, Rel s (s.opening fresh)
  closing : ∀ register s, Rel s (s.closing register)
  note : ∀ step answer s, Rel s (s.note step answer)
  track : ∀ {head s t}, Rel (s.inside head) t → Rel s (leaveControl s.current.number t)

namespace Spans

variable {Rel : Session → Session → Prop}

/-- A step that consists of a scanning step. -/
theorem scanning (spans : Spans Rel) {act : Scan α} (grows : Scan.Grows act) (answer : α → β)
    (s : Session) : Rel s (exec (Session.scan act >>= fun a => pure (answer a)) s).2 := by
  rw [exec_scan_answer]
  exact spans.scan (grows s.scanState)

mutual

/-- The relation holds across every step. The induction is over the steps inside a control
structure, which are steps themselves. -/
theorem take (spans : Spans Rel) (entry : Text) :
    ∀ (step : Step) (s : Session), Rel s (exec (take entry step) s).2
  | .enter name returnType line, s => by
    rw [Session.take, exec_bind, exec_enter]
    cases ValueType.ofSpelling? returnType with
    | some type => exact spans.opening _ s
    | none => exact spans.refl s
  | .leave register, s => by
    rw [exec_leave]
    exact spans.closing register s
  | .globalVar decl, s => spans.scanning (Scan.declareGlobal_grows decl) _ s
  | .localVar decl, s => spans.scanning (Scan.declareLocal_grows decl) _ s
  | .function decl, s => spans.scanning (Scan.declareFunction_grows entry decl) _ s
  | .validate e, s => spans.scanning (Scan.checkExpr_grows e) _ s
  | .statement st, s => spans.scanning (Scan.statement_grows st) _ s
  | .top node, s => spans.scanning (Scan.topLevel_grows entry node) _ s
  | .report line message, s => spans.scanning (Scan.report_grows line (.remark message)) _ s
  | .finish, s => spans.scanning (Scan.finish_grows entry) _ s
  | .lookup name, s => spans.refl s
  | .classify name body, s => spans.refl s
  | .track head rethrow steps, s => by
    rw [exec_track]
    apply spans.track
    cases rethrow with
    | true => exact takeAll spans entry steps (s.inside head)
    | false => exact noteAll spans entry steps (s.inside head)

theorem takeAll (spans : Spans Rel) (entry : Text) :
    ∀ (steps : List Step) (s : Session), Rel s (exec (take.takeAll entry steps) s).2
  | [], s => spans.refl s
  | step :: rest, s => by
    have head := take spans entry step s
    rw [exec_takeAll_cons]
    rcases run : exec (Session.take entry step) s with ⟨abort | answer, t⟩
    · rwa [run] at head
    · rw [run] at head
      exact spans.trans head (takeAll spans entry rest t)

theorem noteAll (spans : Spans Rel) (entry : Text) :
    ∀ (steps : List Step) (s : Session), Rel s (exec (take.noteAll entry steps) s).2
  | [], s => spans.refl s
  | step :: rest, s => by
    have head := take spans entry step s
    rw [exec_noteAll_cons]
    exact spans.trans head (spans.trans (spans.note _ _ _) (noteAll spans entry rest _))

end

/-- The relation holds across the steps inside a control structure. -/
theorem walk (spans : Spans Rel) (entry : Text) (rethrow : Bool) (steps : List Step) (s : Session) :
    Rel s (exec (Session.walk entry rethrow steps) s).2 := by
  cases rethrow with
  | true => exact takeAll spans entry steps s
  | false => exact noteAll spans entry steps s

end Spans

end Session

end ProcCheck
