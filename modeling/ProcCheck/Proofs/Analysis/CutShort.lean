import ProcCheck.Proofs.Analysis.Walks

/-!
# Operations that are cut short

An abort may come from any depth of a tree or of a walk. Whatever was entered until then has been
left again, nothing has been registered, and the function that the scan stands in has at most
gained locals and control structures. Frames carry numbers, so a control structure is followed
through a walk by the number of its frame: to the end of the walk, or to the step of the walk that
closes the frame.
-/

namespace ProcCheck

namespace Scan

variable {α β : Type}

/-! ## Tables behind an abort -/

/-- A step that is cut short has only added diagnostics. -/
def AbortReports (x : Scan α) : Prop :=
  ∀ s abort t, exec x s = (.error abort, t) → ∃ found, t.symbols = s.symbols.report found

namespace AbortReports

theorem of_reports {x : Scan α} (reports : Reports x) : AbortReports x := by
  intro s abort t run
  obtain ⟨found, reported⟩ := reports.exec_found s
  rw [run] at reported
  exact ⟨found, reported⟩

/-- A step that cannot be cut short. -/
theorem of_returns {x : Scan α} (returns : ∀ s, ∃ a, (exec x s).1 = .ok a) : AbortReports x := by
  intro s abort t run
  obtain ⟨a, returned⟩ := returns s
  rw [run] at returned
  cases returned

/-- What comes behind a step that only reports may add to the tables, unless it is cut short. -/
theorem bind {x : Scan α} {f : α → Scan β} (first : Reports x)
    (second : ∀ a, AbortReports (f a)) : AbortReports (x >>= f) := by
  intro s abort t run
  obtain ⟨found, reported⟩ := first.exec_found s
  rw [exec_bind] at run
  rcases before : exec x s with ⟨early | a, mid⟩
  · rw [before] at run reported
    obtain ⟨-, rfl⟩ := Prod.mk.inj run
    exact ⟨found, reported⟩
  · rw [before] at run reported
    obtain ⟨more, same⟩ := second a mid abort t run
    refine ⟨found ++ more, ?_⟩
    rw [same, reported, Symbols.report, Symbols.report, Symbols.report, List.append_assoc]

theorem look {f : ScanState → Scan α} (each : ∀ s, AbortReports (f s)) :
    AbortReports (get >>= f) := by
  intro s abort t run
  rw [exec_bind_ok (exec_get s)] at run
  exact each s s abort t run

end AbortReports

theorem declareGlobal_abortReports (decl : VarDecl) : AbortReports (declareGlobal decl) := by
  apply AbortReports.bind (resolveType_adds .onlyReports _)
  intro type
  apply AbortReports.look
  intro s
  split
  · exact .of_reports (.report _ _)
  · apply AbortReports.bind (evaluate_reports type _)
    intro initial
    exact .of_returns fun s => ⟨(), rfl⟩

/-- A function is registered last, when its body has been scanned. -/
theorem declareFunction_abortReports (entry : Text) (decl : FunctionDecl) :
    AbortReports (declareFunction entry decl) := by
  apply AbortReports.bind (resolveType_adds .onlyReports _)
  intro type
  apply AbortReports.look
  intro s
  split
  · exact .of_returns fun s => ⟨none, rfl⟩
  · apply AbortReports.bind (function_reports type decl)
    intro f
    exact .of_returns fun s => ⟨_, rfl⟩

/-! ## Operations -/

/-- The operations of a scan, each with the node that it is given. -/
inductive Operation where
  | globalVar (decl : VarDecl)
  | localVar (decl : VarDecl)
  | function (decl : FunctionDecl)
  | check (e : Expr)
  | statement (s : Stmt)

/-- What an operation does. -/
def Operation.act (entry : Text) : Operation → Scan Unit
  | globalVar decl => declareGlobal decl
  | localVar decl => declareLocal decl
  | function decl => discard (declareFunction entry decl)
  | check e => checkExpr e
  | statement s => Scan.statement s

theorem Operation.abortReports (entry : Text) (op : Operation) : AbortReports (op.act entry) := by
  cases op with
  | globalVar decl => exact declareGlobal_abortReports decl
  | localVar decl => exact .of_reports (declareLocal_reports decl)
  | function decl =>
    intro s abort t run
    rw [act, discard_eq_bind, exec_bind] at run
    rcases read : exec (declareFunction entry decl) s with ⟨early | answer, mid⟩
    · rw [read] at run
      obtain ⟨-, rfl⟩ := Prod.mk.inj run
      exact declareFunction_abortReports entry decl s early mid read
    · rw [read] at run
      cases run
  | check e => exact .of_reports (checkExpr_reports e)
  | statement s => exact .of_reports (statement_reports s)

theorem Operation.keepsFrame (entry : Text) (op : Operation) : KeepsFrame (op.act entry) := by
  cases op with
  | globalVar decl => exact declareGlobal_keepsFrame decl
  | localVar decl => exact declareLocal_keepsFrame decl
  | function decl => exact topLevel_keepsFrame entry (.function decl)
  | check e => exact checkExpr_keepsFrame e
  | statement s => exact statement_keepsFrame s

end Scan

/-! ## Frames through a walk -/

/-- A frame differs from an earlier one at most in what its function has gained and in the control
structures that it has entered since. -/
structure Frame.Deepens (f g : Frame) : Prop where
  nesting : f.nesting <+: g.nesting
  function : f.FunctionGrowsTo f.nesting.length g

namespace Frame.Deepens

theorem refl (f : Frame) : f.Deepens f := ⟨List.prefix_refl _, .refl _ f⟩

theorem trans {f g h : Frame} (first : f.Deepens g) (second : g.Deepens h) : f.Deepens h where
  nesting := first.nesting.trans second.nesting
  function := first.function.trans (second.function.mono first.nesting.length_le)

theorem of_growsTo {f g : Frame} (grows : f.GrowsTo g) : f.Deepens g where
  nesting := grows.nesting ▸ List.prefix_refl _
  function := grows.function

end Frame.Deepens

namespace Session

/-- The open frames, the innermost first. -/
def frames (s : Session) : List OpenFrame := s.current :: s.outer

/-- The numbers tell the open frames apart, and later frames get numbers of their own. -/
structure Valid (s : Session) : Prop where
  distinct : (s.frames.map (·.number)).Nodup
  numbered : ∀ f ∈ s.frames, f.number ≤ s.opened

/-- The frames that are open in both of two states of a session are related. -/
structure Keeps (P : Frame → Frame → Prop) (s t : Session) : Prop where
  valid : t.Valid
  opened : s.opened ≤ t.opened
  kept : ∀ g ∈ t.frames, g.number ≤ s.opened →
    ∃ f ∈ s.frames, f.number = g.number ∧ P f.frame g.frame

namespace Keeps

variable {P Q : Frame → Frame → Prop} {s t u : Session}

theorem refl (reflexive : ∀ f, P f f) (valid : s.Valid) : s.Keeps P s where
  valid := valid
  opened := Nat.le_refl _
  kept g member _ := ⟨g, member, rfl, reflexive g.frame⟩

theorem trans (transitive : ∀ {f g h}, P f g → P g h → P f h) (first : s.Keeps P t)
    (second : t.Keeps P u) : s.Keeps P u where
  valid := second.valid
  opened := Nat.le_trans first.opened second.opened
  kept h member old := by
    obtain ⟨g, between, same, related⟩ :=
      second.kept h member (Nat.le_trans old first.opened)
    obtain ⟨f, before, same', related'⟩ := first.kept g between (same ▸ old)
    exact ⟨f, before, same'.trans same, transitive related' related⟩

theorem mono (keeps : s.Keeps P t) (weaker : ∀ {f g}, P f g → Q f g) : s.Keeps Q t where
  valid := keeps.valid
  opened := keeps.opened
  kept g member old := by
    obtain ⟨f, before, same, related⟩ := keeps.kept g member old
    exact ⟨f, before, same, weaker related⟩

/-- A scan on the innermost frame. -/
theorem withScan (reflexive : ∀ f, P f f) {after : ScanState} (valid : s.Valid)
    (related : P s.current.frame after.frame) : s.Keeps P (s.withScan after) where
  valid := by
    constructor
    · exact valid.distinct
    · intro g member
      rcases List.mem_cons.1 member with rfl | outer
      · exact valid.numbered s.current List.mem_cons_self
      · exact valid.numbered g (List.mem_cons_of_mem _ outer)
  opened := Nat.le_refl _
  kept g member _ := by
    rcases List.mem_cons.1 member with rfl | outer
    · exact ⟨s.current, List.mem_cons_self, rfl, related⟩
    · exact ⟨g, List.mem_cons_of_mem _ outer, rfl, reflexive g.frame⟩

end Keeps

/-- A control structure is entered in the innermost frame alone. -/
theorem inside_deepens {s : Session} (head : ControlHead) (valid : s.Valid) :
    s.Keeps Frame.Deepens (s.inside head) := by
  apply Keeps.withScan Frame.Deepens.refl valid
  constructor
  · exact s.scanState.openControl_nesting head
  · exact s.scanState.openControl_grows head

@[simp] theorem leaveControl_frames (number : Nat) (s : Session) :
    (leaveControl number s).frames = s.frames.map fun f =>
      if f.number = number then
        { f with frame := { f.frame with nesting := f.frame.nesting.dropLast } }
      else f := rfl

/-- Leaving a control structure takes no frame and no number away. -/
theorem leaveControl_numbers (number : Nat) (s : Session) :
    (leaveControl number s).frames.map (·.number) = s.frames.map (·.number) := by
  rw [leaveControl_frames, List.map_map]
  apply List.map_congr_left
  intro f _
  rw [Function.comp_apply]
  split
  · rfl
  · rfl

theorem Valid.of_numbers {s t : Session} (valid : s.Valid)
    (same : t.frames.map (·.number) = s.frames.map (·.number)) (opened : t.opened = s.opened) :
    t.Valid where
  distinct := same ▸ valid.distinct
  numbered g member := by
    have among : g.number ∈ s.frames.map (·.number) := same ▸ List.mem_map_of_mem member
    obtain ⟨f, before, number⟩ := List.mem_map.1 among
    rw [opened, ← number]
    exact valid.numbered f before

/-- Of the open frames only the innermost has its number. -/
theorem Valid.outer_ne {s : Session} (valid : s.Valid) {f : OpenFrame} (member : f ∈ s.outer) :
    f.number ≠ s.current.number := by
  intro same
  have distinct := valid.distinct
  rw [frames, List.map_cons, List.nodup_cons] at distinct
  exact distinct.1 (same ▸ List.mem_map_of_mem member)

/-- The frame that a control structure was entered in, somewhere inside the control structure. -/
theorem Keeps.tracked {P : Frame → Frame → Prop} {s t : Session} {head : ControlHead}
    (valid : s.Valid) (keeps : (s.inside head).Keeps P t) {g : OpenFrame} (member : g ∈ t.frames)
    (own : g.number = s.current.number) :
    P (s.scanState.openControl head).frame g.frame := by
  have old : g.number ≤ (s.inside head).opened := own ▸ valid.numbered _ List.mem_cons_self
  obtain ⟨f, before, same, related⟩ := keeps.kept g member old
  rcases List.mem_cons.1 before with rfl | outer
  · exact related
  · exact absurd (same.trans own) (valid.outer_ne outer)

/-- The frame that a control structure was entered in, when it has been left. -/
theorem Keeps.left {s t : Session} {head : ControlHead} (valid : s.Valid)
    (keeps : (s.inside head).Keeps Frame.GrowsTo t) {g : OpenFrame}
    (member : g ∈ (leaveControl s.current.number t).frames) (own : g.number = s.current.number) :
    g.frame.nesting = s.current.frame.nesting ∧
      (s.scanState.openControl head).frame.FunctionGrowsTo
        (s.scanState.openControl head).frame.nesting.length g.frame := by
  rw [leaveControl_frames, List.mem_map] at member
  obtain ⟨g, among, rfl⟩ := member
  by_cases same : g.number = s.current.number
  · have grows := keeps.tracked valid among same
    rw [if_pos same]
    refine ⟨?_, grows.function⟩
    change g.frame.nesting.dropLast = _
    rw [grows.nesting]
    exact List.dropLast_concat
  · rw [if_neg same] at own
    exact absurd own same

/-- A frame that is opened gets a number that no open frame has. -/
theorem Valid.opening {s : Session} (valid : s.Valid) (fresh : Function) :
    (s.opening fresh).Valid where
  distinct := by
    change ((s.opened + 1) :: s.frames.map OpenFrame.number).Nodup
    rw [List.nodup_cons]
    refine ⟨?_, valid.distinct⟩
    intro old
    obtain ⟨f, member, same⟩ := List.mem_map.1 old
    exact Nat.ne_of_lt (Nat.lt_succ_of_le (valid.numbered f member)) same
  numbered g member := by
    rcases List.mem_cons.1 member with rfl | old
    · exact Nat.le_refl _
    · exact Nat.le_succ_of_le (valid.numbered g old)

section Changes

variable {P : Frame → Frame → Prop} {s t : Session}

theorem Keeps.opening (reflexive : ∀ f, P f f) (valid : s.Valid) (fresh : Function) :
    s.Keeps P (s.opening fresh) where
  valid := valid.opening fresh
  opened := Nat.le_succ _
  kept g member old := by
    rcases List.mem_cons.1 member with rfl | before
    · exact absurd old (Nat.not_succ_le_self _)
    · exact ⟨g, before, rfl, reflexive g.frame⟩

theorem Keeps.closing (reflexive : ∀ f, P f f) (valid : s.Valid) (register : Bool) :
    s.Keeps P (s.closing register) := by
  rcases s with ⟨symbols, current, _ | ⟨next, outer⟩, opened, entries, shown⟩
  · exact .refl reflexive valid
  constructor
  · constructor
    · exact (List.nodup_cons.1 valid.distinct).2
    · intro g member
      exact valid.numbered g (List.mem_cons_of_mem _ member)
  · exact Nat.le_refl _
  · intro g member _
    exact ⟨g, List.mem_cons_of_mem _ member, rfl, reflexive g.frame⟩

/-- What holds inside a control structure holds around it: the frame that it was entered in has its
nesting back, and the others are as they were inside. -/
theorem Keeps.around {head : ControlHead} (valid : s.Valid)
    (keeps : (s.inside head).Keeps Frame.GrowsTo t) :
    s.Keeps Frame.GrowsTo (leaveControl s.current.number t) where
  valid := keeps.valid.of_numbers (leaveControl_numbers _ t) rfl
  opened := keeps.opened
  kept g member old := by
    by_cases own : g.number = s.current.number
    · obtain ⟨nesting, grows⟩ := keeps.left valid member own
      have within := (s.scanState.openControl_nesting head).length_le
      exact ⟨s.current, List.mem_cons_self, own.symm, nesting,
        (s.scanState.openControl_grows head).trans (grows.mono within)⟩
    · rw [leaveControl_frames, List.mem_map] at member
      obtain ⟨g, among, rfl⟩ := member
      split at own
      next same => exact absurd same own
      next other =>
        rw [if_neg other] at old ⊢
        obtain ⟨f, before, same, grows⟩ := keeps.kept g among old
        rcases List.mem_cons.1 before with rfl | outer
        · exact absurd same.symm other
        · exact ⟨f, List.mem_cons_of_mem _ outer, same, grows⟩

end Changes

/-- Across every step of a session the frames that stay open keep their nesting, and their
functions at most gain something. -/
theorem spans_keeps : Spans fun s t => s.Valid → s.Keeps Frame.GrowsTo t where
  refl _ valid := .refl .refl valid
  trans first second valid :=
    (first valid).trans .trans (second (first valid).valid)
  scan grows valid := .withScan .refl valid grows.frame
  opening fresh _ valid := .opening .refl valid fresh
  closing register _ valid := .closing .refl valid register
  note _ _ _ valid :=
    ⟨valid.of_numbers rfl rfl, Nat.le_refl _, fun g member _ => ⟨g, member, rfl, .refl g.frame⟩⟩
  track inside valid := (inside (inside_deepens _ valid).valid).around valid

/-- On the way through some steps from the state `s` the step `step` is taken, in the state `u`. -/
inductive Takes (entry : Text) : Bool → List Step → Session → Step → Session → Prop where
  | here {rethrow step rest s} : Takes entry rethrow (step :: rest) s step s
  | inside {rethrow head rethrow' steps rest s step u}
      (within : Takes entry rethrow' steps (s.inside head) step u) :
      Takes entry rethrow (.track head rethrow' steps :: rest) s step u
  | noted {first rest s step u}
      (later : Takes entry false rest
        (note first (exec (take entry first) s).1 (exec (take entry first) s).2) step u) :
      Takes entry false (first :: rest) s step u
  | returned {first rest s t answer step u} (run : exec (take entry first) s = (.ok answer, t))
      (later : Takes entry true rest t step u) : Takes entry true (first :: rest) s step u

variable {entry : Text} {rethrow : Bool} {steps rest : List Step} {s u : Session} {step : Step}

/-- On the way through a walk the frames that are open throughout at most deepen. -/
theorem Takes.deepens (taken : Takes entry rethrow steps s step u) (valid : s.Valid) :
    s.Keeps Frame.Deepens u := by
  induction taken with
  | here => exact .refl .refl valid
  | @inside _ head _ _ _ _ _ _ within ih =>
    have entered := inside_deepens head valid
    exact entered.trans .trans (ih entered.valid)
  | @noted first rest s step u later ih =>
    have keeps := spans_keeps.take entry first s valid
    have noted := spans_keeps.note first (exec (take entry first) s).1 _ keeps.valid
    exact ((keeps.trans .trans noted).mono .of_growsTo).trans .trans (ih noted.valid)
  | @returned first rest s t answer step u run later ih =>
    have keeps := spans_keeps.take entry first s valid
    rw [run] at keeps
    exact (keeps.mono .of_growsTo).trans .trans (ih keeps.valid)

/-- What is taken on the way through one step is taken on the way through steps that begin
with it. -/
theorem Takes.first {first : Step} (taken : Takes entry rethrow [first] s step u) :
    Takes entry rethrow (first :: rest) s step u := by
  cases taken with
  | here => exact .here
  | inside within => exact .inside within
  | noted later => cases later
  | returned run later => cases later

/-- The walk closes the frame of a number. -/
def Closes (entry : Text) (rethrow : Bool) (steps : List Step) (s : Session) (number : Nat) : Prop :=
  ∃ register u, Takes entry rethrow steps s (.leave register) u ∧ u.outer ≠ [] ∧
    u.current.number = number

theorem Closes.first {first : Step} {number : Nat} (closes : Closes entry rethrow [first] s number) :
    Closes entry rethrow (first :: rest) s number := by
  obtain ⟨register, u, taken, outer, own⟩ := closes
  exact ⟨register, u, taken.first, outer, own⟩

/-- A scanning step opens and closes no frame. -/
theorem numbers_scan {α β : Type} (act : Scan α) (answer : α → β) (s : Session) :
    (exec (scan act >>= fun a => pure (answer a)) s).2.frames.map (·.number) =
      s.frames.map (·.number) := by
  rw [exec_scan_answer]
  rfl

mutual

/-- A frame that is open before a step is open behind it, unless the step closes it. -/
theorem open_or_closes (entry : Text) (rethrow : Bool) (number : Nat) :
    ∀ (step : Step) (s : Session), number ∈ s.frames.map (·.number) →
      number ∈ (exec (take entry step) s).2.frames.map (·.number) ∨
        Closes entry rethrow [step] s number
  | .enter name returnType line, s, isOpen => by
    left
    rw [take, exec_bind, exec_enter]
    cases ValueType.ofSpelling? returnType with
    | some type => exact List.mem_cons_of_mem _ isOpen
    | none => exact isOpen
  | .leave register, s, isOpen => by
    rw [exec_leave]
    cases outer : s.outer with
    | nil =>
      left
      rwa [closing, outer]
    | cons next rest =>
      rw [frames, List.map_cons, List.mem_cons] at isOpen
      rcases isOpen with own | behind
      · right
        exact ⟨register, s, .here, by simp [outer], own.symm⟩
      · left
        rwa [closing, outer, frames, List.map_cons, ← List.map_cons (f := _), ← outer]
  | .globalVar decl, s, isOpen => .inl (numbers_scan (Scan.declareGlobal decl) _ s ▸ isOpen)
  | .localVar decl, s, isOpen => .inl (numbers_scan (Scan.declareLocal decl) _ s ▸ isOpen)
  | .function decl, s, isOpen => .inl (numbers_scan (Scan.declareFunction entry decl) _ s ▸ isOpen)
  | .validate e, s, isOpen => .inl (numbers_scan (Scan.checkExpr e) _ s ▸ isOpen)
  | .statement st, s, isOpen => .inl (numbers_scan (Scan.statement st) _ s ▸ isOpen)
  | .top node, s, isOpen => .inl (numbers_scan (Scan.topLevel entry node) _ s ▸ isOpen)
  | .report line message, s, isOpen =>
    .inl (numbers_scan (Scan.report line (.remark message)) (fun _ => Answer.nothing) s ▸ isOpen)
  | .finish, s, isOpen => .inl (numbers_scan (Scan.finish entry) _ s ▸ isOpen)
  | .lookup name, s, isOpen => .inl isOpen
  | .classify name body, s, isOpen => .inl isOpen
  | .track head rethrow' steps, s, isOpen => by
    have within := open_or_closes_all entry rethrow' number steps (s.inside head) isOpen
    rw [exec_track, leaveControl_numbers]
    rcases within with still | ⟨register, u, taken, outer, own⟩
    · exact .inl still
    · exact .inr ⟨register, u, .inside taken, outer, own⟩

theorem open_or_closes_all (entry : Text) (rethrow : Bool) (number : Nat) :
    ∀ (steps : List Step) (s : Session), number ∈ s.frames.map (·.number) →
      number ∈ (exec (walk entry rethrow steps) s).2.frames.map (·.number) ∨
        Closes entry rethrow steps s number
  | [], s, isOpen => by
    left
    cases rethrow with
    | true => exact isOpen
    | false => exact isOpen
  | step :: rest, s, isOpen => by
    rcases open_or_closes entry rethrow number step s isOpen with still | closes
    · cases rethrow with
      | true =>
        change number ∈ (exec (take.takeAll entry (step :: rest)) s).2.frames.map _ ∨ _
        rw [exec_takeAll_cons]
        rcases run : exec (take entry step) s with ⟨abort | answer, t⟩
        · rw [run] at still
          exact .inl still
        · rw [run] at still
          rcases open_or_closes_all entry true number rest t still with still | closes
          · exact .inl still
          · obtain ⟨register, u, taken, outer, own⟩ := closes
            exact .inr ⟨register, u, .returned run taken, outer, own⟩
      | false =>
        change number ∈ (exec (take.noteAll entry (step :: rest)) s).2.frames.map _ ∨ _
        rw [exec_noteAll_cons]
        let noted := note step (exec (take entry step) s).1 (exec (take entry step) s).2
        rcases open_or_closes_all entry false number rest noted still with still | closes
        · exact .inl still
        · obtain ⟨register, u, taken, outer, own⟩ := closes
          exact .inr ⟨register, u, .noted taken, outer, own⟩
    · exact .inr closes.first

end

/-- The function of a frame, if it has one, has gained a control structure; what it has gained
behind it is further in, so that it is there once. -/
def Gains (own : ControlStructure) (f g : Frame) : Prop :=
  Option.Rel (fun f g => ∃ inner, g.controls = f.controls ++ own :: inner ∧
    ∀ c ∈ inner, own.depth < c.depth) f.function? g.function?

/-- What a frame gains inside a control structure comes behind the control structure. -/
theorem gains_of_grows {s : ScanState} {head : ControlHead} {g : Frame}
    (grows : (s.openControl head).frame.FunctionGrowsTo
      (s.openControl head).frame.nesting.length g) :
    Gains (head.atDepth s.frame.nesting.length) s.frame g := by
  have deeper : (s.openControl head).frame.nesting.length = s.frame.nesting.length + 1 :=
    List.length_append
  rw [deeper] at grows
  unfold Frame.FunctionGrowsTo at grows
  unfold Gains
  rcases s with ⟨symbols, function?, nesting⟩
  cases function? with
  | none =>
    generalize g.function? = after at grows ⊢
    cases grows
    exact .none
  | some f =>
    generalize g.function? = after at grows ⊢
    cases grows with
    | some grows =>
      obtain ⟨inner, gained, deep⟩ := grows.controls
      refine .some ⟨inner, ?_, deep⟩
      rw [gained]
      exact List.append_assoc _ _ _

/-- Operations that are cut short leave the tables and the nesting intact. If an operation on any
node is cut short, in whatever state, then globals and functions are as before, diagnostics have
at most been added, the nesting is as before, and the function that the scan stands in has at most
gained locals and control structures.

Whatever steps are taken inside a control structure, and whether they return or are cut short, the
frame that it was entered in has its nesting back at the end, and its function has gained the
control structure once. If the steps close that frame, the function had gained it once by
then. -/
theorem cut_short_intact (entry : Text) :
    (∀ (op : Scan.Operation) (s t : ScanState) (abort : Abort),
      Scan.exec (op.act entry) s = (.error abort, t) →
      t.symbols.globals = s.symbols.globals ∧ t.symbols.functions = s.symbols.functions ∧
      s.symbols.diagnostics <+: t.symbols.diagnostics ∧ s.frame.GrowsTo t.frame) ∧
    ∀ (s : Session) (head : ControlHead) (rethrow : Bool) (steps : List Step), s.Valid →
      let own := head.atDepth s.current.frame.nesting.length
      let behind := (exec (take entry (.track head rethrow steps)) s).2
      (∀ g ∈ behind.frames, g.number = s.current.number →
        g.frame.nesting = s.current.frame.nesting ∧ Gains own s.current.frame g.frame) ∧
      (∀ register u, Takes entry rethrow steps (s.inside head) (.leave register) u →
        u.current.number = s.current.number → Gains own s.current.frame u.current.frame) ∧
      (s.current.number ∈ behind.frames.map (·.number) ∨
        Closes entry rethrow steps (s.inside head) s.current.number) := by
  constructor
  · intro op s t abort run
    obtain ⟨found, reported⟩ := op.abortReports entry s abort t run
    have frame := op.keepsFrame entry s
    rw [run] at frame
    rw [reported]
    exact ⟨rfl, rfl, List.prefix_append _ _, frame⟩
  · intro s head rethrow steps valid own behind
    have entered := inside_deepens head valid
    have run : behind = leaveControl s.current.number
        (exec (walk entry rethrow steps) (s.inside head)).2 :=
      congrArg Prod.snd (exec_track entry head rethrow steps s)
    have keeps := spans_keeps.walk entry rethrow steps (s.inside head) entered.valid
    rw [run]
    refine ⟨?_, ?_, ?_⟩
    · intro g member same
      obtain ⟨nesting, grows⟩ := keeps.left valid member same
      exact ⟨nesting, gains_of_grows grows⟩
    · intro register u taken same
      have deepens := (taken.deepens entered.valid).tracked valid List.mem_cons_self same
      exact gains_of_grows deepens.function
    · rw [leaveControl_numbers]
      exact open_or_closes_all entry rethrow s.current.number steps (s.inside head)
        List.mem_cons_self

/-- A loop in a function with a statement of unknown kind behind a declaration; and a control
structure in the same function, inside which a function is opened and closed, a further control
structure is entered and an expression of unknown kind cuts it short. -/
theorem cut_short_intact_loop :
    let place (line : Int) : Span := ⟨⟨line, 1⟩, ⟨line, 1⟩⟩
    let f : Function := { name := "f", returnType := .void, line := 1 }
    let loop : Stmt := .whileLoop (.identifier ⟨"a", place 2⟩ "a")
      ⟨[.var ⟨"int", "b", none, place 3⟩, .foreign "GotoStmt" (place 4)], place 2⟩ (place 2)
    let head : ControlHead := ⟨.whileLoop, place 2, "a"⟩
    let steps : List Step := [.enter "g" "int" 3, .leave true,
      .track ⟨.branch, place 4, "b"⟩ true [.validate (.foreign ⟨"x", place 5⟩ "AwaitExpr")]]
    let s : Session := { current := ⟨1, ⟨some f, []⟩⟩, outer := [⟨0, {}⟩], opened := 1 }
    let behind := (exec (take "main" (.track head true steps)) s).2
    (∃ abort t, Scan.exec (Scan.Operation.act "main" (.statement loop)) s.scanState =
        (.error abort, t) ∧
      t.symbols.functions = [] ∧ s.current.frame.GrowsTo t.frame ∧
      t.frame.function?.map (fun f => (f.locals.length, f.controls.length)) = some (1, 1)) ∧
    s.Valid ∧
    (∀ g ∈ behind.frames, g.number = 1 →
      g.frame.nesting = [] ∧ Gains (head.atDepth 0) s.current.frame g.frame) ∧
    behind.frames.map (fun g => (g.number, g.frame.nesting.length,
      g.frame.function?.map (·.controls.length))) = [(1, 0, some 2), (0, 0, none)] ∧
    behind.symbols.functions.map (·.line) = [3] := by
  intro place f loop head steps s behind
  have valid : s.Valid := by
    constructor
    · decide
    · decide
  obtain ⟨abort, t, run⟩ : ∃ abort t,
    Scan.exec (Scan.Operation.act "main" (.statement loop)) s.scanState = (.error abort, t) :=
    ⟨_, _, rfl⟩
  obtain ⟨-, functions, -, frame⟩ := (cut_short_intact "main").1 _ _ _ _ run
  obtain ⟨left, -, -⟩ := (cut_short_intact "main").2 s head true steps valid
  have gained : (Scan.exec (Scan.Operation.act "main" (.statement loop))
      s.scanState).2.frame.function?.map (fun f => (f.locals.length, f.controls.length)) =
      some (1, 1) := by
    decide +kernel
  rw [run] at gained
  refine ⟨⟨abort, t, run, functions, frame, gained⟩, valid, left, ?_, ?_⟩
  · decide +kernel
  · decide +kernel

end Session

end ProcCheck
