import ProcCheck.Proofs.Analysis.Footprint

/-!
# What a step of a scan leaves of its frame

A step may add to the function that the scan stands in, and it enters and leaves control
structures. Events are the only steps that do the latter one at a time: over a whole statement
they balance, and where a statement is cut short the nesting is taken back. So the frame behind
an operation differs from the frame before it at most in what its function has gained.
-/

namespace ProcCheck

/-! ## Functions and frames that have grown -/

/-- The function `g` is `f` with further locals and further control structures at the ends, the
latter inside at least `depth` others. -/
structure Function.GrowsTo (depth : Nat) (f g : Function) : Prop where
  rest : { g with locals := f.locals, controls := f.controls } = f
  locals : f.locals <+: g.locals
  controls : ∃ more, g.controls = f.controls ++ more ∧ ∀ c ∈ more, depth ≤ c.depth

namespace Function.GrowsTo

variable {depth : Nat} {f g h : Function}

theorem refl (depth : Nat) (f : Function) : f.GrowsTo depth f where
  rest := rfl
  locals := List.prefix_refl _
  controls := ⟨[], (List.append_nil _).symm, fun _ member => absurd member List.not_mem_nil⟩

theorem trans (first : f.GrowsTo depth g) (second : g.GrowsTo depth h) : f.GrowsTo depth h where
  rest := by
    have same := second.rest
    rw [← first.rest, ← same]
  locals := first.locals.trans second.locals
  controls := by
    obtain ⟨more, grown, deep⟩ := first.controls
    obtain ⟨more', grown', deep'⟩ := second.controls
    refine ⟨more ++ more', by rw [grown', grown, List.append_assoc], ?_⟩
    intro c member
    rcases List.mem_append.1 member with member | member
    · exact deep c member
    · exact deep' c member

theorem mono {outer : Nat} (grows : f.GrowsTo depth g) (le : outer ≤ depth) :
    f.GrowsTo outer g where
  rest := grows.rest
  locals := grows.locals
  controls := by
    obtain ⟨more, grown, deep⟩ := grows.controls
    exact ⟨more, grown, fun c member => Nat.le_trans le (deep c member)⟩

theorem name (grows : f.GrowsTo depth g) : g.name = f.name := (congrArg Function.name grows.rest :)

theorem returnType (grows : f.GrowsTo depth g) : g.returnType = f.returnType :=
  (congrArg Function.returnType grows.rest :)

theorem line (grows : f.GrowsTo depth g) : g.line = f.line := (congrArg Function.line grows.rest :)

theorem parameters (grows : f.GrowsTo depth g) : g.parameters = f.parameters :=
  (congrArg Function.parameters grows.rest :)

theorem addLocal (depth : Nat) (f : Function) (v : Variable) :
    f.GrowsTo depth { f with locals := f.locals ++ [v] } where
  rest := rfl
  locals := List.prefix_append _ _
  controls := (refl depth f).controls

theorem addControl (f : Function) {control : ControlStructure} (deep : depth ≤ control.depth) :
    f.GrowsTo depth { f with controls := f.controls ++ [control] } where
  rest := rfl
  locals := List.prefix_refl _
  controls := by
    refine ⟨[control], rfl, ?_⟩
    intro c member
    rwa [List.mem_singleton.1 member]

end Function.GrowsTo

/-- The function of a frame, if it has one, has grown. -/
abbrev Frame.FunctionGrowsTo (depth : Nat) (f g : Frame) : Prop :=
  Option.Rel (Function.GrowsTo depth) f.function? g.function?

/-- A frame differs from an earlier one at most in what its function has gained, all of it inside
the control structures that the frame is in. -/
structure Frame.GrowsTo (f g : Frame) : Prop where
  nesting : g.nesting = f.nesting
  function : f.FunctionGrowsTo f.nesting.length g

namespace Frame

variable {depth : Nat} {f g h : Frame}

theorem FunctionGrowsTo.refl (depth : Nat) (f : Frame) : f.FunctionGrowsTo depth f := by
  unfold FunctionGrowsTo
  cases f.function? with
  | none => exact .none
  | some function => exact .some (.refl depth function)

theorem FunctionGrowsTo.trans (first : f.FunctionGrowsTo depth g)
    (second : g.FunctionGrowsTo depth h) : f.FunctionGrowsTo depth h := by
  unfold FunctionGrowsTo at *
  generalize f.function? = before, g.function? = between, h.function? = behind at *
  cases first with
  | none => exact second
  | some first =>
    cases second with
    | some second => exact .some (first.trans second)

theorem FunctionGrowsTo.mono {outer : Nat} (grows : f.FunctionGrowsTo depth g)
    (le : outer ≤ depth) : f.FunctionGrowsTo outer g := by
  unfold FunctionGrowsTo at *
  generalize f.function? = before, g.function? = behind at *
  cases grows with
  | none => exact .none
  | some grows => exact .some (grows.mono le)

/-- What a change that makes functions grow does to the function of a frame. -/
theorem FunctionGrowsTo.map {change : Function → Function}
    (grows : ∀ function : Function, function.GrowsTo depth (change function))
    (function? : Option Function) : Option.Rel (Function.GrowsTo depth) function?
      (function?.map change) := by
  cases function? with
  | none => exact .none
  | some function => exact .some (grows function)

theorem GrowsTo.refl (f : Frame) : f.GrowsTo f where
  nesting := rfl
  function := .refl _ f

theorem GrowsTo.trans (first : f.GrowsTo g) (second : g.GrowsTo h) : f.GrowsTo h where
  nesting := second.nesting.trans first.nesting
  function := first.function.trans (first.nesting ▸ second.function)

end Frame

/-- Later tables hold the earlier ones, and the frame differs at most in what its function has
gained. -/
structure ScanState.GrowsTo (s t : ScanState) : Prop where
  symbols : s.symbols.GrowsTo t.symbols
  frame : s.frame.GrowsTo t.frame

theorem ScanState.openControl_nesting (s : ScanState) (head : ControlHead) :
    s.frame.nesting <+: (s.openControl head).frame.nesting := List.prefix_append _ _

/-- A control structure that is entered is recorded with the function. -/
theorem ScanState.openControl_grows (s : ScanState) (head : ControlHead) :
    s.frame.FunctionGrowsTo s.frame.nesting.length (s.openControl head).frame :=
  Frame.FunctionGrowsTo.map
    (fun f => Function.GrowsTo.addControl f (Nat.le_refl s.frame.nesting.length)) _

namespace Scan

variable {α β : Type}

/-- A step keeps its frame, but for what the function of the frame gains, also if it is cut
short. -/
def KeepsFrame (x : Scan α) : Prop := ∀ s : ScanState, s.frame.GrowsTo (exec x s).2.frame

namespace KeepsFrame

/-! ## Steps that enter no control structure -/

theorem ofSame {x : Scan α} (same : ∀ s, (exec x s).2.frame = s.frame) : KeepsFrame x := by
  intro s
  rw [same s]
  exact Frame.GrowsTo.refl _

theorem bind {x : Scan α} {f : α → Scan β} (first : KeepsFrame x)
    (second : ∀ a, KeepsFrame (f a)) : KeepsFrame (x >>= f) := by
  intro s
  have grown := first s
  rw [exec_bind]
  rcases run : exec x s with ⟨abort | a, t⟩
  · rwa [run] at grown
  · rw [run] at grown
    exact grown.trans (second a t)

theorem look {f : ScanState → Scan α} (each : ∀ s, KeepsFrame (f s)) : KeepsFrame (get >>= f) := by
  intro s
  rw [exec_bind_ok (exec_get s)]
  exact each s s

theorem mapFunction {change : Function → Function}
    (grows : ∀ depth (f : Function), f.GrowsTo depth (change f)) :
    KeepsFrame (modify (·.mapFunction change)) := by
  intro s
  constructor
  · rfl
  · exact Frame.FunctionGrowsTo.map (grows _) s.frame.function?

theorem inFrame (frame : Frame) (act : Scan α) : KeepsFrame (inFrame frame act) := by
  apply ofSame
  intro s
  rw [Scan.inFrame, exec_bind_ok (exec_get s), exec_bind_ok (exec_modify _ s), exec_tryCatch]
  rcases run : exec act { s with frame } with ⟨abort | a, t⟩
  · simp only [exec_bind, run, exec_modify, exec_throw]
  · simp only [exec_bind, run, exec_modify, exec_pure]

end KeepsFrame

theorem resolveType_keepsFrame (spelling : Text) : KeepsFrame (resolveType spelling) := by
  apply KeepsFrame.ofSame
  intro s
  unfold resolveType
  cases ValueType.ofSpelling? spelling with
  | none => rfl
  | some type => rfl

theorem checkExpr_keepsFrame (e : Expr) : KeepsFrame (checkExpr e) := by
  apply KeepsFrame.ofSame
  intro s
  rw [exec_checkExpr_eq]
  rfl

theorem evaluate_keepsFrame (type : ValueType) (init : Option Expr) :
    KeepsFrame (evaluate type init) := by
  cases init with
  | none => exact KeepsFrame.ofSame fun _ => rfl
  | some e =>
    simp only [evaluate]
    split
    · exact KeepsFrame.bind (checkExpr_keepsFrame e) fun _ => KeepsFrame.ofSame fun _ => rfl
    · exact KeepsFrame.ofSame fun _ => rfl

theorem declareGlobal_keepsFrame (decl : VarDecl) : KeepsFrame (declareGlobal decl) := by
  apply KeepsFrame.bind (resolveType_keepsFrame _)
  intro type
  apply KeepsFrame.look
  intro s
  split
  · exact KeepsFrame.ofSame fun _ => rfl
  · apply KeepsFrame.bind (evaluate_keepsFrame type _)
    intro initial
    exact KeepsFrame.ofSame fun _ => rfl

theorem declareLocal_keepsFrame (decl : VarDecl) : KeepsFrame (declareLocal decl) := by
  apply KeepsFrame.look
  intro s
  cases s.frame.function? with
  | none => exact KeepsFrame.ofSame fun _ => rfl
  | some f =>
    apply KeepsFrame.bind (resolveType_keepsFrame _)
    intro type
    split
    · exact KeepsFrame.ofSame fun _ => rfl
    · apply KeepsFrame.bind (evaluate_keepsFrame type _)
      intro initial
      apply KeepsFrame.mapFunction
      intro depth f
      exact .addLocal depth f _

theorem declareFunction_keepsFrame (entry : Text) (decl : FunctionDecl) :
    KeepsFrame (declareFunction entry decl) := by
  apply KeepsFrame.bind (resolveType_keepsFrame _)
  intro type
  apply KeepsFrame.look
  intro s
  split
  · exact KeepsFrame.ofSame fun _ => rfl
  · apply KeepsFrame.bind (KeepsFrame.inFrame _ _)
    intro f
    exact KeepsFrame.ofSame fun _ => rfl

/-! ## Statements -/

/-- A step makes the function of its frame grow by control structures that are inside those around
it, and if it is not cut short it leaves all that it entered. -/
structure Balanced (x : Scan Unit) : Prop where
  function : ∀ s : ScanState,
    s.frame.FunctionGrowsTo s.frame.nesting.length (exec x s).2.frame
  nesting : ∀ s t : ScanState, exec x s = (.ok (), t) → t.frame.nesting = s.frame.nesting

namespace Balanced

theorem of_keepsFrame {x : Scan Unit} (keeps : KeepsFrame x) : Balanced x where
  function s := (keeps s).function
  nesting s t run := by
    have same := (keeps s).nesting
    rwa [run] at same

theorem bind {x y : Scan Unit} (first : Balanced x) (second : Balanced y) :
    Balanced (x >>= fun _ => y) where
  function s := by
    have grown := first.function s
    rw [exec_bind]
    rcases run : exec x s with ⟨abort | ⟨⟩, t⟩
    · rwa [run] at grown
    · rw [run] at grown
      have grown' := second.function t
      rw [first.nesting s t run] at grown'
      exact grown.trans grown'
  nesting s t run := by
    obtain ⟨⟨⟩, mid, runFirst, runSecond⟩ := exec_bind_returns.1 run
    rw [second.nesting mid t runSecond, first.nesting s mid runFirst]

theorem append {l m : List Event} (first : Balanced (l.forM happen))
    (second : Balanced (m.forM happen)) : Balanced ((l ++ m).forM happen) := by
  rw [forM_append]
  exact bind first second

theorem flatMap {γ : Type} {events : γ → List Event} {l : List γ}
    (each : ∀ a ∈ l, Balanced ((events a).forM happen)) :
    Balanced ((l.flatMap events).forM happen) := by
  induction l with
  | nil => exact of_keepsFrame (KeepsFrame.ofSame fun _ => rfl)
  | cons a rest ih =>
    rw [List.flatMap_cons]
    apply append
    · exact each a List.mem_cons_self
    · exact ih fun b member => each b (List.mem_cons_of_mem a member)

theorem singleton {event : Event} (balanced : Balanced (happen event)) :
    Balanced (List.forM [event] happen) :=
  bind balanced (of_keepsFrame (KeepsFrame.ofSame fun _ => rfl))

/-- Events inside a control structure that is entered before and left after them. -/
theorem bracket (head : ControlHead) {inner : List Event} (balanced : Balanced (inner.forM happen)) :
    Balanced ((.enter head :: (inner ++ [.leave])).forM happen) where
  function s := by
    have entered : exec (happen (.enter head)) s = (.ok (), s.openControl head) := rfl
    have grown := s.openControl_grows head
    have inside := balanced.function (s.openControl head)
    have deeper := (s.openControl_nesting head).length_le
    rw [forM_cons, exec_bind_ok entered, forM_append, exec_bind]
    rcases run : exec (inner.forM happen) (s.openControl head) with ⟨abort | ⟨⟩, t⟩
    · rw [run] at inside
      exact grown.trans (inside.mono deeper)
    · rw [run] at inside
      exact grown.trans (inside.mono deeper)
  nesting s t run := by
    have entered : exec (happen (.enter head)) s = (.ok (), s.openControl head) := rfl
    rw [forM_cons, exec_bind_ok entered, forM_append] at run
    obtain ⟨⟨⟩, mid, through, left⟩ := exec_bind_returns.1 run
    have closed : exec (List.forM [Event.leave] happen) mid = (.ok (), mid.closeControl) := rfl
    rw [closed] at left
    cases left
    change mid.frame.nesting.dropLast = _
    rw [balanced.nesting _ _ through]
    exact List.dropLast_concat

end Balanced

theorem check_balanced (e : Expr) : Balanced (List.forM [.check e] happen) :=
  .singleton (.of_keepsFrame (checkExpr_keepsFrame e))

theorem checks_balanced (e? : Option Expr) : Balanced ((e?.toList.map .check).forM happen) := by
  cases e? with
  | none => exact .of_keepsFrame (.ofSame fun _ => rfl)
  | some e => exact check_balanced e

/-- The events of a statement balance. -/
theorem events_balanced (s : Stmt) : Balanced (s.events.forM happen) := by
  have statements (body : Block Stmt) (each : ∀ s ∈ body.statements,
      Balanced (s.events.forM happen)) :
      Balanced ((body.statements.flatMap Stmt.events).forM happen) := .flatMap each
  induction s using Stmt.treeInduction with
  | var decl =>
    rw [Stmt.events]
    exact .singleton (.of_keepsFrame (declareLocal_keepsFrame decl))
  | block body ih =>
    rw [Stmt.events, Stmt.blockEvents_eq]
    exact statements body ih
  | branch condition thenBlock elseBlock span thenIh elseIh =>
    have alternative : Balanced ((Stmt.events.elseEvents elseBlock).forM happen) := by
      rw [Stmt.elseEvents_eq]
      apply Balanced.flatMap
      intro body member
      exact statements body (elseIh body (Option.mem_toList.1 member))
    have inner := Balanced.append (check_balanced condition)
      ((statements thenBlock thenIh).append alternative)
    rw [Stmt.events, Stmt.blockEvents_eq]
    cases elseBlock with
    | none => exact .bracket _ inner
    | some body => exact .bracket _ inner
  | whileLoop condition body span ih =>
    rw [Stmt.events, Stmt.blockEvents_eq]
    exact .bracket _ ((check_balanced condition).append (statements body ih))
  | forLoop init condition update body span initIh ih =>
    have clause : Balanced ((Stmt.events.initEvents init).forM happen) := by
      rw [Stmt.initEvents_eq]
      apply Balanced.flatMap
      intro s member
      exact initIh s (Option.mem_toList.1 member)
    rw [Stmt.events, Stmt.blockEvents_eq]
    exact .bracket _ (((clause.append (checks_balanced condition)).append
      (checks_balanced update)).append (statements body ih))
  | expr e span =>
    rw [Stmt.events]
    exact check_balanced e
  | ret value span =>
    rw [Stmt.events]
    exact checks_balanced value
  | foreign tag span =>
    rw [Stmt.events]
    exact .singleton (.of_keepsFrame (.ofSame fun _ => rfl))

/-- A statement keeps its frame: what it entered and did not leave is taken back. -/
theorem statement_keepsFrame (st : Stmt) : KeepsFrame (statement st) := by
  intro s
  have grown := (events_balanced st).function s
  rw [statement, keepNesting, exec_bind_ok (exec_get s), exec_tryCatch]
  rcases run : exec (st.events.forM happen) s with ⟨abort | ⟨⟩, t⟩
  · rw [run] at grown
    exact ⟨rfl, grown⟩
  · rw [run] at grown
    exact ⟨(events_balanced st).nesting s t run, grown⟩

theorem topLevel_keepsFrame (entry : Text) (node : TopLevel) : KeepsFrame (topLevel entry node) := by
  cases node with
  | global decl => exact declareGlobal_keepsFrame decl
  | function decl =>
    rw [topLevel, discard_eq_bind]
    exact KeepsFrame.bind (declareFunction_keepsFrame entry decl) fun _ =>
      KeepsFrame.ofSame fun _ => rfl
  | statement s => exact statement_keepsFrame s

/-! ## Operations as a whole -/

/-- A step whose tables and frame only grow, whether it returns or is cut short. -/
def Grows (x : Scan α) : Prop := ∀ s : ScanState, s.GrowsTo (exec x s).2

theorem Grows.of {x : Scan α} (adds : Extends x) (keeps : KeepsFrame x) : Grows x := by
  intro s
  obtain ⟨answer, more, frame, -, same⟩ := adds s
  have run := same s (.refl s)
  constructor
  · rw [run]
    exact .append _ _
  · exact keeps s

theorem report_grows (line : Int) (problem : Problem) : Grows (report line problem) :=
  .of (Reports.toExtends (.report line problem)) (.ofSame fun _ => rfl)

theorem checkExpr_grows (e : Expr) : Grows (checkExpr e) :=
  .of (Reports.toExtends (checkExpr_reports e)) (checkExpr_keepsFrame e)

theorem declareGlobal_grows (decl : VarDecl) : Grows (declareGlobal decl) :=
  .of (declareGlobal_extends decl) (declareGlobal_keepsFrame decl)

theorem declareLocal_grows (decl : VarDecl) : Grows (declareLocal decl) :=
  .of (Reports.toExtends (declareLocal_reports decl)) (declareLocal_keepsFrame decl)

theorem declareFunction_grows (entry : Text) (decl : FunctionDecl) :
    Grows (declareFunction entry decl) :=
  .of (declareFunction_extends entry decl) (declareFunction_keepsFrame entry decl)

theorem statement_grows (s : Stmt) : Grows (statement s) :=
  .of (Reports.toExtends (statement_reports s)) (statement_keepsFrame s)

theorem topLevel_grows (entry : Text) (node : TopLevel) : Grows (topLevel entry node) :=
  .of (topLevel_extends entry node) (topLevel_keepsFrame entry node)

theorem finish_grows (entry : Text) : Grows (finish entry) := by
  intro s
  rw [exec_finish]
  constructor
  · rw [ScanState.report, Symbols.append_report]
    exact .append _ _
  · exact .refl _

end Scan

end ProcCheck
