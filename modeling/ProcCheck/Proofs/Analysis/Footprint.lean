import ProcCheck.Proofs.Analysis.Returned

/-!
# What a step of a scan adds

The tables of a scan only grow, at their ends. What a step adds to them, what it answers and the
frame that it leaves depend on little: on the frame, on the global variables and on the names and
the numbers of parameters of the functions. States that agree in these look alike to a scan, and
`Scan.Adds` says of a step that from states that look alike it does the same.
-/

namespace ProcCheck

/-! ## Tables behind tables -/

namespace Symbols

/-- Tables with further entries at their ends. -/
def append (s more : Symbols) : Symbols :=
  ⟨s.globals ++ more.globals, s.functions ++ more.functions, s.diagnostics ++ more.diagnostics⟩

instance : Append Symbols := ⟨append⟩

variable (s t more : Symbols)

@[simp] theorem append_globals : (s ++ more).globals = s.globals ++ more.globals := rfl

@[simp] theorem append_functions : (s ++ more).functions = s.functions ++ more.functions := rfl

@[simp] theorem append_diagnostics :
    (s ++ more).diagnostics = s.diagnostics ++ more.diagnostics := rfl

@[ext] theorem ext {s t : Symbols} (globals : s.globals = t.globals)
    (functions : s.functions = t.functions) (diagnostics : s.diagnostics = t.diagnostics) :
    s = t := by
  cases s
  cases t
  congr

@[simp] theorem append_empty : s ++ ({} : Symbols) = s := by
  apply ext
  · exact List.append_nil _
  · exact List.append_nil _
  · exact List.append_nil _

theorem append_assoc : s ++ t ++ more = s ++ (t ++ more) := by
  apply ext
  · exact List.append_assoc _ _ _
  · exact List.append_assoc _ _ _
  · exact List.append_assoc _ _ _

theorem append_report (found : List Diagnostic) : s.report found = s ++ report {} found := by
  apply ext
  · exact (List.append_nil _).symm
  · exact (List.append_nil _).symm
  · rfl

/-- The tables `s` stand unchanged at the beginning of the tables `t`. -/
structure GrowsTo (s t : Symbols) : Prop where
  globals : s.globals <+: t.globals
  functions : s.functions <+: t.functions
  diagnostics : s.diagnostics <+: t.diagnostics

theorem GrowsTo.refl : s.GrowsTo s where
  globals := List.prefix_refl _
  functions := List.prefix_refl _
  diagnostics := List.prefix_refl _

theorem GrowsTo.append : s.GrowsTo (s ++ more) where
  globals := List.prefix_append _ _
  functions := List.prefix_append _ _
  diagnostics := List.prefix_append _ _

variable {s t}

theorem GrowsTo.trans {u : Symbols} (first : s.GrowsTo t) (second : t.GrowsTo u) :
    s.GrowsTo u where
  globals := first.globals.trans second.globals
  functions := first.functions.trans second.functions
  diagnostics := first.diagnostics.trans second.diagnostics

/-- Only diagnostics are added. -/
structure OnlyReports (more : Symbols) : Prop where
  globals : more.globals = []
  functions : more.functions = []

/-- A bound on what is added: nothing stays within it, and what is added in two parts. -/
structure Bound (R : Symbols → Prop) : Prop where
  empty : R {}
  append : ∀ {a b}, R a → R b → R (a ++ b)

theorem Bound.any : Bound fun _ => True where
  empty := trivial
  append _ _ := trivial

theorem Bound.onlyReports : Bound OnlyReports where
  empty := ⟨rfl, rfl⟩
  append first second := by
    constructor
    · rw [append_globals, first.globals, second.globals, List.append_nil]
    · rw [append_functions, first.functions, second.functions, List.append_nil]

theorem OnlyReports.report (found : List Diagnostic) : OnlyReports (report {} found) := ⟨rfl, rfl⟩

end Symbols

/-! ## States that look alike -/

namespace ScanState

/-- What a scan looks at is the same in two states. -/
structure LooksLike (t s : ScanState) : Prop where
  frame : t.frame = s.frame
  globals : t.symbols.globals = s.symbols.globals
  functions : t.symbols.functions.map (fun f => (f.name, f.parameters.length)) =
    s.symbols.functions.map fun f => (f.name, f.parameters.length)

theorem LooksLike.refl (s : ScanState) : s.LooksLike s := ⟨rfl, rfl, rfl⟩

variable {s t : ScanState}

/-- States go on looking alike when the same is added to both. -/
theorem LooksLike.append (alike : t.LooksLike s) (more : Symbols) (frame : Frame) :
    LooksLike ⟨t.symbols ++ more, frame⟩ ⟨s.symbols ++ more, frame⟩ where
  frame := rfl
  globals := congrArg (· ++ more.globals) alike.globals
  functions := by
    simp only [Symbols.append_functions, List.map_append]
    exact congrArg (· ++ more.functions.map _) alike.functions

/-- States that look alike know the same number of parameters of each function. -/
theorem LooksLike.arity (alike : t.LooksLike s) (name : Text) :
    (t.symbols.function? name).map (·.parameters.length) =
      (s.symbols.function? name).map (·.parameters.length) := by
  have seen (u : ScanState) : (u.symbols.function? name).map (·.parameters.length) =
      ((u.symbols.functions.map fun f => (f.name, f.parameters.length)).find?
        (·.1 = name)).map (·.2) := by
    rw [Symbols.function?, List.find?_map, Option.map_map]
    rfl
  rw [seen, seen, alike.functions]

theorem LooksLike.seesFunction (alike : t.LooksLike s) (name : Text) :
    (t.symbols.function? name).isSome = (s.symbols.function? name).isSome := by
  have arity := congrArg Option.isSome (alike.arity name)
  rwa [Option.isSome_map, Option.isSome_map] at arity

theorem LooksLike.global? (alike : t.LooksLike s) (name : Text) :
    t.symbols.global? name = s.symbols.global? name := by
  rw [Symbols.global?, Symbols.global?, alike.globals]

theorem LooksLike.seesVariable (alike : t.LooksLike s) (name : Text) :
    t.seesVariable name = s.seesVariable name := by
  rw [ScanState.seesVariable, ScanState.seesVariable, alike.frame, alike.global?]

/-- The same is wrong with a node in states that look alike. -/
theorem LooksLike.diagnose (alike : t.LooksLike s) (e : Expr) : t.diagnose e = s.diagnose e := by
  have problem : t.problem? e = s.problem? e := by
    cases e with
    | identifier src name =>
      rw [ScanState.problem?, ScanState.problem?, alike.seesVariable, ScanState.seesFunction,
        alike.seesFunction, ScanState.seesFunction]
    | assign src target value => rw [ScanState.problem?, ScanState.problem?, alike.seesVariable]
    | call src callee args =>
      have arity := alike.arity callee
      simp only [ScanState.problem?]
      rcases left : t.symbols.function? callee with _ | f <;>
        rcases right : s.symbols.function? callee with _ | g <;>
        simp_all
    | intLiteral | floatLiteral | stringLiteral | binary | prefixed | group | foreign => rfl
  rw [ScanState.diagnose, ScanState.diagnose, problem]

end ScanState

namespace Scan

open Symbols (Bound OnlyReports)

variable {α β : Type} {R : Symbols → Prop}

/-- From states that look alike a step adds the same to the tables, something within the bound,
gives the same answer and leaves the same frame. -/
def Adds (R : Symbols → Prop) (x : Scan α) : Prop :=
  ∀ s, ∃ answer more frame, R more ∧
    ∀ t : ScanState, t.LooksLike s → exec x t = (answer, ⟨t.symbols ++ more, frame⟩)

namespace Adds

/-! ## Pieces of steps -/

theorem mono {R' : Symbols → Prop} {x : Scan α} (adds : Adds R x) (wider : ∀ more, R more → R' more) :
    Adds R' x := by
  intro s
  obtain ⟨answer, more, frame, within, same⟩ := adds s
  exact ⟨answer, more, frame, wider more within, same⟩

/-- A step that adds nothing and whose answer and frame depend on the frame alone. -/
theorem ofFrame (bound : Bound R) {x : Scan α} (answer : Frame → Except Abort α)
    (frame : Frame → Frame)
    (run : ∀ s, exec x s = (answer s.frame, { s with frame := frame s.frame })) : Adds R x := by
  intro s
  refine ⟨answer s.frame, {}, frame s.frame, bound.empty, ?_⟩
  intro t alike
  rw [run, alike.frame, Symbols.append_empty]

theorem pure (bound : Bound R) (a : α) : Adds R (pure a) :=
  ofFrame bound (fun _ => .ok a) id fun _ => rfl

theorem throw (bound : Bound R) (abort : Abort) : Adds R (throw abort : Scan α) :=
  ofFrame bound (fun _ => .error abort) id fun _ => rfl

theorem modifyFrame (bound : Bound R) (frame : Frame → Frame) :
    Adds R (modify fun s => { s with frame := frame s.frame }) :=
  ofFrame bound (fun _ => .ok ()) frame fun _ => rfl

/-- A step that adds to the tables without a look at them. -/
theorem ofSymbols {x : Scan Unit} (more : Symbols) (within : R more)
    (run : ∀ s, exec x s = (.ok (), { s with symbols := s.symbols ++ more })) : Adds R x := by
  intro s
  refine ⟨.ok (), more, s.frame, within, ?_⟩
  intro t alike
  rw [run, alike.frame]

theorem report (line : Int) (problem : Problem) : Adds OnlyReports (report line problem) := by
  apply ofSymbols _ (OnlyReports.report [⟨line, problem⟩])
  intro s
  rw [exec_report, ScanState.report, Symbols.append_report]

theorem bind (bound : Bound R) {x : Scan α} {f : α → Scan β} (first : Adds R x)
    (second : ∀ a, Adds R (f a)) : Adds R (x >>= f) := by
  intro s
  obtain ⟨answer, more, frame, within, same⟩ := first s
  cases answer with
  | error abort =>
    refine ⟨.error abort, more, frame, within, ?_⟩
    intro t alike
    rw [exec_bind, same t alike]
  | ok a =>
    obtain ⟨answer, more', frame', within', same'⟩ := second a ⟨s.symbols ++ more, frame⟩
    refine ⟨answer, more ++ more', frame', bound.append within within', ?_⟩
    intro t alike
    rw [exec_bind_ok (same t alike), same' _ (alike.append more frame), Symbols.append_assoc]

/-- A step that begins with a look at the state may go on with what looks the same. -/
theorem look {f : ScanState → Scan α} (each : ∀ s, Adds R (f s))
    (same : ∀ s t : ScanState, t.LooksLike s → f t = f s) : Adds R (get >>= f) := by
  intro s
  obtain ⟨answer, more, frame, within, runs⟩ := each s s
  refine ⟨answer, more, frame, within, ?_⟩
  intro t alike
  rw [exec_bind_ok (exec_get t), same s t alike]
  exact runs t alike

theorem tryCatch (bound : Bound R) {x : Scan α} {f : Abort → Scan α} (body : Adds R x)
    (handler : ∀ abort, Adds R (f abort)) : Adds R (tryCatch x f) := by
  intro s
  obtain ⟨answer, more, frame, within, same⟩ := body s
  cases answer with
  | ok a =>
    refine ⟨.ok a, more, frame, within, ?_⟩
    intro t alike
    rw [exec_tryCatch, same t alike]
  | error abort =>
    obtain ⟨answer, more', frame', within', same'⟩ := handler abort ⟨s.symbols ++ more, frame⟩
    refine ⟨answer, more ++ more', frame', bound.append within within', ?_⟩
    intro t alike
    rw [exec_tryCatch, same t alike]
    change exec (f abort) _ = _
    rw [same' _ (alike.append more frame), Symbols.append_assoc]

theorem forM (bound : Bound R) {f : α → Scan PUnit} (each : ∀ a, Adds R (f a)) (l : List α) :
    Adds R (l.forM f) := by
  induction l with
  | nil => exact pure bound _
  | cons a rest ih => exact bind bound (each a) fun _ => ih

theorem discard (bound : Bound R) {x : Scan α} (adds : Adds R x) : Adds R (discard x) := by
  rw [discard_eq_bind]
  exact bind bound adds fun _ => pure bound _

theorem keepNesting (bound : Bound R) {act : Scan α} (adds : Adds R act) :
    Adds R (keepNesting act) := by
  apply look
  · intro s
    apply tryCatch bound adds
    intro abort
    exact bind bound (modifyFrame bound fun frame => { frame with nesting := s.frame.nesting })
      fun _ => throw bound abort
  · intro s t alike
    rw [alike.frame]

theorem inFrame (bound : Bound R) {frame : Frame} {act : Scan α} (adds : Adds R act) :
    Adds R (inFrame frame act) := by
  apply look
  · intro s
    have back : Adds R (modify fun u : ScanState => { u with frame := s.frame }) :=
      modifyFrame bound fun _ => s.frame
    apply bind bound (modifyFrame bound fun _ => frame)
    intro _
    apply tryCatch bound
    · exact bind bound adds fun a => bind bound back fun _ => pure bound a
    · intro abort
      exact bind bound back fun _ => throw bound abort
  · intro s t alike
    rw [alike.frame]

end Adds

/-! ## Steps that only report -/

/-- A step whose additions are diagnostics. -/
abbrev Reports (x : Scan α) : Prop := Adds OnlyReports x

/-- What a step that only reports leaves in the tables: those before it and what it found. -/
theorem Reports.exec_found {x : Scan α} (reports : Reports x) (s : ScanState) :
    ∃ found, (exec x s).2.symbols = s.symbols.report found := by
  obtain ⟨answer, more, frame, only, same⟩ := reports s
  have reported : more = Symbols.report {} more.diagnostics :=
    Symbols.ext only.globals only.functions rfl
  refine ⟨more.diagnostics, ?_⟩
  rw [same s (.refl s), Symbols.append_report, ← reported]

theorem resolveType_adds (bound : Bound R) (spelling : Text) : Adds R (resolveType spelling) := by
  unfold resolveType
  cases ValueType.ofSpelling? spelling with
  | none => exact Adds.throw bound _
  | some type => exact Adds.pure bound type

/-- What checking an expression reports: the nodes before the first of unknown kind are judged, and
that node cuts the check short. -/
theorem exec_checkExpr_eq (e : Expr) (s : ScanState) :
    exec (checkExpr e) s =
      ((match e.walk.findSome? Expr.foreignTag? with
        | some tag => .error (.foreignExpression tag)
        | none => .ok ()),
        s.report ((e.walk.takeWhile (·.foreignTag?.isNone)).filterMap s.diagnose)) := by
  rw [checkExpr, exec_bind_ok (exec_get s), exec_bind_ok (exec_set s _)]
  cases e.walk.findSome? Expr.foreignTag? with
  | none => rfl
  | some tag => rfl

theorem checkExpr_reports (e : Expr) : Reports (checkExpr e) := by
  intro s
  let found := (e.walk.takeWhile (·.foreignTag?.isNone)).filterMap s.diagnose
  refine ⟨(exec (checkExpr e) s).1, Symbols.report {} found, s.frame, .report found, ?_⟩
  intro t alike
  have judged : t.diagnose = s.diagnose := funext alike.diagnose
  rw [exec_checkExpr_eq, exec_checkExpr_eq, judged, ScanState.report, Symbols.append_report,
    alike.frame]

theorem evaluate_reports (type : ValueType) (init : Option Expr) : Reports (evaluate type init) := by
  cases init with
  | none => exact Adds.pure .onlyReports none
  | some e =>
    simp only [evaluate]
    split
    · exact Adds.bind .onlyReports (checkExpr_reports e) fun _ => Adds.pure .onlyReports none
    · exact Adds.pure .onlyReports _

theorem declareLocal_reports (decl : VarDecl) : Reports (declareLocal decl) := by
  apply Adds.look
  · intro s
    cases s.frame.function? with
    | none => exact Adds.report _ _
    | some f =>
      apply Adds.bind .onlyReports (resolveType_adds .onlyReports _)
      intro type
      split
      · exact Adds.report _ _
      · apply Adds.bind .onlyReports (evaluate_reports type _)
        intro initial
        exact Adds.modifyFrame .onlyReports fun frame =>
          { frame with function? := frame.function?.map fun f =>
            { f with locals := f.locals ++ [⟨decl.name, type, false, decl.span.line, initial⟩] } }
  · intro s t alike
    rw [alike.frame]

theorem declareParam_reports (param : Param) : Reports (declareParam param) := by
  apply Adds.look
  · intro s
    cases s.frame.function? with
    | none => exact Adds.pure .onlyReports ()
    | some f =>
      apply Adds.bind .onlyReports (resolveType_adds .onlyReports _)
      intro type
      split
      · exact Adds.report _ _
      · exact Adds.modifyFrame .onlyReports fun frame =>
          { frame with function? := frame.function?.map fun f =>
            { f with parameters := f.parameters ++ [⟨param.name, type, false, param.span.line, none⟩] } }
  · intro s t alike
    rw [alike.frame]

theorem enterControl_reports (head : ControlHead) : Reports (enterControl head) :=
  Adds.ofFrame .onlyReports (fun frame => .ok (head.atDepth frame.nesting.length))
    (fun frame =>
      let control := head.atDepth frame.nesting.length
      { function? := frame.function?.map fun f => { f with controls := f.controls ++ [control] }
        nesting := frame.nesting ++ [control] })
    fun _ => rfl

theorem happen_reports (event : Event) : Reports (happen event) := by
  cases event with
  | declare decl => exact declareLocal_reports decl
  | check e => exact checkExpr_reports e
  | enter head => exact Adds.discard .onlyReports (enterControl_reports head)
  | leave =>
    exact Adds.modifyFrame .onlyReports fun frame =>
      { frame with nesting := frame.nesting.dropLast }
  | foreign tag => exact Adds.throw .onlyReports _

/-- A statement enters nothing into the tables of globals and functions. -/
theorem statement_reports (s : Stmt) : Reports (statement s) :=
  Adds.keepNesting .onlyReports (Adds.forM .onlyReports happen_reports _)

/-- Reading a function in a frame of its own, before it is registered. -/
theorem function_reports (type : ValueType) (decl : FunctionDecl) :
    let fresh : Function := { name := decl.name, returnType := type, line := decl.span.line }
    Reports (inFrame ⟨some fresh, []⟩ do
      decl.params.forM declareParam
      statement (.block decl.body)
      return (← get).frame.function?.getD fresh) := by
  intro fresh
  apply Adds.inFrame .onlyReports
  apply Adds.bind .onlyReports (Adds.forM .onlyReports declareParam_reports _)
  intro _
  apply Adds.bind .onlyReports (statement_reports _)
  intro _
  apply Adds.look
  · intro s
    exact Adds.pure .onlyReports _
  · intro s t alike
    rw [alike.frame]

/-! ## Steps that enter something into a table -/

/-- A step that adds to the tables, whatever it be. -/
abbrev Extends (x : Scan α) : Prop := Adds (fun _ => True) x

theorem Reports.toExtends {x : Scan α} (reports : Reports x) : Extends x :=
  Adds.mono reports fun _ _ => trivial

theorem addGlobal_extends (declared : Variable) : Extends (modify (·.addGlobal declared)) := by
  apply Adds.ofSymbols ⟨[declared], [], []⟩ trivial
  intro s
  have added : (s.addGlobal declared).symbols = s.symbols ++ ⟨[declared], [], []⟩ :=
    Symbols.ext rfl (List.append_nil _).symm (List.append_nil _).symm
  rw [exec_modify, ← added]
  rfl

theorem addFunction_extends (declared : Function) : Extends (modify (·.addFunction declared)) := by
  apply Adds.ofSymbols ⟨[], [declared], []⟩ trivial
  intro s
  have added : (s.addFunction declared).symbols = s.symbols ++ ⟨[], [declared], []⟩ :=
    Symbols.ext (List.append_nil _).symm rfl (List.append_nil _).symm
  rw [exec_modify, ← added]
  rfl

theorem declareGlobal_extends (decl : VarDecl) : Extends (declareGlobal decl) := by
  apply Adds.bind .any (resolveType_adds .any _)
  intro type
  apply Adds.look
  · intro s
    split
    · exact Reports.toExtends (Adds.report _ _)
    · apply Adds.bind .any (Reports.toExtends (evaluate_reports type _))
      intro initial
      exact addGlobal_extends ⟨decl.name, type, true, decl.span.line, initial⟩
  · intro s t alike
    rw [alike.global?]

theorem declareFunction_extends (entry : Text) (decl : FunctionDecl) :
    Extends (declareFunction entry decl) := by
  apply Adds.bind .any (resolveType_adds .any _)
  intro type
  apply Adds.look
  · intro s
    split
    · apply Adds.bind .any (Reports.toExtends (Adds.report _ _))
      intro _
      exact Adds.pure .any none
    · apply Adds.bind .any (Reports.toExtends (function_reports type decl))
      intro f
      apply Adds.bind .any (addFunction_extends _)
      intro _
      exact Adds.pure .any _
  · intro s t alike
    rw [alike.seesFunction]

theorem topLevel_extends (entry : Text) (node : TopLevel) : Extends (topLevel entry node) := by
  cases node with
  | global decl => exact declareGlobal_extends decl
  | function decl => exact Adds.discard .any (declareFunction_extends entry decl)
  | statement s => exact Reports.toExtends (statement_reports s)

/-- What the nodes of a program add is the same from states that look alike. -/
theorem exec_topLevels_alike {entry : Text} {nodes : List TopLevel} {t u v : ScanState}
    (alike : u.LooksLike t)
    (run : exec (nodes.forM (topLevel entry)) t = (.ok (), v)) :
    ∃ more, v.symbols = t.symbols ++ more ∧
      exec (nodes.forM (topLevel entry)) u = (.ok (), ⟨u.symbols ++ more, v.frame⟩) := by
  obtain ⟨answer, more, frame, -, same⟩ := Adds.forM .any (topLevel_extends entry) nodes t
  have here := same t (.refl t)
  rw [run] at here
  obtain ⟨rfl, rfl⟩ := Prod.mk.inj here
  exact ⟨more, rfl, same u alike⟩

end Scan

end ProcCheck
