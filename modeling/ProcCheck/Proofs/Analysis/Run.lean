import ProcCheck.Analysis.Program
import ProcCheck.Proofs.Grammar.Read
import ProcCheck.Proofs.Tree.Known

/-!
# Running a scan

`Scan.exec` runs a scanning step from a state. The first group of equations runs the pieces that
steps are made of. The second gives, for each step of the library, what it answers on known
nodes and the state that it leaves, so that no later proof has to open a step again.
-/

namespace ProcCheck

namespace Scan

variable {α β : Type}

/-- The answer of a step that starts in `s`, and the state that it leaves. -/
def exec (act : Scan α) (s : ScanState) : Except Abort α × ScanState := act.run.run s

/-! ## Pieces of steps -/

@[simp] theorem exec_pure (a : α) (s : ScanState) : exec (pure a) s = (.ok a, s) := rfl

@[simp] theorem exec_get (s : ScanState) : exec get s = (.ok s, s) := rfl

@[simp] theorem exec_set (s t : ScanState) : exec (set t) s = (.ok (), t) := rfl

@[simp] theorem exec_modify (f : ScanState → ScanState) (s : ScanState) :
    exec (modify f) s = (.ok (), f s) := rfl

@[simp] theorem exec_report (line : Int) (problem : Problem) (s : ScanState) :
    exec (report line problem) s = (.ok (), s.report [⟨line, problem⟩]) := rfl

theorem exec_bind (x : Scan α) (f : α → Scan β) (s : ScanState) :
    exec (x >>= f) s =
      match exec x s with
      | (.ok a, t) => exec (f a) t
      | (.error abort, t) => (.error abort, t) := by
  unfold exec ExceptT.run StateT.run
  simp only [bind, ExceptT.bind, ExceptT.mk, StateT.bind, ExceptT.bindCont]
  rcases x s with ⟨_ | a, t⟩ <;> rfl

theorem exec_bind_ok {x : Scan α} {s t : ScanState} {a : α} (h : exec x s = (.ok a, t))
    (f : α → Scan β) : exec (x >>= f) s = exec (f a) t := by
  rw [exec_bind, h]

/-- A handler is not reached by a step that is not cut short. -/
theorem exec_tryCatch_ok {x : Scan α} {s t : ScanState} {a : α} (h : exec x s = (.ok a, t))
    (f : Abort → Scan α) : exec (tryCatch x f) s = (.ok a, t) := by
  unfold exec ExceptT.run StateT.run at h ⊢
  simp only [tryCatch, tryCatchThe, MonadExceptOf.tryCatch, ExceptT.tryCatch, ExceptT.mk, bind,
    StateT.bind, h]
  rfl

theorem exec_discard {x : Scan α} {s t : ScanState} {a : α} (h : exec x s = (.ok a, t)) :
    exec (discard x) s = (.ok (), t) := by
  rw [discard_eq_bind, exec_bind_ok h]
  rfl

theorem exec_keepNesting_ok {act : Scan α} {s t : ScanState} {a : α}
    (h : exec act s = (.ok a, t)) : exec (keepNesting act) s = (.ok a, t) := by
  rw [keepNesting, exec_bind_ok (exec_get s)]
  exact exec_tryCatch_ok h _

theorem exec_inFrame_ok {frame : Frame} {act : Scan α} {s t : ScanState} {a : α}
    (h : exec act { s with frame } = (.ok a, t)) :
    exec (inFrame frame act) s = (.ok a, { t with frame := s.frame }) := by
  rw [inFrame, exec_bind_ok (exec_get s), exec_bind_ok (exec_modify _ s)]
  refine exec_tryCatch_ok ?_ _
  rw [exec_bind_ok h, exec_bind_ok (exec_modify _ t), exec_pure]

theorem forM_cons (f : α → Scan PUnit) (a : α) (l : List α) :
    (a :: l).forM f = f a >>= fun _ => l.forM f := rfl

/-- A loop over one list and then another. -/
theorem forM_append (f : α → Scan PUnit) (l m : List α) :
    (l ++ m).forM f = l.forM f >>= fun _ => m.forM f := by
  change forM (l ++ m) f = _
  rw [List.forM_append]
  rfl

/-- A loop over a list, when every round is not cut short: `Inv` speaks about the rounds behind
and the state that they leave. -/
theorem exec_forM {f : α → Scan PUnit} {l : List α} (Inv : List α → ScanState → Prop)
    (step : ∀ earlier, ∀ a ∈ l, ∀ s, Inv earlier s →
      ∃ t, exec (f a) s = (.ok (), t) ∧ Inv (earlier ++ [a]) t)
    {s : ScanState} {earlier : List α} (start : Inv earlier s) :
    ∃ t, exec (l.forM f) s = (.ok (), t) ∧ Inv (earlier ++ l) t := by
  induction l generalizing s earlier with
  | nil => exact ⟨s, rfl, by simpa using start⟩
  | cons a rest ih =>
    obtain ⟨mid, run, inv⟩ := step earlier a List.mem_cons_self s start
    obtain ⟨t, runRest, invRest⟩ :=
      ih (fun earlier b member => step earlier b (List.mem_cons_of_mem a member)) inv
    refine ⟨t, ?_, by simpa using invRest⟩
    change exec (f a >>= fun _ => rest.forM f) s = _
    rw [exec_bind_ok run, runRest]

end Scan

/-! ## Reading initializers -/

/-- The diagnostics of the nodes of an initializer: only a compound one is looked at. -/
def ScanState.initDiagnostics (s : ScanState) : Option Expr → List Diagnostic
  | none => []
  | some e => if e.text.isCompound then e.walk.filterMap s.diagnose else []

/-- The value that a variable of a type starts with. -/
def ValueType.initial? (type : ValueType) : Option Expr → Option InitialValue
  | none => none
  | some e => if e.text.isCompound then none else type.literal? e.text

/-- The type that a spelling is resolved to, `void` where it is that of no type. -/
def ValueType.ofSpelling (spelling : Text) : ValueType := (ofSpelling? spelling).getD .void

/-- The variable that a declaration declares. -/
def VarDecl.variable (decl : VarDecl) (isGlobal : Bool) : Variable :=
  let type := ValueType.ofSpelling decl.type
  ⟨decl.name, type, isGlobal, decl.span.line, type.initial? decl.init⟩

/-- The variable that a parameter declares. -/
def Param.variable (param : Param) : Variable :=
  ⟨param.name, ValueType.ofSpelling param.type, false, param.span.line, none⟩

namespace ScanState

@[simp] theorem report_nil (s : ScanState) : s.report [] = s := by
  simp [report, Symbols.report]

@[simp] theorem report_globals (s : ScanState) (found : List Diagnostic) :
    (s.report found).symbols.globals = s.symbols.globals := rfl

@[simp] theorem report_functions (s : ScanState) (found : List Diagnostic) :
    (s.report found).symbols.functions = s.symbols.functions := rfl

@[simp] theorem report_diagnostics (s : ScanState) (found : List Diagnostic) :
    (s.report found).symbols.diagnostics = s.symbols.diagnostics ++ found := rfl

@[simp] theorem report_frame (s : ScanState) (found : List Diagnostic) :
    (s.report found).frame = s.frame := rfl

@[simp] theorem mapFunction_symbols (f : Function → Function) (s : ScanState) :
    (s.mapFunction f).symbols = s.symbols := rfl

@[simp] theorem mapFunction_function? (f : Function → Function) (s : ScanState) :
    (s.mapFunction f).frame.function? = s.frame.function?.map f := rfl

/-- The state with a further global variable. -/
def addGlobal (declared : Variable) (s : ScanState) : ScanState :=
  { s with symbols := { s.symbols with globals := s.symbols.globals ++ [declared] } }

/-- The state with a further function. -/
def addFunction (declared : Function) (s : ScanState) : ScanState :=
  { s with symbols := { s.symbols with functions := s.symbols.functions ++ [declared] } }

/-- The state with a further local variable of the function that the scan stands in. -/
def addLocal (declared : Variable) (s : ScanState) : ScanState :=
  s.mapFunction fun f => { f with locals := f.locals ++ [declared] }

/-- The state with a further parameter of the function that the scan stands in. -/
def addParam (declared : Variable) (s : ScanState) : ScanState :=
  s.mapFunction fun f => { f with parameters := f.parameters ++ [declared] }

/-- The state with a further control structure, which the scan is now inside. -/
def openControl (head : ControlHead) (s : ScanState) : ScanState :=
  let control := head.atDepth s.frame.nesting.length
  { s with frame := { s.frame with nesting := s.frame.nesting ++ [control] } }.mapFunction
    fun f => { f with controls := f.controls ++ [control] }

/-- The state outside the innermost control structure. -/
def closeControl (s : ScanState) : ScanState :=
  { s with frame := { s.frame with nesting := s.frame.nesting.dropLast } }

end ScanState

namespace Scan

/-! ## Steps on known nodes -/

theorem exec_resolveType {spelling : Text} (known : ValueType.spells spelling) (s : ScanState) :
    exec (resolveType spelling) s = (.ok (ValueType.ofSpelling spelling), s) := by
  obtain ⟨type, resolved⟩ := Option.isSome_iff_exists.1 known
  simp [resolveType, ValueType.ofSpelling, resolved]

theorem exec_checkExpr {e : Expr} (known : e.isKnown) (s : ScanState) :
    exec (checkExpr e) s = (.ok (), s.report (e.walk.filterMap s.diagnose)) := by
  have none : ∀ x ∈ e.walk, x.foreignTag? = none := by
    simpa [Expr.isKnown] using known
  have all : e.walk.takeWhile (·.foreignTag?.isNone) = e.walk := by
    rw [← List.append_nil e.walk,
      List.takeWhile_append_of_pos fun x member => by simp [none x member], List.takeWhile_nil]
  have tag : e.walk.findSome? Expr.foreignTag? = Option.none := List.findSome?_eq_none_iff.2 none
  rw [checkExpr, exec_bind_ok (exec_get s), all, exec_bind_ok (exec_set s _), tag]
  rfl

theorem exec_evaluate (type : ValueType) {init : Option Expr} (known : init.all Expr.isKnown)
    (s : ScanState) :
    exec (evaluate type init) s = (.ok (type.initial? init), s.report (s.initDiagnostics init)) := by
  cases init with
  | none => simp [evaluate, ValueType.initial?, ScanState.initDiagnostics]
  | some e =>
    simp only [evaluate, ValueType.initial?, ScanState.initDiagnostics]
    split
    · rw [exec_bind_ok (exec_checkExpr known s), exec_pure]
    · simp

theorem exec_declareGlobal {decl : VarDecl} (known : decl.isKnown) (s : ScanState) :
    exec (declareGlobal decl) s = (.ok (),
      if (s.symbols.global? decl.name).isSome then
        s.report [⟨decl.span.line, .duplicateGlobal decl.name⟩]
      else (s.report (s.initDiagnostics decl.init)).addGlobal (decl.variable true)) := by
  simp only [VarDecl.isKnown, Bool.and_eq_true] at known
  rw [declareGlobal, exec_bind_ok (exec_resolveType known.1 s), exec_bind_ok (exec_get s)]
  split
  · exact exec_report _ _ s
  · rw [exec_bind_ok (exec_evaluate _ known.2 s)]
    rfl

theorem exec_declareLocal {decl : VarDecl} (known : decl.isKnown) (s : ScanState) :
    exec (declareLocal decl) s = (.ok (),
      match s.frame.function? with
      | none => s.report [⟨decl.span.line, .variableOutsideFunction⟩]
      | some f =>
        if f.declares decl.name then s.report [⟨decl.span.line, .duplicateLocal decl.name⟩]
        else (s.report (s.initDiagnostics decl.init)).addLocal (decl.variable false)) := by
  simp only [VarDecl.isKnown, Bool.and_eq_true] at known
  rw [declareLocal, exec_bind_ok (exec_get s)]
  cases s.frame.function? with
  | none => exact exec_report _ _ s
  | some f =>
    simp only
    rw [exec_bind_ok (exec_resolveType known.1 s)]
    split
    · exact exec_report _ _ s
    · rw [exec_bind_ok (exec_evaluate _ known.2 s)]
      rfl

theorem exec_declareParam {param : Param} (known : ValueType.spells param.type) (s : ScanState) :
    exec (declareParam param) s = (.ok (),
      match s.frame.function? with
      | none => s
      | some f =>
        if (f.parameter? param.name).isSome then
          s.report [⟨param.span.line, .duplicateParameter f.name param.name⟩]
        else s.addParam param.variable) := by
  rw [declareParam, exec_bind_ok (exec_get s)]
  cases s.frame.function? with
  | none => exact exec_pure () s
  | some f =>
    simp only
    rw [exec_bind_ok (exec_resolveType known s)]
    split
    · exact exec_report _ _ s
    · rfl

theorem exec_happen_enter (head : ControlHead) (s : ScanState) :
    exec (happen (.enter head)) s = (.ok (), s.openControl head) := rfl

theorem exec_happen_leave (s : ScanState) : exec (happen .leave) s = (.ok (), s.closeControl) := rfl

theorem exec_declareFunction_duplicate {entry : Text} {decl : FunctionDecl} {s : ScanState}
    (known : ValueType.spells decl.returnType)
    (duplicate : (s.symbols.function? decl.name).isSome) :
    exec (declareFunction entry decl) s =
      (.ok none, s.report [⟨decl.span.line, .duplicateFunction decl.name⟩]) := by
  rw [declareFunction, exec_bind_ok (exec_resolveType known s), exec_bind_ok (exec_get s),
    if_pos duplicate, exec_bind_ok (exec_report _ _ s), exec_pure]

end Scan

/-- The function that a declaration declares, before its parameters and its body are read. -/
def FunctionDecl.fresh (decl : FunctionDecl) : Function :=
  { name := decl.name
    returnType := ValueType.ofSpelling decl.returnType
    line := decl.span.line }

namespace Scan

/-- A function with a new name is read in a frame of its own and then registered; `mid` is the
state between its parameters and its body. -/
theorem exec_declareFunction_new {entry : Text} {decl : FunctionDecl} {s mid t : ScanState}
    {f : Function} (known : ValueType.spells decl.returnType)
    (new : (s.symbols.function? decl.name).isSome = false)
    (params : exec (decl.params.forM declareParam) { s with frame := ⟨some decl.fresh, []⟩ } =
      (.ok (), mid))
    (body : exec (statement (.block decl.body)) mid = (.ok (), t))
    (read : t.frame.function? = some f) :
    let registered := { f with classification := classify entry decl.name decl.body }
    exec (declareFunction entry decl) s =
      (.ok (some registered), { t with frame := s.frame }.addFunction registered) := by
  intro registered
  have inner : exec (do
      decl.params.forM declareParam
      statement (.block decl.body)
      return (← get).frame.function?.getD decl.fresh)
      { s with frame := ⟨some decl.fresh, []⟩ } = (.ok f, t) := by
    rw [exec_bind_ok params, exec_bind_ok body, exec_bind_ok (exec_get t), read]
    rfl
  rw [declareFunction, exec_bind_ok (exec_resolveType known s), exec_bind_ok (exec_get s),
    if_neg (by simp [new])]
  exact exec_bind_ok (exec_inFrame_ok inner) _

theorem exec_finish (entry : Text) (s : ScanState) :
    exec (finish entry) s = (.ok (),
      s.report (if s.symbols.functions.any (·.classification = .entry) then []
        else [⟨0, .missingEntry entry⟩])) := by
  have missing : s.symbols.functions.all (·.classification ≠ .entry) =
      !s.symbols.functions.any (·.classification = .entry) := by
    simp [List.all_eq_not_any_not]
  rw [finish, exec_bind_ok (exec_get s), missing]
  cases s.symbols.functions.any (·.classification = .entry) with
  | true => simp
  | false => exact exec_report _ _ s

end Scan

end ProcCheck
