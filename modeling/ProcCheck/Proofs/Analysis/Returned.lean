import ProcCheck.Proofs.Analysis.Run

/-!
# Scans that come to an end

`Scan.exec` of a step on known nodes is in `Proofs/Analysis/Run`. Here nothing is known of the
nodes: for each step the equations say what follows from its having returned, that is, what it
met on the way, what it answers and the state that it leaves.
-/

namespace ProcCheck

namespace Scan

variable {α β : Type} {s t u : ScanState}

/-! ## Pieces of steps -/

@[simp] theorem exec_throw (abort : Abort) (s : ScanState) :
    exec (throw abort : Scan α) s = (.error abort, s) := rfl

theorem exec_tryCatch (x : Scan α) (f : Abort → Scan α) (s : ScanState) :
    exec (tryCatch x f) s =
      match exec x s with
      | (.ok a, t) => (.ok a, t)
      | (.error abort, t) => exec (f abort) t := by
  unfold exec ExceptT.run StateT.run
  simp only [tryCatch, tryCatchThe, MonadExceptOf.tryCatch, ExceptT.tryCatch, ExceptT.mk, bind,
    StateT.bind]
  rcases x s with ⟨_ | a, t⟩ <;> rfl

theorem exec_bind_returns {x : Scan α} {f : α → Scan β} {b : β} :
    exec (x >>= f) s = (.ok b, u) ↔
      ∃ a t, exec x s = (.ok a, t) ∧ exec (f a) t = (.ok b, u) := by
  rw [exec_bind]
  rcases exec x s with ⟨abort | a, t⟩
  · simp
  · constructor
    · intro run
      exact ⟨a, t, rfl, run⟩
    · rintro ⟨_, _, same, run⟩
      cases same
      exact run

theorem exec_pure_returns {a b : α} : exec (pure a) s = (.ok b, t) ↔ a = b ∧ s = t := by
  rw [exec_pure, Prod.mk.injEq, Except.ok.injEq]

theorem exec_discard_returns {x : Scan α} {done : Unit} :
    exec (discard x) s = (.ok done, t) ↔ ∃ a, exec x s = (.ok a, t) := by
  rw [discard_eq_bind, exec_bind_returns]
  constructor
  · rintro ⟨a, mid, run, same⟩
    obtain ⟨-, rfl⟩ := exec_pure_returns.1 same
    exact ⟨a, run⟩
  · rintro ⟨a, run⟩
    exact ⟨a, t, run, rfl⟩

/-- What is taken back when a step is cut short does not show when it returns. -/
theorem exec_keepNesting_returns {act : Scan α} {a : α} :
    exec (keepNesting act) s = (.ok a, t) ↔ exec act s = (.ok a, t) := by
  rw [keepNesting, exec_bind_ok (exec_get s), exec_tryCatch]
  rcases exec act s with ⟨abort | a, mid⟩
  · simp [exec_bind]
  · rfl

theorem exec_inFrame_returns {frame : Frame} {act : Scan α} {a : α} :
    exec (inFrame frame act) s = (.ok a, t) ↔
      ∃ mid, exec act { s with frame } = (.ok a, mid) ∧ t = { mid with frame := s.frame } := by
  rw [inFrame, exec_bind_ok (exec_get s), exec_bind_ok (exec_modify _ s), exec_tryCatch]
  rcases run : exec act { s with frame } with ⟨abort | b, mid⟩
  · simp [exec_bind, run]
  · simp only [exec_bind, run, exec_modify, exec_pure, Prod.mk.injEq, Except.ok.injEq]
    constructor
    · rintro ⟨rfl, rfl⟩
      exact ⟨mid, ⟨rfl, rfl⟩, rfl⟩
    · rintro ⟨_, ⟨rfl, rfl⟩, rfl⟩
      exact ⟨rfl, rfl⟩

/-- A loop over a list that returns has returned from every round; `Inv` speaks about the rounds
behind and the state that they leave. -/
theorem exec_forM_returns {f : α → Scan PUnit} (Inv : List α → ScanState → Prop)
    (step : ∀ earlier a s t, Inv earlier s → exec (f a) s = (.ok (), t) → Inv (earlier ++ [a]) t)
    {l : List α} {earlier : List α} (start : Inv earlier s)
    (run : exec (l.forM f) s = (.ok (), t)) :
    Inv (earlier ++ l) t := by
  induction l generalizing s earlier with
  | nil =>
    obtain ⟨-, rfl⟩ := exec_pure_returns.1 run
    rwa [List.append_nil]
  | cons a rest ih =>
    obtain ⟨⟨⟩, mid, runHead, runRest⟩ := exec_bind_returns.1 run
    have inv := ih (step earlier a s mid start runHead) runRest
    rwa [List.append_assoc] at inv

/-! ## Steps on expressions -/

theorem exec_resolveType_returns {spelling : Text} {type : ValueType} :
    exec (resolveType spelling) s = (.ok type, t) ↔
      ValueType.ofSpelling? spelling = some type ∧ t = s := by
  unfold resolveType
  cases ValueType.ofSpelling? spelling with
  | none => simp
  | some found => simp [eq_comm]

theorem exec_checkExpr_returns {e : Expr} {done : Unit} :
    exec (checkExpr e) s = (.ok done, t) ↔
      e.isKnown ∧ t = s.report (e.walk.filterMap s.diagnose) := by
  constructor
  · intro run
    have known : e.isKnown := by
      rw [checkExpr, exec_bind_ok (exec_get s), exec_bind_ok (exec_set s _)] at run
      cases tag : e.walk.findSome? Expr.foreignTag? with
      | none =>
        rw [List.findSome?_eq_none_iff] at tag
        simpa [Expr.isKnown] using tag
      | some found => simp [tag] at run
    rw [exec_checkExpr known] at run
    exact ⟨known, (Prod.mk.inj run).2.symm⟩
  · rintro ⟨known, rfl⟩
    exact exec_checkExpr known s

theorem exec_evaluate_returns {type : ValueType} {init : Option Expr}
    {initial : Option InitialValue} (run : exec (evaluate type init) s = (.ok initial, t)) :
    initial = type.initial? init ∧ t = s.report (s.initDiagnostics init) := by
  cases init with
  | none =>
    obtain ⟨rfl, rfl⟩ := exec_pure_returns.1 run
    exact ⟨rfl, (s.report_nil).symm⟩
  | some e =>
    simp only [evaluate, ValueType.initial?, ScanState.initDiagnostics] at run ⊢
    split at run
    next compound =>
      obtain ⟨_, mid, check, same⟩ := exec_bind_returns.1 run
      obtain ⟨-, rfl⟩ := exec_checkExpr_returns.1 check
      obtain ⟨rfl, rfl⟩ := exec_pure_returns.1 same
      rw [if_pos compound, if_pos compound]
      exact ⟨rfl, rfl⟩
    next bare =>
      obtain ⟨rfl, rfl⟩ := exec_pure_returns.1 run
      rw [if_neg bare, if_neg bare, ScanState.report_nil]
      exact ⟨rfl, rfl⟩

end Scan

/-! ## Declarations -/

/-- A variable is the one that a declaration declares: it has the name, the type that the spelling
stands for, the line and the initial value of that declaration. -/
structure VarDecl.Declares (isGlobal : Bool) (decl : VarDecl) (v : Variable) : Prop where
  name : v.name = decl.name
  type : ValueType.ofSpelling? decl.type = some v.type
  isGlobal : v.isGlobal = isGlobal
  line : v.line = decl.span.line
  initial : v.initial = v.type.initial? decl.init

/-- A variable is the one that a parameter declares. -/
structure Param.Declares (param : Param) (v : Variable) : Prop where
  name : v.name = param.name
  type : ValueType.ofSpelling? param.type = some v.type
  isGlobal : v.isGlobal = false
  line : v.line = param.span.line
  initial : v.initial = none

namespace Scan

variable {s t : ScanState} {done : Unit}

/-- A declaration of a global variable is a duplicate or adds the variable that it declares. -/
theorem exec_declareGlobal_returns {decl : VarDecl}
    (returned : exec (declareGlobal decl) s = (.ok done, t)) :
    ((s.symbols.global? decl.name).isSome ∧
      t = s.report [⟨decl.span.line, .duplicateGlobal decl.name⟩]) ∨
    ((s.symbols.global? decl.name).isSome = false ∧ ∃ v, decl.Declares true v ∧
      t = (s.report (s.initDiagnostics decl.init)).addGlobal v) := by
  obtain ⟨type, _, resolve, run⟩ := exec_bind_returns.1 returned
  obtain ⟨resolved, rfl⟩ := exec_resolveType_returns.1 resolve
  rw [exec_bind_ok (exec_get _)] at run
  split at run
  next duplicate =>
    rw [exec_report] at run
    exact .inl ⟨duplicate, (Prod.mk.inj run).2.symm⟩
  next new =>
    obtain ⟨initial, mid, evaluated, add⟩ := exec_bind_returns.1 run
    obtain ⟨rfl, rfl⟩ := exec_evaluate_returns evaluated
    rw [exec_modify] at add
    refine .inr ⟨by simpa using new, _, ⟨rfl, resolved, rfl, rfl, rfl⟩, (Prod.mk.inj add).2.symm⟩

/-- A declaration of a local variable is outside of all functions, is a duplicate or adds the
variable that it declares. -/
theorem exec_declareLocal_returns {decl : VarDecl}
    (returned : exec (declareLocal decl) s = (.ok done, t)) :
    (s.frame.function? = none ∧ t = s.report [⟨decl.span.line, .variableOutsideFunction⟩]) ∨
    ∃ f, s.frame.function? = some f ∧
      ((f.declares decl.name ∧ t = s.report [⟨decl.span.line, .duplicateLocal decl.name⟩]) ∨
      (f.declares decl.name = false ∧ ∃ v, decl.Declares false v ∧
        t = (s.report (s.initDiagnostics decl.init)).addLocal v)) := by
  rw [declareLocal, exec_bind_ok (exec_get s)] at returned
  cases function : s.frame.function? with
  | none =>
    simp only [function, exec_report] at returned
    exact .inl ⟨rfl, (Prod.mk.inj returned).2.symm⟩
  | some f =>
    simp only [function] at returned
    obtain ⟨type, _, resolve, run⟩ := exec_bind_returns.1 returned
    obtain ⟨resolved, rfl⟩ := exec_resolveType_returns.1 resolve
    refine .inr ⟨f, rfl, ?_⟩
    split at run
    next duplicate =>
      rw [exec_report] at run
      exact .inl ⟨duplicate, (Prod.mk.inj run).2.symm⟩
    next new =>
      obtain ⟨initial, mid, evaluated, add⟩ := exec_bind_returns.1 run
      obtain ⟨rfl, rfl⟩ := exec_evaluate_returns evaluated
      rw [exec_modify] at add
      exact .inr ⟨by simpa using new, _, ⟨rfl, resolved, rfl, rfl, rfl⟩, (Prod.mk.inj add).2.symm⟩

/-- A parameter of a function is a duplicate or adds the variable that it declares. -/
theorem exec_declareParam_returns {param : Param} {f : Function}
    (function : s.frame.function? = some f)
    (returned : exec (declareParam param) s = (.ok done, t)) :
    ((f.parameter? param.name).isSome ∧
      t = s.report [⟨param.span.line, .duplicateParameter f.name param.name⟩]) ∨
    ((f.parameter? param.name).isSome = false ∧ ∃ v, param.Declares v ∧ t = s.addParam v) := by
  rw [declareParam, exec_bind_ok (exec_get s)] at returned
  simp only [function] at returned
  obtain ⟨type, _, resolve, run⟩ := exec_bind_returns.1 returned
  obtain ⟨resolved, rfl⟩ := exec_resolveType_returns.1 resolve
  split at run
  next duplicate =>
    rw [exec_report] at run
    exact .inl ⟨duplicate, (Prod.mk.inj run).2.symm⟩
  next new =>
    rw [exec_modify] at run
    exact .inr ⟨by simpa using new, _, ⟨rfl, resolved, rfl, rfl, rfl⟩, (Prod.mk.inj run).2.symm⟩

/-- A declaration of a function is a duplicate, or its parameters and its body are scanned in a
frame of its own and the function is registered; `mid` is the state between the two. -/
theorem exec_declareFunction_returns {entry : Text} {decl : FunctionDecl} {answer : Option Function}
    (returned : exec (declareFunction entry decl) s = (.ok answer, t)) :
    ((s.symbols.function? decl.name).isSome ∧
      t = s.report [⟨decl.span.line, .duplicateFunction decl.name⟩]) ∨
    ((s.symbols.function? decl.name).isSome = false ∧
      ∃ type mid last, ValueType.ofSpelling? decl.returnType = some type ∧
        let fresh : Function := { name := decl.name, returnType := type, line := decl.span.line }
        exec (decl.params.forM declareParam) { s with frame := ⟨some fresh, []⟩ } = (.ok (), mid) ∧
        exec (statement (.block decl.body)) mid = (.ok (), last) ∧
        t = { last with frame := s.frame }.addFunction
          { last.frame.function?.getD fresh with
            classification := classify entry decl.name decl.body }) := by
  obtain ⟨type, _, resolve, run⟩ := exec_bind_returns.1 returned
  obtain ⟨resolved, rfl⟩ := exec_resolveType_returns.1 resolve
  rw [exec_bind_ok (exec_get _)] at run
  split at run
  next duplicate =>
    obtain ⟨_, _, reported, same⟩ := exec_bind_returns.1 run
    rw [exec_report] at reported
    obtain ⟨-, rfl⟩ := exec_pure_returns.1 same
    exact .inl ⟨duplicate, (Prod.mk.inj reported).2.symm⟩
  next new =>
    obtain ⟨f, _, framed, register⟩ := exec_bind_returns.1 run
    obtain ⟨after, inner, rfl⟩ := exec_inFrame_returns.1 framed
    obtain ⟨_, mid, params, behind⟩ := exec_bind_returns.1 inner
    obtain ⟨_, last, body, answered⟩ := exec_bind_returns.1 behind
    rw [exec_bind_ok (exec_get last)] at answered
    obtain ⟨rfl, rfl⟩ := exec_pure_returns.1 answered
    rw [exec_bind_ok (exec_modify _ _)] at register
    obtain ⟨-, rfl⟩ := exec_pure_returns.1 register
    exact .inr ⟨by simpa using new, type, mid, last, resolved, params, body, rfl⟩

end Scan

/-- The diagnostic of a program without an entry function. -/
def Symbols.missingEntry (entry : Text) (s : Symbols) : List Diagnostic :=
  if s.functions.any (·.classification = .entry) then [] else [⟨0, .missingEntry entry⟩]

@[simp] theorem Symbols.missingEntry_report (entry : Text) (s : Symbols)
    (found : List Diagnostic) : (s.report found).missingEntry entry = s.missingEntry entry := rfl

/-- The symbols of a program are the tables after its last node, with a diagnostic for the program
as a whole if no function is an entry. -/
theorem Program.symbols_eq_ok {p : Program} {entry : Text} {symbols : Symbols} :
    p.symbols entry = .ok symbols ↔
      ∃ s, Scan.exec (p.declarations.forM (Scan.topLevel entry)) {} = (.ok (), s) ∧
        symbols = s.symbols.report (if s.symbols.functions.any (·.classification = .entry) then []
          else [⟨0, .missingEntry entry⟩]) := by
  have whole : p.symbols entry = match Scan.exec (Scan.program entry p) {} with
      | (.ok (), s) => .ok s.symbols
      | (.error abort, _) => .error abort := rfl
  rw [whole, Scan.program, Scan.exec_bind]
  rcases Scan.exec (p.declarations.forM (Scan.topLevel entry)) {} with ⟨abort | ⟨⟩, s⟩
  · simp
  · simp only [Scan.exec_finish]
    constructor
    · intro same
      exact ⟨s, rfl, (Except.ok.inj same).symm⟩
    · rintro ⟨_, ⟨⟩, rfl⟩
      rfl

theorem Text.symbols_eq_ok {source entry : Text} {p : Program} {symbols : Symbols}
    (read : source.program = .ok p) (returned : p.symbols entry = .ok symbols) :
    source.symbols entry = .ok symbols := by
  rw [Text.symbols, read]
  simp only [returned]

/-- The symbols of a source are those of the program that it spells. -/
theorem Text.program_of_symbols {source entry : Text} {symbols : Symbols}
    (returned : source.symbols entry = .ok symbols) :
    ∃ p, source.program = .ok p ∧ p.symbols entry = .ok symbols := by
  rw [Text.symbols] at returned
  cases read : source.program with
  | error e => simp [read] at returned
  | ok p =>
    cases scanned : p.symbols entry with
    | error abort => simp [read, scanned] at returned
    | ok tables =>
      simp only [read, scanned, Except.ok.injEq] at returned
      exact ⟨p, rfl, returned ▸ scanned⟩

end ProcCheck
