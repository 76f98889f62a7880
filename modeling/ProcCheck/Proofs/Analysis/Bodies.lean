import ProcCheck.Proofs.Analysis.Growth
import ProcCheck.Proofs.Analysis.Tables

/-!
# Bodies of functions do not leak

The body of a function is scanned in a frame of its own, over the tables of the whole program. All
that it leaves in them is its diagnostics. So the states behind two declarations that differ in
their bodies look alike to the rest of the scan, and what the rest adds is the same.
-/

namespace ProcCheck

/-- The declaration with another body. -/
def FunctionDecl.withBody (decl : FunctionDecl) (body : Block Stmt) : FunctionDecl :=
  { decl with body }

namespace FunctionDecl

variable (decl : FunctionDecl) (body : Block Stmt)

@[simp] theorem withBody_name : (decl.withBody body).name = decl.name := rfl

@[simp] theorem withBody_params : (decl.withBody body).params = decl.params := rfl

@[simp] theorem withBody_fresh : (decl.withBody body).fresh = decl.fresh := rfl

@[simp] theorem withBody_span : (decl.withBody body).span = decl.span := rfl

end FunctionDecl

/-- How a function that is no duplicate is read from the state `s` and becomes `f`: its parameters
are declared, its body is scanned between the states `start` and `last`, and the body adds only
what it `found` to the tables. What `f` is apart from its locals and its control structures is
fixed at `start`, but for its role. -/
structure FunctionDecl.Read (entry : Text) (decl : FunctionDecl) (s start last : ScanState)
    (found : List Diagnostic) (f : Function) : Prop where
  params : Scan.exec (decl.params.forM Scan.declareParam) { s with frame := ⟨some decl.fresh, []⟩ } =
    (.ok (), start)
  body : Scan.exec (Scan.statement (.block decl.body)) start = (.ok (), last)
  found : last.symbols = start.symbols.report found
  name : f.name = decl.name
  signature : start.frame.function?.map Function.signature =
    some { f.signature with classification := .normal }
  role : f.classification = Scan.classify entry decl.name decl.body

namespace Scan

variable {entry : Text} {s : ScanState} {decl : FunctionDecl}

/-- A declaration of a function that is no duplicate reads the function and registers it. -/
theorem exec_declareFunction_read {answer : Option Function} {t : ScanState}
    (new : (s.symbols.function? decl.name).isSome = false)
    (run : exec (declareFunction entry decl) s = (.ok answer, t)) :
    ∃ start last found f, decl.Read entry s start last found f ∧
      t = { last with frame := s.frame }.addFunction f := by
  obtain ⟨old, -⟩ | ⟨-, type, mid, last, resolved, params, body, rfl⟩ :=
    exec_declareFunction_returns run
  · rw [old] at new
    cases new
  have fresh : decl.fresh = { name := decl.name, returnType := type, line := decl.span.line } := by
    rw [FunctionDecl.fresh, ValueType.ofSpelling, resolved]
    rfl
  rw [← fresh] at params ⊢
  have start : decl.fresh.ParamsAdded s [] { s with frame := ⟨some decl.fresh, []⟩ } :=
    ⟨rfl, rfl, [], rfl, .nil⟩
  have added := exec_forM_returns _ (fun _ _ _ _ added run => added.step run) start params
  obtain ⟨parameters, function, -⟩ := added.inside
  obtain ⟨found, reported⟩ := Reports.exec_found (statement_reports (.block decl.body)) mid
  rw [body] at reported
  -- The body makes the function grow, so it is still there and still has its parameters.
  have grows := (statement_keepsFrame (.block decl.body) mid).function
  rw [body, Frame.FunctionGrowsTo, function] at grows
  cases behind : last.frame.function? with
  | none =>
    rw [behind] at grows
    cases grows
  | some g =>
    rw [behind] at grows
    cases grows with
    | some grows =>
      let role := classify entry decl.name decl.body
      refine ⟨mid, last, found, { g with classification := role }, ?_, rfl⟩
      refine ⟨params, body, reported, grows.name, ?_, rfl⟩
      have rest := congrArg (fun f => { f.signature with classification := .normal }) grows.rest
      rw [function]
      exact congrArg some rest.symm

/-- A declaration of a function that is a duplicate is reported, whatever its parameters and its
body. -/
theorem exec_declareFunction_old {answer : Option Function} {t : ScanState}
    (old : (s.symbols.function? decl.name).isSome = true)
    (run : exec (declareFunction entry decl) s = (.ok answer, t)) :
    t = s.report [⟨decl.span.line, .duplicateFunction decl.name⟩] := by
  obtain ⟨-, reported⟩ | ⟨new, -⟩ := exec_declareFunction_returns run
  · exact reported
  · rw [old] at new
    cases new

end Scan

namespace FunctionDecl.Read

variable {entry : Text} {decl : FunctionDecl} {body : Block Stmt} {s start last last' : ScanState}
  {found found' : List Diagnostic} {f f' : Function}

/-- The functions that two declarations with different bodies become differ at most in their locals,
their control structures and their roles. -/
theorem same_signature (read : decl.Read entry s start last found f)
    (read' : (decl.withBody body).Read entry s start last' found' f') :
    f'.returnType = f.returnType ∧ f'.line = f.line ∧ f'.parameters = f.parameters := by
  have same := read.signature.symm.trans read'.signature
  have signature := Option.some.inj same
  refine ⟨?_, ?_, ?_⟩
  · exact (congrArg Function.returnType signature).symm
  · exact (congrArg Function.line signature).symm
  · exact (congrArg Function.parameters signature).symm

/-- A function is an entry by its name, whatever its body. -/
theorem isEntry (read : decl.Read entry s start last found f) :
    f.classification = .entry ↔ decl.name.toLower = entry.toLower := by
  rw [read.role]
  exact Scope.classify_eq_entry entry decl.name decl.body

/-- The tables behind a declaration hold those before its body, then the function. -/
theorem addFunction_symbols (read : decl.Read entry s start last found f) :
    ({ last with frame := s.frame }.addFunction f).symbols =
      ⟨start.symbols.globals, start.symbols.functions ++ [f], start.symbols.diagnostics ++ found⟩ := by
  apply Symbols.ext
  · exact (congrArg Symbols.globals read.found :)
  · exact (congrArg (·.functions ++ [f]) read.found :)
  · exact (congrArg Symbols.diagnostics read.found :)

/-- The states behind two declarations with different bodies look alike. -/
theorem looksLike (read : decl.Read entry s start last found f)
    (read' : (decl.withBody body).Read entry s start last' found' f') :
    ({ last' with frame := s.frame }.addFunction f').LooksLike
      ({ last with frame := s.frame }.addFunction f) where
  frame := rfl
  globals := by rw [read.addFunction_symbols, read'.addFunction_symbols]
  functions := by
    have name : f'.name = f.name := read'.name.trans read.name.symm
    have parameters := (read.same_signature read').2.2
    rw [read.addFunction_symbols, read'.addFunction_symbols, List.map_append, List.map_append,
      List.map_singleton, List.map_singleton, name, parameters]

/-- The symbols of a program in which `more` is added behind a new function: only the function and
what was found in its body depend on the body. -/
theorem symbols (read : decl.Read entry s start last found f) (more : Symbols) :
    let tables := ({ last with frame := s.frame }.addFunction f).symbols ++ more
    let missing := if Scan.isEntryName entry decl.name ||
        (start.symbols.functions ++ more.functions).any (·.classification = .entry) then []
      else [⟨0, .missingEntry entry⟩]
    tables.report (tables.missingEntry entry) =
      ⟨start.symbols.globals ++ more.globals, start.symbols.functions ++ f :: more.functions,
        start.symbols.diagnostics ++ found ++ (more.diagnostics ++ missing)⟩ := by
  intro tables missing
  have whole : tables = ⟨start.symbols.globals ++ more.globals,
      start.symbols.functions ++ f :: more.functions,
      start.symbols.diagnostics ++ found ++ more.diagnostics⟩ := by
    change ({ last with frame := s.frame }.addFunction f).symbols ++ more = _
    rw [read.addFunction_symbols]
    apply Symbols.ext
    · rfl
    · exact List.append_assoc _ _ _
    · rfl
  have role : decide (f.classification = .entry) = Scan.isEntryName entry decl.name := by
    rw [Scan.isEntryName, decide_eq_decide]
    exact read.isEntry
  have same : tables.missingEntry entry = missing := by
    rw [whole, Symbols.missingEntry, List.any_append, List.any_cons, role, Bool.or_left_comm,
      ← List.any_append]
  rw [same, whole]
  apply Symbols.ext
  · rfl
  · rfl
  · exact List.append_assoc _ _ _

end FunctionDecl.Read

/-- A scan of a program, cut open around one of its nodes. -/
theorem Program.symbols_around {entry : Text} {before after : List TopLevel} {node : TopLevel}
    {place : Span} {symbols : Symbols}
    (returned : Program.symbols ⟨before ++ node :: after, place⟩ entry = .ok symbols) :
    ∃ s t v, Scan.exec (before.forM (Scan.topLevel entry)) {} = (.ok (), s) ∧
      Scan.exec (Scan.topLevel entry node) s = (.ok (), t) ∧
      Scan.exec (after.forM (Scan.topLevel entry)) t = (.ok (), v) ∧
      symbols = v.symbols.report (v.symbols.missingEntry entry) := by
  obtain ⟨v, run, whole⟩ := symbols_eq_ok.1 returned
  rw [Scan.forM_append, Scan.forM_cons] at run
  obtain ⟨⟨⟩, s, first, behind⟩ := Scan.exec_bind_returns.1 run
  obtain ⟨⟨⟩, t, here, rest⟩ := Scan.exec_bind_returns.1 behind
  exact ⟨s, t, v, first, here, rest, whole⟩

/-- A name is that of a function in the tables if it is that of a declaration before. -/
theorem ScanState.Holds.function?_isSome {before : List TopLevel} {s : ScanState}
    (holds : s.Holds before) (name : Text) :
    (s.symbols.function? name).isSome = true ↔
      name ∈ (before.filterMap TopLevel.function?).map (·.name) := by
  rw [Symbols.function?_isSome, mem_map_key (fun _ _ declares => declares.name) holds.functions]
  simp

/-- Function bodies do not leak into the rest of a program. Take two programs that differ in the
body of one declared function at most, and whose scans return. Their globals are equal, and if a
function of the name is declared before, so are the results as a whole. Otherwise their tables of
functions agree but for that function, of which name, return type, line and parameters agree; and
their diagnostics agree but for those found in the two bodies, which are scanned from the same
state `start`. -/
theorem Program.bodies_confined {entry : Text} {before after : List TopLevel}
    {decl : FunctionDecl} {body : Block Stmt} {place : Span} {one other : Symbols}
    (returned : Program.symbols ⟨before ++ .function decl :: after, place⟩ entry = .ok one)
    (returned' : Program.symbols ⟨before ++ .function (decl.withBody body) :: after, place⟩ entry =
      .ok other) :
    other.globals = one.globals ∧
    (decl.name ∈ (before.filterMap TopLevel.function?).map (·.name) → other = one) ∧
    (decl.name ∉ (before.filterMap TopLevel.function?).map (·.name) →
      ∃ s start last last' found found' f f' earlier later behind,
        Scan.exec (before.forM (Scan.topLevel entry)) {} = (.ok (), s) ∧
        decl.Read entry s start last found f ∧
        (decl.withBody body).Read entry s start last' found' f' ∧
        one.functions = earlier ++ f :: later ∧ other.functions = earlier ++ f' :: later ∧
        f.name = decl.name ∧ f'.name = f.name ∧ f'.returnType = f.returnType ∧
        f'.line = f.line ∧ f'.parameters = f.parameters ∧
        one.diagnostics = start.symbols.diagnostics ++ found ++ behind ∧
        other.diagnostics = start.symbols.diagnostics ++ found' ++ behind) := by
  obtain ⟨s, t, v, first, here, rest, rfl⟩ := symbols_around returned
  obtain ⟨_, t', v', first', here', rest', rfl⟩ := symbols_around returned'
  obtain ⟨-, rfl⟩ := Prod.mk.inj (first.symm.trans first')
  obtain ⟨answer, run⟩ := Scan.exec_discard_returns.1 here
  obtain ⟨answer', run'⟩ := Scan.exec_discard_returns.1 here'
  have holds : s.Holds ([] ++ before) :=
    Scan.exec_forM_returns (fun before s => s.Holds before)
      (fun _ _ _ _ holds run => holds.step run) ⟨.nil, .nil, rfl⟩ first
  cases known : (s.symbols.function? decl.name).isSome with
  | true =>
    -- A duplicate is reported, whatever its body, so the two scans go on from one state.
    have reported := Scan.exec_declareFunction_old known run
    rw [← decl.withBody_name body] at known
    have reported' := Scan.exec_declareFunction_old known run'
    rw [decl.withBody_name, decl.withBody_span, ← reported] at reported'
    rw [reported'] at rest'
    obtain ⟨-, rfl⟩ := Prod.mk.inj (rest.symm.trans rest')
    refine ⟨rfl, fun _ => rfl, ?_⟩
    intro new
    exact absurd ((holds.function?_isSome _).1 known) new
  | false =>
    obtain ⟨start, last, found, f, read, rfl⟩ := Scan.exec_declareFunction_read known run
    have new : ¬decl.name ∈ (before.filterMap TopLevel.function?).map (·.name) := by
      intro old
      rw [(holds.function?_isSome decl.name).2 old] at known
      cases known
    rw [← decl.withBody_name body] at known
    obtain ⟨start', last', found', f', read', rfl⟩ := Scan.exec_declareFunction_read known run'
    have params := read'.params
    rw [FunctionDecl.withBody_params, FunctionDecl.withBody_fresh] at params
    obtain ⟨-, rfl⟩ := Prod.mk.inj (read.params.symm.trans params)
    obtain ⟨more, added, same⟩ := Scan.exec_topLevels_alike (read.looksLike read') rest
    obtain ⟨-, rfl⟩ := Prod.mk.inj (rest'.symm.trans same)
    have one := read.symbols more
    have other := read'.symbols more
    rw [FunctionDecl.withBody_name] at other
    rw [added, one, other]
    obtain ⟨returnType, line, parameters⟩ := read.same_signature read'
    refine ⟨rfl, fun old => absurd old new, fun _ => ?_⟩
    exact ⟨s, start, last, last', found, found', f, f', start.symbols.functions, more.functions,
      _, first, read, read', rfl, rfl, read.name, read'.name.trans read.name.symm, returnType,
      line, parameters, rfl, rfl⟩

/-- A function that is declared between `int g;` and `void main() { f(); }`: `void f(int a)` with a
body of its own. -/
def FunctionDecl.callee : FunctionDecl :=
  let place (line : Int) : Span := ⟨⟨line, 1⟩, ⟨line, 1⟩⟩
  let body : List Stmt :=
    [.expr (.call ⟨"f(a)", place 3⟩ "f" [.identifier ⟨"a", place 3⟩ "a"]) (place 3)]
  ⟨"void", some "f", none, some [⟨"int", "a", place 2⟩], ⟨body, place 2⟩, place 2⟩

/-- The body of `callee` calls it, where it is not registered yet; with an empty body the program
has the same tables but for `callee` itself, and the same diagnostics but for that of the call. -/
theorem FunctionDecl.callee_confined :
    let place (line : Int) : Span := ⟨⟨line, 1⟩, ⟨line, 1⟩⟩
    let before : List TopLevel := [.global ⟨"int", "g", none, place 1⟩]
    let main : List Stmt := [.expr (.call ⟨"f()", place 4⟩ "f" []) (place 4)]
    let after : List TopLevel :=
      [.function ⟨"void", none, some "main", none, ⟨main, place 4⟩, place 4⟩]
    ∃ one other,
      Program.symbols ⟨before ++ .function callee :: after, place 1⟩ "main" = .ok one ∧
      Program.symbols ⟨before ++ .function (callee.withBody ⟨[], place 2⟩) :: after, place 1⟩
        "main" = .ok other ∧
      other.globals = one.globals ∧
      (∃ f f' earlier later, one.functions = earlier ++ f :: later ∧
        other.functions = earlier ++ f' :: later ∧ f'.parameters = f.parameters) ∧
      one.functions.map (·.classification) = [.recursive, .entry] ∧
      other.functions.map (·.classification) = [.normal, .entry] ∧
      one.diagnostics = [⟨3, .undefinedFunction "f"⟩, ⟨4, .wrongArgumentCount "f" 1 0⟩] ∧
      other.diagnostics = [⟨4, .wrongArgumentCount "f" 1 0⟩] := by
  intro place before main after
  obtain ⟨one, returned⟩ : ∃ one,
    Program.symbols ⟨before ++ .function callee :: after, place 1⟩ "main" = .ok one := ⟨_, rfl⟩
  obtain ⟨other, returned'⟩ : ∃ other,
    Program.symbols ⟨before ++ .function (callee.withBody ⟨[], place 2⟩) :: after, place 1⟩
      "main" = .ok other := ⟨_, rfl⟩
  obtain ⟨globals, -, new⟩ := Program.bodies_confined returned returned'
  obtain ⟨_, _, _, _, _, _, f, f', earlier, later, _, -, -, -, functions, functions', -, -, -, -,
    parameters, -⟩ := new (by decide +kernel)
  have roles : (Program.symbols ⟨before ++ .function callee :: after, place 1⟩
      "main").toOption.map (fun symbols =>
        (symbols.functions.map (·.classification), symbols.diagnostics)) =
      some ([.recursive, .entry],
        [⟨3, .undefinedFunction "f"⟩, ⟨4, .wrongArgumentCount "f" 1 0⟩]) := by
    decide +kernel
  have roles' : (Program.symbols
      ⟨before ++ .function (callee.withBody ⟨[], place 2⟩) :: after, place 1⟩
      "main").toOption.map (fun symbols =>
        (symbols.functions.map (·.classification), symbols.diagnostics)) =
      some ([.normal, .entry], [⟨4, .wrongArgumentCount "f" 1 0⟩]) := by
    decide +kernel
  rw [returned] at roles
  rw [returned'] at roles'
  obtain ⟨classes, found⟩ := Prod.mk.inj (Option.some.inj roles)
  obtain ⟨classes', found'⟩ := Prod.mk.inj (Option.some.inj roles')
  exact ⟨one, other, returned, returned', globals,
    ⟨f, f', earlier, later, functions, functions', parameters⟩, classes, classes', found, found'⟩

end ProcCheck
