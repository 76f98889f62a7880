import ProcCheck.Proofs.Analysis.Reading
import ProcCheck.Proofs.Analysis.Run

/-!
# An analysis reports what the source order tells

A scan fills its tables while it reports, so what it says at a place depends on the tables of
that moment. `Scope.Tracks` ties the two together: the tables answer for every name as the scope
of the place does. Every event of a statement, every parameter and every top-level node keeps
it, and so the diagnostics of a scan read as `Program.remarks`.
-/

namespace ProcCheck

/-- A name that a table has already is no new name. -/
theorem or_decide_of_mem {has : Text → Bool} {name : Text} (old : has name = true) (other : Text) :
    (has other || decide (name = other)) = has other := by
  by_cases equal : name = other
  · simp [← equal, old]
  · simp [equal]

theorem inOrder_concat {α β : Type} (f : List α → α → List β) (earlier l : List α) (a : α) :
    inOrder f earlier (l ++ [a]) = inOrder f earlier l ++ f (earlier ++ l) a := by
  induction l generalizing earlier with
  | nil => simp [inOrder]
  | cons b rest ih => simp [inOrder, ih]

/-! ## Places and events -/

/-- The place that an event happens at, if it can be reported about. -/
def Event.site? : Event → Option Site
  | declare decl => some (.declare decl)
  | check e => some (.check e)
  | enter _ | leave | foreign _ => none

namespace Stmt

theorem allSites_eq (statements : List Stmt) :
    sites.allSites statements = statements.flatMap sites := by
  induction statements with
  | nil => simp [sites.allSites]
  | cons s rest ih => simp [sites.allSites, ih]

@[simp] theorem blockSites_eq (body : Block Stmt) :
    sites.blockSites body = body.statements.flatMap sites := by
  cases body
  exact allSites_eq _

@[simp] theorem elseSites_eq (elseBlock : Option (Block Stmt)) :
    sites.elseSites elseBlock = elseBlock.toList.flatMap (·.statements.flatMap sites) := by
  cases elseBlock <;> simp [sites.elseSites]

@[simp] theorem initSites_eq (init : Option Stmt) :
    sites.initSites init = init.toList.flatMap sites := by
  cases init <;> simp [sites.initSites]

theorem filterMap_enclosed (head : Option ControlHead) (inner : List Event) :
    (enclosed head inner).filterMap Event.site? = inner.filterMap Event.site? := by
  cases head <;> simp [enclosed, Event.site?, List.filterMap_cons]

theorem filterMap_check (e : Option Expr) :
    (e.toList.map Event.check).filterMap Event.site? = e.toList.map Site.check := by
  cases e <;> simp [Event.site?]

theorem filterMap_flatMap {statements : List Stmt}
    (each : ∀ s ∈ statements, s.events.filterMap Event.site? = s.sites) :
    (statements.flatMap events).filterMap Event.site? = statements.flatMap sites := by
  rw [List.filterMap_flatMap]
  exact List.flatMap_congr each

/-- The events of a statement happen at its places, in source order. -/
theorem filterMap_events (s : Stmt) : s.events.filterMap Event.site? = s.sites := by
  induction s using Stmt.treeInduction with
  | var decl => rfl
  | block body ih => simpa [events, sites] using filterMap_flatMap ih
  | branch condition thenBlock elseBlock span ihThen ihElse =>
    have alternative : (elseBlock.toList.flatMap (·.statements.flatMap events)).filterMap
        Event.site? = elseBlock.toList.flatMap (·.statements.flatMap sites) := by
      cases elseBlock with
      | none => rfl
      | some body => simpa using filterMap_flatMap (ihElse body rfl)
    simp [events, sites, filterMap_enclosed, Event.site?, filterMap_flatMap ihThen, alternative]
  | whileLoop condition body span ih =>
    simp [events, sites, filterMap_enclosed, Event.site?, filterMap_flatMap ih]
  | forLoop init condition update body span ihInit ihBody =>
    have first : (init.toList.flatMap events).filterMap Event.site? = init.toList.flatMap sites :=
      filterMap_flatMap fun s member => ihInit s (by simpa using member)
    simp only [events, sites, filterMap_enclosed, initEvents_eq, blockEvents_eq, initSites_eq,
      blockSites_eq, List.filterMap_append, first, filterMap_check, filterMap_flatMap ihBody]
  | expr e span => rfl
  | ret value span => exact filterMap_check value
  | foreign tag span => rfl

end Stmt

/-! ## The tables at a place -/

@[simp] theorem ScanState.report_remarks (s : ScanState) (found : List Diagnostic) :
    (s.report found).symbols.remarks = s.symbols.remarks ++ found.map Diagnostic.remark :=
  List.map_append

/-- The tables of a scan answer for every name as the scope of a place does. -/
structure Scope.Tracks (sc : Scope) (s : ScanState) : Prop where
  globals : ∀ name, (s.symbols.global? name).isSome = sc.declaresGlobal name
  functions : ∀ name,
    (s.symbols.function? name).map (·.parameters.length) = (sc.function? name).map (·.arity)
  inside : ∀ name, s.frame.function?.map (·.declares name) = sc.inside?.map (·.declares name)

namespace Scope

variable {sc : Scope} {s : ScanState}

theorem Tracks.seesVariable (tracks : sc.Tracks s) (name : Text) :
    s.seesVariable name = sc.seesVariable name := by
  have inside := tracks.inside name
  unfold ScanState.seesVariable Scope.seesVariable
  rw [tracks.globals]
  congr 1
  cases function : s.frame.function? <;> cases interior : sc.inside? <;>
    simp_all

theorem Tracks.function?_isSome (tracks : sc.Tracks s) (name : Text) :
    (s.symbols.function? name).isSome = (sc.function? name).isSome := by
  simpa using congrArg Option.isSome (tracks.functions name)

/-- The problem of a node, in words. -/
theorem Tracks.objection? (tracks : sc.Tracks s) (e : Expr) :
    (s.problem? e).map Problem.message = sc.objection? e := by
  cases e with
  | identifier src name =>
    simp only [ScanState.problem?, Scope.objection?, ScanState.seesFunction,
      tracks.seesVariable, tracks.function?_isSome]
    split <;> rfl
  | assign src target value =>
    simp only [ScanState.problem?, Scope.objection?, tracks.seesVariable]
    split <;> rfl
  | call src callee args =>
    have arity := tracks.functions callee
    cases found : s.symbols.function? callee <;> cases decl : sc.function? callee <;>
      simp_all [ScanState.problem?, Scope.objection?, Problem.message, apply_ite]
  | _ => rfl

theorem Tracks.ofExpr (tracks : sc.Tracks s) (e : Expr) :
    (e.walk.filterMap s.diagnose).map Diagnostic.remark = sc.ofExpr e := by
  unfold Scope.ofExpr ScanState.diagnose
  rw [List.map_filterMap]
  congr 1
  funext node
  rw [← tracks.objection?, Option.map_map, Option.map_map]
  rfl

theorem Tracks.ofInit (tracks : sc.Tracks s) (init : Option Expr) :
    (s.initDiagnostics init).map Diagnostic.remark = sc.ofInit init := by
  cases init with
  | none => rfl
  | some e =>
    rw [ScanState.initDiagnostics, Scope.ofInit, ← tracks.ofExpr]
    split <;> rfl

end Scope

/-- A step inside a function leaves the global tables and the head of the function alone. -/
structure ScanState.Keeps (s t : ScanState) : Prop where
  globals : t.symbols.globals = s.symbols.globals
  functions : t.symbols.functions = s.symbols.functions
  head : t.frame.function?.map (fun f => (f.name, f.parameters)) =
    s.frame.function?.map (fun f => (f.name, f.parameters))

theorem ScanState.Keeps.refl (s : ScanState) : s.Keeps s := ⟨rfl, rfl, rfl⟩

theorem ScanState.Keeps.trans {s t u : ScanState} (h : s.Keeps t) (h' : t.Keeps u) : s.Keeps u :=
  ⟨h'.globals.trans h.globals, h'.functions.trans h.functions, h'.head.trans h.head⟩

namespace Scope

variable {sc : Scope} {s t : ScanState}

/-- Only what a place sees of its own function has to be followed through a step. -/
theorem Tracks.keeps (tracks : sc.Tracks s) (keeps : s.Keeps t) {passed : List Site}
    (inside : ∀ name,
      t.frame.function?.map (·.declares name) = (sc.pass passed).inside?.map (·.declares name)) :
    (sc.pass passed).Tracks t where
  globals name := by
    rw [Symbols.global?, keeps.globals]
    exact tracks.globals name
  functions name := by
    rw [Symbols.function?, keeps.functions]
    exact tracks.functions name
  inside := inside

theorem pass_pass (sc : Scope) (passed more : List Site) :
    (sc.pass passed).pass more = sc.pass (passed ++ more) := by
  unfold pass
  cases sc.inside? <;> simp

/-- Places that declare nothing leave the scope as it is. -/
theorem pass_of_no_decl (sc : Scope) {passed : List Site}
    (none : passed.filterMap Site.decl? = []) : sc.pass passed = sc := by
  unfold pass
  rw [none]
  cases sc with
  | mk before inside? => cases inside? <;> simp

/-- Outside of a function declarations do not count. -/
theorem pass_outside {sc : Scope} (outside : sc.inside? = none) (passed : List Site) :
    sc.pass passed = sc := by
  unfold pass
  cases sc
  simp_all

end Scope

/-! ## Events -/

theorem Function.declares_eq (f : Function) (name : Text) :
    f.declares name = (f.parameters.any (·.name = name) || f.locals.any (·.name = name)) := by
  simp only [declares, parameter?, local?, List.isSome_find?]

theorem Interior.declares_concat (interior : Interior) (decl : VarDecl) (name : Text) :
    Interior.declares { interior with locals := interior.locals ++ [decl] } name =
      (interior.declares name || decide (decl.name = name)) := by
  simp [declares, Bool.or_assoc]

/-- A step that reports, and changes neither the tables nor the function, keeps track. -/
theorem Scope.Tracks.report {sc : Scope} {s : ScanState} (tracks : sc.Tracks s)
    (found : List Diagnostic) : sc.Tracks (s.report found) :=
  ⟨tracks.globals, tracks.functions, tracks.inside⟩

theorem ScanState.keeps_report (s : ScanState) (found : List Diagnostic) :
    s.Keeps (s.report found) := ⟨rfl, rfl, rfl⟩

/-- What an event does to a scan that keeps track of a scope. -/
structure Scope.Passed (sc : Scope) (sites : List Site) (found : List Remark)
    (s t : ScanState) : Prop where
  tracks : (sc.pass sites).Tracks t
  keeps : s.Keeps t
  remarks : t.symbols.remarks = s.symbols.remarks ++ found

namespace Scope

variable {sc : Scope} {s : ScanState}

theorem declare_passed (tracks : sc.Tracks s) {decl : VarDecl} (known : decl.isKnown) :
    ∃ t, Scan.exec (Scan.declareLocal decl) s = (.ok (), t) ∧
      sc.Passed [.declare decl] (sc.ofSite (.declare decl)) s t := by
  refine ⟨_, Scan.exec_declareLocal known s, ?_⟩
  cases function : s.frame.function? with
  | none =>
    have outside : sc.inside? = none := by
      simpa [function] using (tracks.inside decl.name).symm
    refine ⟨?_, s.keeps_report _, ?_⟩
    · rw [pass_outside outside]
      exact tracks.report _
    · simp only [ofSite, outside]
      exact s.report_remarks _
  | some f =>
    obtain ⟨interior, inside, same⟩ : ∃ interior, sc.inside? = some interior ∧
        ∀ name, f.declares name = interior.declares name := by
      have inside := tracks.inside
      rw [function] at inside
      cases interior : sc.inside? with
      | none => simpa [interior] using inside decl.name
      | some interior' => exact ⟨interior', rfl, fun name => by simpa [interior] using inside name⟩
    have scope : ∀ name, (sc.pass [.declare decl]).inside?.map (·.declares name) =
        some (interior.declares name || decide (decl.name = name)) := by
      intro name
      simp [pass, inside, Site.decl?, Interior.declares_concat]
    simp only [ofSite, inside, ← same]
    split
    next duplicate =>
      refine ⟨tracks.keeps (s.keeps_report _) fun name => ?_, s.keeps_report _,
        s.report_remarks _⟩
      rw [scope, ScanState.report_frame, function, Option.map_some, same,
        or_decide_of_mem (same decl.name ▸ duplicate)]
    next new =>
      have keeps : s.Keeps ((s.report (s.initDiagnostics decl.init)).addLocal
          (decl.variable false)) := by
        refine ⟨rfl, rfl, ?_⟩
        simp [ScanState.addLocal, function]
      refine ⟨tracks.keeps keeps fun name => ?_, keeps, ?_⟩
      · rw [scope, ← same, Function.declares_eq]
        simp [ScanState.addLocal, function, Function.declares_eq, VarDecl.variable, Bool.or_assoc]
      · rw [← tracks.ofInit]
        exact s.report_remarks _

/-- Every event on known nodes keeps track and reports what the scope tells. -/
theorem happen_passed (tracks : sc.Tracks s) {event : Event} (known : event.isKnown) :
    ∃ t, Scan.exec (Scan.happen event) s = (.ok (), t) ∧
      sc.Passed event.site?.toList (event.site?.toList.flatMap sc.ofSite) s t := by
  cases event with
  | declare decl => simpa [Event.site?, Scan.happen] using declare_passed tracks known
  | check e =>
    refine ⟨_, Scan.exec_checkExpr known s, ?_, s.keeps_report _, ?_⟩
    · rw [pass_of_no_decl sc rfl]
      exact tracks.report _
    · simp [Event.site?, ofSite, tracks.ofExpr]
  | enter head =>
    refine ⟨_, Scan.exec_happen_enter head s, ?_, ⟨rfl, rfl, ?_⟩,
      by simp [ScanState.openControl, Event.site?]⟩
    · rw [pass_of_no_decl sc rfl]
      refine ⟨tracks.globals, tracks.functions, fun name => ?_⟩
      rw [← tracks.inside]
      cases function : s.frame.function? <;>
        simp [ScanState.openControl, function, Function.declares_eq]
    · cases function : s.frame.function? <;> simp [ScanState.openControl, function]
  | leave =>
    refine ⟨_, Scan.exec_happen_leave s, ?_, ⟨rfl, rfl, rfl⟩,
      by simp [ScanState.closeControl, Event.site?]⟩
    rw [pass_of_no_decl sc rfl]
    exact ⟨tracks.globals, tracks.functions, tracks.inside⟩
  | foreign tag => cases known

/-- The first events of a statement have happened: the scan keeps track and has reported what the
scopes of their places tell. -/
def Happened (sc : Scope) (s : ScanState) (earlier : List Event) (t : ScanState) : Prop :=
  let passed := earlier.filterMap Event.site?
  sc.Passed passed (inOrder (fun passed site => (sc.pass passed).ofSite site) [] passed) s t

theorem Happened.step {earlier : List Event} {event : Event} {t : ScanState}
    (happened : sc.Happened s earlier t) (known : event.isKnown) :
    ∃ u, Scan.exec (Scan.happen event) t = (.ok (), u) ∧ sc.Happened s (earlier ++ [event]) u := by
  obtain ⟨u, run, passed⟩ := happen_passed happened.tracks known
  refine ⟨u, run, ?_, happened.keeps.trans passed.keeps, ?_⟩
  · have tracks := passed.tracks
    rw [pass_pass] at tracks
    cases site : event.site? <;> simpa [List.filterMap_cons, site] using tracks
  · rw [passed.remarks, happened.remarks, List.append_assoc]
    cases site : event.site? <;> simp [site, inOrder_concat]

/-- A scan of a known statement keeps track and reports what the scope tells. -/
theorem statement_passed (tracks : sc.Tracks s) {st : Stmt} (known : st.isKnown) :
    ∃ t, Scan.exec (Scan.statement st) s = (.ok (), t) ∧
      sc.Passed st.sites (sc.ofStmt st) s t := by
  have start : sc.Happened s [] s := by
    refine ⟨?_, .refl s, by simp [inOrder]⟩
    rw [List.filterMap_nil, pass_of_no_decl sc rfl]
    exact tracks
  obtain ⟨t, run, happened⟩ := Scan.exec_forM (sc.Happened s) (fun _ event member _ happened =>
    happened.step (Stmt.events_isKnown known event member)) start
  refine ⟨t, Scan.exec_keepNesting_ok run, ?_⟩
  simpa [Happened, Stmt.filterMap_events, ofStmt] using happened

end Scope

/-! ## Functions -/

/-- The parameters of a function are read up to some place: the function has each name once. -/
structure FunctionDecl.ParamsRead (decl : FunctionDecl) (earlier : List Param) (s t : ScanState) :
    Prop where
  globals : t.symbols.globals = s.symbols.globals
  functions : t.symbols.functions = s.symbols.functions
  inside : ∃ f, t.frame.function? = some f ∧ f.name = decl.name ∧ f.locals = [] ∧
    (f.parameters.map (·.name)).Nodup ∧
    ∀ name, name ∈ f.parameters.map (·.name) ↔ name ∈ earlier.map (·.name)
  remarks : t.symbols.remarks = s.symbols.remarks ++ inOrder decl.paramRemarks [] earlier

namespace FunctionDecl

variable {decl : FunctionDecl} {s t : ScanState}

theorem ParamsRead.step {earlier : List Param} {param : Param}
    (read : decl.ParamsRead earlier s t) (known : ValueType.spells param.type) :
    ∃ u, Scan.exec (Scan.declareParam param) t = (.ok (), u) ∧
      decl.ParamsRead (earlier ++ [param]) s u := by
  obtain ⟨f, function, name, locals, nodup, names⟩ := read.inside
  have duplicate : (f.parameter? param.name).isSome = earlier.any (·.name = param.name) := by
    have := names param.name
    simp only [List.mem_map] at this
    rw [Function.parameter?, List.isSome_find?, Bool.eq_iff_iff]
    simpa using this
  refine ⟨_, Scan.exec_declareParam known t, ?_⟩
  simp only [function, duplicate, name]
  split
  next old =>
    have member : param.name ∈ earlier.map (·.name) := by simpa using old
    refine ⟨read.globals, read.functions, ⟨f, function, name, locals, nodup, fun n => ?_⟩, ?_⟩
    · rw [names, List.map_append, List.mem_append]
      refine ⟨Or.inl, fun h => h.elim id fun h => ?_⟩
      rw [List.map_singleton, List.mem_singleton] at h
      exact h ▸ member
    · rw [inOrder_concat, List.nil_append, paramRemarks, if_pos old, ← List.append_assoc,
        ← read.remarks]
      exact t.report_remarks _
  next new =>
    have fresh : param.name ∉ earlier.map (·.name) := by simpa using new
    have added : (t.addParam param.variable).frame.function? =
        some { f with parameters := f.parameters ++ [param.variable] } := by
      simp [ScanState.addParam, function]
    refine ⟨read.globals, read.functions, ⟨_, added, name, locals, ?_, fun n => ?_⟩, ?_⟩
    · rw [List.map_append, List.map_singleton]
      refine List.nodup_append.2 ⟨nodup, List.nodup_singleton _, ?_⟩
      rintro n member _ last rfl
      have equal : n = param.name := List.mem_singleton.1 last
      exact fresh (equal ▸ (names n).1 member)
    · simp only [List.map_append, List.mem_append, names]
      rfl
    · rw [inOrder_concat, List.nil_append, paramRemarks, if_neg new, List.append_nil,
        ← read.remarks]
      rfl

/-- The parameters of a function that is being read. -/
theorem params_read (known : decl.params.all (ValueType.spells ·.type)) (s : ScanState) :
    ∃ t, Scan.exec (decl.params.forM Scan.declareParam) { s with frame := ⟨some decl.fresh, []⟩ } =
      (.ok (), t) ∧ decl.ParamsRead decl.params s t := by
  rw [List.all_eq_true] at known
  have start : decl.ParamsRead [] s { s with frame := ⟨some decl.fresh, []⟩ } :=
    ⟨rfl, rfl, ⟨decl.fresh, rfl, rfl, rfl, List.nodup_nil, fun _ => Iff.rfl⟩, by simp [inOrder]⟩
  exact Scan.exec_forM (fun earlier t => decl.ParamsRead earlier s t)
    (fun _ param member _ read => read.step (known param member)) start

/-- Behind its parameters a function sees what was seen before it, and them. -/
theorem ParamsRead.tracks {before : List TopLevel} (read : decl.ParamsRead decl.params s t)
    (tracks : Scope.Tracks ⟨before, none⟩ s) :
    Scope.Tracks ⟨before, some ⟨decl.params, []⟩⟩ t := by
  obtain ⟨f, function, -, locals, -, names⟩ := read.inside
  refine ⟨fun name => ?_, fun name => ?_, fun name => ?_⟩
  · rw [Symbols.global?, read.globals]
    exact tracks.globals name
  · rw [Symbols.function?, read.functions]
    exact tracks.functions name
  · have same := names name
    simp only [function, Option.map_some, Function.declares_eq, locals, Interior.declares,
      List.any_nil, Bool.or_false, Option.some.injEq]
    rw [Bool.eq_iff_iff]
    simpa using same

/-- Behind its parameters a function has as many as its declaration has names of parameters. -/
theorem ParamsRead.length_eq {f : Function} (read : decl.ParamsRead decl.params s t)
    (function : t.frame.function? = some f) : f.parameters.length = decl.arity := by
  obtain ⟨g, same, _, _, nodup, names⟩ := read.inside
  cases function.symm.trans same
  have length : (f.parameters.map (·.name)).length = f.parameters.length := List.length_map _
  rw [← length]
  refine ((List.perm_ext_iff_of_nodup nodup (List.nodup_dedup _)).2 fun name => ?_).length_eq
  rw [names, List.mem_dedup]

end FunctionDecl

/-! ## Whole programs -/

/-- A scan has read some top-level nodes: it keeps track of the scope behind them, has found an
entry function if one of them declares it, and has reported what they tell. -/
structure Scope.Scanned (entry : Text) (before : List TopLevel) (s : ScanState) : Prop where
  tracks : Scope.Tracks ⟨before, none⟩ s
  entry : s.symbols.functions.any (·.classification = .entry) = TopLevel.declareEntry entry before
  remarks : s.symbols.remarks = inOrder TopLevel.remarks [] before

namespace Scope

variable {entry : Text} {before : List TopLevel} {s : ScanState}

theorem declaresGlobal_concat (before : List TopLevel) (node : TopLevel) (name : Text) :
    declaresGlobal ⟨before ++ [node], none⟩ name =
      (declaresGlobal ⟨before, none⟩ name || node.global?.any (·.name = name)) := by
  cases global : node.global? <;> simp [declaresGlobal, global]

theorem function?_concat (before : List TopLevel) (node : TopLevel) (name : Text) :
    function? ⟨before ++ [node], none⟩ name =
      (function? ⟨before, none⟩ name).or (node.function?.filter (·.name = name)) := by
  unfold function?
  rw [List.filterMap_append, List.find?_append]
  congr 1
  cases function : node.function? with
  | none => simp [function]
  | some decl => simp [function, Option.filter, List.find?_cons]; split <;> simp_all

theorem declareEntry_concat (entry : Text) (before : List TopLevel) (node : TopLevel) :
    TopLevel.declareEntry entry (before ++ [node]) =
      (TopLevel.declareEntry entry before ||
        node.function?.any (·.name.toLower = entry.toLower)) := by
  cases function : node.function? <;> simp [TopLevel.declareEntry, function]

theorem Scanned.concat_remarks {node : TopLevel} (scanned : Scanned entry before s) :
    inOrder TopLevel.remarks [] (before ++ [node]) = s.symbols.remarks ++ node.remarks before := by
  rw [inOrder_concat, scanned.remarks, List.nil_append]

theorem Scanned.global_step (scanned : Scanned entry before s) {decl : VarDecl}
    (known : decl.isKnown) :
    ∃ t, Scan.exec (Scan.declareGlobal decl) s = (.ok (), t) ∧
      Scanned entry (before ++ [.global decl]) t := by
  have tracks := scanned.tracks
  have globals : ∀ name, declaresGlobal ⟨before ++ [.global decl], none⟩ name =
      (declaresGlobal ⟨before, none⟩ name || decide (decl.name = name)) := fun name => by
    simp [declaresGlobal_concat, TopLevel.global?]
  have functions : ∀ name, function? ⟨before ++ [.global decl], none⟩ name =
      function? ⟨before, none⟩ name := fun name => by simp [function?_concat, TopLevel.function?]
  have entries : TopLevel.declareEntry entry (before ++ [.global decl]) =
      TopLevel.declareEntry entry before := by simp [declareEntry_concat, TopLevel.function?]
  refine ⟨_, Scan.exec_declareGlobal known s, ?_⟩
  split
  next duplicate =>
    rw [tracks.globals] at duplicate
    refine ⟨⟨fun name => ?_, fun name => ?_, tracks.inside⟩, entries ▸ scanned.entry, ?_⟩
    · rw [globals, or_decide_of_mem duplicate]
      exact tracks.globals name
    · rw [functions]
      exact tracks.functions name
    · rw [scanned.concat_remarks, TopLevel.remarks, if_pos duplicate]
      exact s.report_remarks _
  next new =>
    rw [tracks.globals] at new
    refine ⟨⟨fun name => ?_, fun name => ?_, tracks.inside⟩, entries ▸ scanned.entry, ?_⟩
    · rw [globals, ← tracks.globals]
      by_cases equal : decl.name = name <;>
        simp [ScanState.addGlobal, Symbols.global?, VarDecl.variable, equal]
    · rw [functions]
      exact tracks.functions name
    · rw [scanned.concat_remarks, TopLevel.remarks, if_neg new, ← tracks.ofInit]
      exact s.report_remarks _

/-- A duplicate function changes nothing that the scope tells. -/
theorem Scanned.duplicate_step (scanned : Scanned entry before s) {decl : FunctionDecl}
    (duplicate : (function? ⟨before, none⟩ decl.name).isSome) :
    Scanned entry (before ++ [.function decl])
      (s.report [⟨decl.span.line, .duplicateFunction decl.name⟩]) := by
  have tracks := scanned.tracks.report [⟨decl.span.line, .duplicateFunction decl.name⟩]
  obtain ⟨old, found⟩ := Option.isSome_iff_exists.1 duplicate
  have sameName : old.name = decl.name := by simpa using List.find?_some found
  refine ⟨⟨fun name => ?_, fun name => ?_, tracks.inside⟩, ?_, ?_⟩
  · rw [declaresGlobal_concat]
    simpa [TopLevel.global?] using tracks.globals name
  · rw [function?_concat]
    by_cases equal : decl.name = name
    · subst equal
      simpa [found] using tracks.functions decl.name
    · simpa [TopLevel.function?, Option.filter, equal] using tracks.functions name
  · rw [declareEntry_concat]
    by_cases entryName : decl.name.toLower = entry.toLower
    · have declared : TopLevel.declareEntry entry before = true :=
        List.any_eq_true.2 ⟨old, List.mem_of_find?_eq_some found, by simp [sameName, entryName]⟩
      rw [declared, Bool.true_or, ← declared]
      exact scanned.entry
    · simpa [TopLevel.function?, entryName] using scanned.entry
  · rw [scanned.concat_remarks, TopLevel.remarks, if_pos duplicate]
    exact s.report_remarks _

theorem classify_eq_entry (entry name : Text) (body : Block Stmt) :
    Scan.classify entry name body = .entry ↔ name.toLower = entry.toLower := by
  unfold Scan.classify Scan.isEntryName
  split
  next same => simpa using same
  next other => split <;> simpa using other

/-- A function with a new name is read in the scope of its body and then registered. -/
theorem Scanned.function_step (scanned : Scanned entry before s) {decl : FunctionDecl}
    (known : decl.isKnown) :
    ∃ t, Scan.exec (discard (Scan.declareFunction entry decl)) s = (.ok (), t) ∧
      Scanned entry (before ++ [.function decl]) t := by
  simp only [FunctionDecl.isKnown, Bool.and_eq_true] at known
  obtain ⟨⟨knownType, knownParams⟩, knownBody⟩ := known
  have tracks := scanned.tracks
  by_cases duplicate : (function? ⟨before, none⟩ decl.name).isSome
  · refine ⟨_, Scan.exec_discard (Scan.exec_declareFunction_duplicate knownType ?_),
      scanned.duplicate_step duplicate⟩
    rw [tracks.function?_isSome]
    exact duplicate
  obtain ⟨mid, runParams, read⟩ := FunctionDecl.params_read knownParams s
  obtain ⟨f, function, sameName, -⟩ := read.inside
  obtain ⟨t, runBody, passed⟩ := statement_passed (read.tracks tracks) knownBody
  obtain ⟨g, functionAfter, head⟩ : ∃ g, t.frame.function? = some g ∧
      (g.name, g.parameters) = (f.name, f.parameters) := by
    have head := passed.keeps.head
    rw [function] at head
    obtain ⟨g, after, same⟩ := Option.map_eq_some_iff.1 head
    exact ⟨g, after, same⟩
  obtain ⟨nameAfter, paramsAfter⟩ := Prod.mk.inj head
  have new : (s.symbols.function? decl.name).isSome = false := by
    rw [tracks.function?_isSome]
    simpa using duplicate
  refine ⟨_, Scan.exec_discard
    (Scan.exec_declareFunction_new knownType new runParams runBody functionAfter), ?_⟩
  have globals := passed.keeps.globals.trans read.globals
  have functions := passed.keeps.functions.trans read.functions
  refine ⟨⟨fun name => ?_, fun name => ?_, tracks.inside⟩, ?_, ?_⟩
  · rw [declaresGlobal_concat]
    simpa [TopLevel.global?, ScanState.addFunction, Symbols.global?, globals] using
      tracks.globals name
  · have arity : g.parameters.length = decl.arity := by
      rw [paramsAfter, read.length_eq function]
    have old := tracks.functions name
    rw [Symbols.function?] at old
    rw [function?_concat, Option.map_or, ← old]
    simp only [ScanState.addFunction, Symbols.function?, functions, List.find?_append,
      Option.map_or]
    congr 1
    by_cases equal : decl.name = name <;>
      simp [TopLevel.function?, Option.filter, nameAfter, sameName, equal, arity]
  · rw [declareEntry_concat, ← scanned.entry]
    simp [ScanState.addFunction, functions, TopLevel.function?, classify_eq_entry]
  · rw [scanned.concat_remarks, TopLevel.remarks, if_neg duplicate, ← List.append_assoc,
      ← read.remarks, ← passed.remarks]
    rfl

/-- Every known top-level node is scanned to the end and reports what its scope tells. -/
theorem Scanned.step (scanned : Scanned entry before s) {node : TopLevel} (known : node.isKnown) :
    ∃ t, Scan.exec (Scan.topLevel entry node) s = (.ok (), t) ∧
      Scanned entry (before ++ [node]) t := by
  cases node with
  | global decl => exact scanned.global_step known
  | function decl => exact scanned.function_step known
  | statement st =>
    obtain ⟨t, run, passed⟩ := statement_passed scanned.tracks known
    have tracks := passed.tracks
    rw [pass_outside rfl] at tracks
    refine ⟨t, run, ⟨fun name => ?_, fun name => ?_, tracks.inside⟩, ?_, ?_⟩
    · rw [declaresGlobal_concat]
      simpa [TopLevel.global?] using tracks.globals name
    · rw [function?_concat]
      simpa [TopLevel.function?] using tracks.functions name
    · rw [declareEntry_concat, passed.keeps.functions]
      simpa [TopLevel.function?] using scanned.entry
    · rw [scanned.concat_remarks, passed.remarks]
      rfl

end Scope

namespace Program

/-- All the nodes of a program of known nodes are scanned. -/
theorem scanned {p : Program} (known : p.isKnown) (entry : Text) :
    ∃ s, Scan.exec (p.declarations.forM (Scan.topLevel entry)) {} = (.ok (), s) ∧
      Scope.Scanned entry p.declarations s := by
  rw [isKnown, List.all_eq_true] at known
  have start : Scope.Scanned entry [] {} :=
    ⟨⟨fun _ => rfl, fun _ => rfl, fun _ => rfl⟩, rfl, rfl⟩
  exact Scan.exec_forM (Scope.Scanned entry)
    (fun _ node member _ scanned => scanned.step (known node member)) start

/-- A scan of a program of known nodes comes to an end, and its diagnostics are those that the
source order tells, line by line and word by word: none is missing, none is added, and they come in
the same order. -/
theorem symbols_diagnostics (entry : Text) (p : Program) (known : p.isKnown) :
    ∃ symbols, p.symbols entry = .ok symbols ∧ symbols.remarks = p.remarks entry := by
  obtain ⟨s, run, scanned⟩ := scanned known entry
  have finished : Scan.exec (Scan.program entry p) {} = _ :=
    (Scan.exec_bind_ok run _).trans (Scan.exec_finish entry s)
  refine ⟨_, by unfold symbols; unfold Scan.exec at finished; rw [finished], ?_⟩
  rw [ScanState.report_remarks, scanned.remarks, scanned.entry, remarks]
  cases TopLevel.declareEntry entry p.declarations <;> rfl

/-- Repeated names, one declaration a line: `int g = h();`, then `int f(int a, int a)` with the
body `int a; f(b);`, then `int g = h();` again. -/
def repeatedNames : Program :=
  let place (line : Int) : Span := ⟨⟨line, 1⟩, ⟨line, 1⟩⟩
  let global (line : Int) : TopLevel :=
    .global ⟨"int", "g", some (.call ⟨"h()", place line⟩ "h" []), place line⟩
  let params : List Param := [⟨"int", "a", place 2⟩, ⟨"int", "a", place 3⟩]
  let body : List Stmt :=
    [.var ⟨"INT", "a", none, place 4⟩,
     .expr (.call ⟨"f(b)", place 5⟩ "f" [.identifier ⟨"b", place 5⟩ "b"]) (place 5)]
  ⟨[global 1, .function ⟨"int", some "f", none, some params, ⟨body, place 2⟩, place 2⟩, global 6],
    place 1⟩

theorem repeatedNames_diagnostics :
    repeatedNames.isKnown ∧ ∃ symbols, repeatedNames.symbols "main" = .ok symbols ∧
      symbols.remarks =
        [⟨1, "Call to undefined function: h"⟩,
         ⟨3, "Duplicate parameter name in function f: a"⟩,
         ⟨4, "Duplicate local variable declaration: a"⟩,
         ⟨5, "Call to undefined function: f"⟩,
         ⟨5, "Use of undeclared variable: b"⟩,
         ⟨6, "Duplicate global variable declaration: g"⟩,
         ⟨0, "No main function found in program"⟩] := by
  have known : repeatedNames.isKnown := by decide
  refine ⟨known, ?_⟩
  obtain ⟨symbols, returned, same⟩ := symbols_diagnostics "main" repeatedNames known
  exact ⟨symbols, returned, same.trans (by decide +kernel)⟩

end Program

end ProcCheck
