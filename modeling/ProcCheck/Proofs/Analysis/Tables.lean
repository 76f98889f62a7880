import Mathlib.Data.List.Forall2
import Mathlib.Data.List.Induction
import ProcCheck.Proofs.Analysis.Diagnostics
import ProcCheck.Proofs.Analysis.Returned

/-!
# Symbol tables hold the first declarations

Every table of a scan is filled by checking a name and then adding a symbol. So a table and the
declarations of its scope correspond one to one once the declarations that repeat a name are left
out: `firsts` leaves them out, and each check-then-add keeps the correspondence. Nothing is
assumed of the program but that its scan returns.
-/

namespace ProcCheck

/-! ## First declarations -/

section Firsts

variable {α β : Type} {name : α → Text} {taken : List Text} {l : List α} {a : α}

/-- The elements of a list whose name is not taken and is that of no earlier element. -/
def firsts (name : α → Text) (taken : List Text) (l : List α) : List α :=
  inOrder (fun earlier a => if name a ∈ taken ++ earlier.map name then [] else [a]) [] l

theorem firsts_concat_old (old : name a ∈ taken ++ l.map name) :
    firsts name taken (l ++ [a]) = firsts name taken l := by
  rw [firsts, inOrder_concat, List.nil_append, if_pos old, List.append_nil]
  rfl

theorem firsts_concat_new (new : name a ∉ taken ++ l.map name) :
    firsts name taken (l ++ [a]) = firsts name taken l ++ [a] := by
  rw [firsts, inOrder_concat, List.nil_append, if_neg new]
  rfl

/-- The first elements have the names of all elements that are not taken. -/
theorem mem_map_firsts {n : Text} :
    n ∈ (firsts name taken l).map name ↔ n ∈ l.map name ∧ n ∉ taken := by
  induction l using List.reverseRecOn with
  | nil => simp [firsts, inOrder]
  | append_singleton l a ih =>
    by_cases old : name a ∈ taken ++ l.map name
    · rw [firsts_concat_old old, ih, List.map_append, List.mem_append]
      constructor
      · rintro ⟨member, free⟩
        exact ⟨.inl member, free⟩
      · rintro ⟨member | last, free⟩
        · exact ⟨member, free⟩
        · obtain rfl : n = name a := by simpa using last
          exact ⟨(List.mem_append.1 old).resolve_left free, free⟩
    · rw [firsts_concat_new old, List.map_append, List.map_append, List.mem_append, ih,
        List.mem_append]
      constructor
      · rintro (⟨member, free⟩ | last)
        · exact ⟨.inl member, free⟩
        · obtain rfl : n = name a := by simpa using last
          exact ⟨.inr last, fun bound => old (List.mem_append_left _ bound)⟩
      · rintro ⟨member | last, free⟩
        · exact .inl ⟨member, free⟩
        · exact .inr last

/-- No two of the first elements have the same name. -/
theorem nodup_map_firsts : ((firsts name taken l).map name).Nodup := by
  induction l using List.reverseRecOn with
  | nil => exact List.nodup_nil
  | append_singleton l a ih =>
    by_cases old : name a ∈ taken ++ l.map name
    · rwa [firsts_concat_old old]
    · rw [firsts_concat_new old, List.map_append, List.nodup_append]
      refine ⟨ih, List.nodup_singleton _, ?_⟩
      rintro n member _ last rfl
      obtain rfl : n = name a := by simpa using last
      exact old (List.mem_append_right _ (mem_map_firsts.1 member).1)

theorem firsts_subset : firsts name taken l ⊆ l := by
  induction l using List.reverseRecOn with
  | nil => exact List.Subset.refl _
  | append_singleton l a ih =>
    by_cases old : name a ∈ taken ++ l.map name
    · rw [firsts_concat_old old]
      exact List.Subset.trans ih (List.subset_append_left _ _)
    · rw [firsts_concat_new old]
      exact List.append_subset.2
        ⟨List.Subset.trans ih (List.subset_append_left _ _), List.subset_append_right _ _⟩

variable {R : α → β → Prop} {key : β → Text} {table : List β} {b : β}

/-- A table has the names of the declarations that it holds, if each symbol has that of its
declaration. -/
theorem map_key_eq (same : ∀ a b, R a b → key b = name a) {declared : List α}
    (holds : List.Forall₂ R declared table) : table.map key = declared.map name := by
  induction holds with
  | nil => rfl
  | cons head _ ih => rw [List.map_cons, List.map_cons, same _ _ head, ih]

/-- Every symbol of a table is that of a declaration that the table holds. -/
theorem mem_declared {declared : List α} (holds : List.Forall₂ R declared table)
    (member : b ∈ table) : ∃ a ∈ declared, R a b := by
  induction holds with
  | nil => cases member
  | cons head _ ih =>
    rcases List.mem_cons.1 member with rfl | member
    · exact ⟨_, List.mem_cons_self, head⟩
    · obtain ⟨a, among, related⟩ := ih member
      exact ⟨a, List.mem_cons_of_mem _ among, related⟩

/-- A table that holds the first declarations has a name if a declaration has it and it is not
taken. -/
theorem mem_map_key (same : ∀ a b, R a b → key b = name a)
    (holds : List.Forall₂ R (firsts name taken l) table) {n : Text} :
    n ∈ table.map key ↔ n ∈ l.map name ∧ n ∉ taken := by
  rw [map_key_eq same holds, mem_map_firsts]

/-- A declaration whose name is known already adds nothing. -/
theorem forall₂_firsts_old (holds : List.Forall₂ R (firsts name taken l) table)
    (old : name a ∈ taken ++ l.map name) : List.Forall₂ R (firsts name taken (l ++ [a])) table := by
  rwa [firsts_concat_old old]

/-- A declaration with a new name adds its symbol at the end. -/
theorem forall₂_firsts_new (holds : List.Forall₂ R (firsts name taken l) table)
    (new : name a ∉ taken ++ l.map name) (declares : R a b) :
    List.Forall₂ R (firsts name taken (l ++ [a])) (table ++ [b]) := by
  rw [firsts_concat_new new]
  exact List.rel_append holds (.cons declares .nil)

end Firsts

/-! ## Look-up by name -/

theorem Symbols.global?_isSome {s : Symbols} {name : Text} :
    (s.global? name).isSome = true ↔ name ∈ s.globals.map (·.name) := by
  simp [global?]

theorem Symbols.function?_isSome {s : Symbols} {name : Text} :
    (s.function? name).isSome = true ↔ name ∈ s.functions.map (·.name) := by
  simp [function?]

theorem Function.parameter?_isSome {f : Function} {name : Text} :
    (f.parameter? name).isSome = true ↔ name ∈ f.parameters.map (·.name) := by
  simp [parameter?]

theorem Function.declares_iff {f : Function} {name : Text} :
    f.declares name = true ↔
      name ∈ f.parameters.map (·.name) ∨ name ∈ f.locals.map (·.name) := by
  simp [declares_eq]

/-! ## Bodies of functions -/

/-- A function without what the scan of its body adds to it. -/
def Function.signature (f : Function) : Function := { f with locals := [], controls := [] }

/-- From the state `s` on a scan has passed some declarations: it has left the global tables and
the signature of its function alone, and the locals of the function are the first declarations of
the names that are not taken. -/
structure ScanState.Passed (taken : List Text) (s : ScanState) (passed : List VarDecl)
    (t : ScanState) : Prop where
  globals : t.symbols.globals = s.symbols.globals
  functions : t.symbols.functions = s.symbols.functions
  signature : t.frame.function?.map Function.signature = s.frame.function?.map Function.signature
  locals : ∀ f ∈ t.frame.function?,
    List.Forall₂ (VarDecl.Declares false) (firsts VarDecl.name taken passed) f.locals

/-- The taken names are those of the parameters of the function that the scan stands in. -/
def ScanState.Takes (taken : List Text) (s : ScanState) : Prop :=
  ∀ f ∈ s.frame.function?, ∀ n, n ∈ f.parameters.map (·.name) ↔ n ∈ taken

namespace ScanState

variable {taken : List Text} {s t u : ScanState} {passed : List VarDecl}

/-- What is taken stays so: the parameters belong to the signature. -/
theorem Passed.takes (through : s.Passed taken passed t) (takes : s.Takes taken) :
    t.Takes taken := by
  intro f function n
  have same := through.signature
  rw [Option.mem_def.1 function] at same
  obtain ⟨g, before, signature⟩ := Option.map_eq_some_iff.1 same.symm
  have parameters : g.parameters = f.parameters := (Function.mk.inj signature).2.2.2.1
  rw [← parameters]
  exact takes g before n

/-- A step that changes neither the tables nor the signature nor the locals passes nothing. -/
theorem Passed.keep (through : s.Passed taken passed t)
    (globals : u.symbols.globals = t.symbols.globals)
    (functions : u.symbols.functions = t.symbols.functions)
    (inside : u.frame.function?.map (fun f => (f.signature, f.locals)) =
      t.frame.function?.map fun f => (f.signature, f.locals)) : s.Passed taken passed u := by
  refine ⟨globals.trans through.globals, functions.trans through.functions, ?_, ?_⟩
  · rw [← through.signature]
    simpa [Function.comp_def] using congrArg (Option.map Prod.fst) inside
  · intro f function
    rw [Option.mem_def.1 function] at inside
    obtain ⟨g, before, same⟩ := Option.map_eq_some_iff.1 inside.symm
    have locals : g.locals = f.locals := (Prod.mk.inj same).2
    rw [← locals]
    exact through.locals g before

/-- A declaration whose name is known already is passed without a trace in the tables. -/
theorem Passed.duplicate (through : s.Passed taken passed t) {decl : VarDecl}
    (old : t.frame.function?.isSome → decl.name ∈ taken ++ passed.map VarDecl.name)
    (found : List Diagnostic) : s.Passed taken (passed ++ [decl]) (t.report found) := by
  refine ⟨through.globals, through.functions, through.signature, fun f function => ?_⟩
  exact forall₂_firsts_old (through.locals f function) (old (Option.isSome_of_mem function))

theorem Passed.declare (through : s.Passed taken passed t) (takes : s.Takes taken) {decl : VarDecl}
    (run : Scan.exec (Scan.declareLocal decl) t = (.ok (), u)) :
    s.Passed taken (passed ++ [decl]) u := by
  rcases Scan.exec_declareLocal_returns run with ⟨outside, rfl⟩ | ⟨f, function, added⟩
  · exact through.duplicate (by simp [outside]) _
  · have names : f.declares decl.name = true ↔ decl.name ∈ taken ++ passed.map VarDecl.name := by
      rw [Function.declares_iff, through.takes takes f function,
        mem_map_key (fun _ _ declares => declares.name) (through.locals f function),
        List.mem_append]
      tauto
    rcases added with ⟨old, rfl⟩ | ⟨new, v, declares, rfl⟩
    · exact through.duplicate (fun _ => names.1 old) _
    · have fresh : decl.name ∉ taken ++ passed.map VarDecl.name := by
        rw [← names, new]
        exact Bool.false_ne_true
      refine ⟨through.globals, through.functions, ?_, ?_⟩
      · rw [← through.signature]
        simp [addLocal, function, Function.signature]
      · intro g after
        obtain rfl : { f with locals := f.locals ++ [v] } = g := by
          simpa [addLocal, function] using after
        exact forall₂_firsts_new (through.locals f function) fresh declares

/-- Every event that returns passes the declaration that it is, if it is one. -/
theorem Passed.step (through : s.Passed taken passed t) (takes : s.Takes taken) {event : Event}
    (run : Scan.exec (Scan.happen event) t = (.ok (), u)) :
    s.Passed taken (passed ++ (event.site?.bind Site.decl?).toList) u := by
  cases event with
  | declare decl => exact through.declare takes run
  | check e =>
    obtain ⟨-, rfl⟩ := Scan.exec_checkExpr_returns.1 run
    rw [Event.site?, Option.bind_some, Site.decl?, Option.toList_none, List.append_nil]
    exact through.keep rfl rfl rfl
  | enter head =>
    rw [Scan.exec_happen_enter] at run
    obtain rfl := (Prod.mk.inj run).2
    rw [Event.site?, Option.bind_none, Option.toList_none, List.append_nil]
    refine through.keep rfl rfl ?_
    cases function : t.frame.function? <;> simp [openControl, function, Function.signature]
  | leave =>
    rw [Scan.exec_happen_leave] at run
    obtain rfl := (Prod.mk.inj run).2
    rw [Event.site?, Option.bind_none, Option.toList_none, List.append_nil]
    exact through.keep rfl rfl rfl
  | foreign tag => cases run

end ScanState

/-- The declarations in a statement, in source order: those of nested blocks, of both branches, of
the bodies of loops and of their first clauses are among them. -/
def Stmt.varDecls (s : Stmt) : List VarDecl := s.sites.filterMap Site.decl?

/-- A scan of a statement that returns has passed the declarations in it. -/
theorem ScanState.passed_statement {taken : List Text} {s t : ScanState} (takes : s.Takes taken)
    (none : ∀ f ∈ s.frame.function?, f.locals = []) {st : Stmt}
    (run : Scan.exec (Scan.statement st) s = (.ok (), t)) :
    s.Passed taken st.varDecls t := by
  -- The loop runs over events and the invariant is about declarations: most events are none.
  let Inv (earlier : List Event) (u : ScanState) : Prop :=
    s.Passed taken ((earlier.filterMap Event.site?).filterMap Site.decl?) u
  have start : Inv [] s := by
    refine ⟨rfl, rfl, rfl, fun f function => ?_⟩
    rw [none f function]
    exact .nil
  have loop : Inv ([] ++ st.events) t := by
    refine Scan.exec_forM_returns Inv (fun earlier event u v through run => ?_) start
      (Scan.exec_keepNesting_returns.1 run)
    have step := through.step takes run
    cases site : event.site? with
    | none => simpa [Inv, site] using step
    | some place => cases decl : place.decl? <;> simpa [Inv, site, decl] using step
  simpa [Inv, Stmt.filterMap_events, Stmt.varDecls] using loop

/-! ## Functions -/

/-- A function is the one that a declaration declares: it has the name, the type and the line of
the declaration, the first parameter of each name, and of the declarations in the body the first
of each name that no parameter has. -/
structure FunctionDecl.Declares (decl : FunctionDecl) (f : Function) : Prop where
  name : f.name = decl.name
  returnType : ValueType.ofSpelling? decl.returnType = some f.returnType
  line : f.line = decl.span.line
  parameters : List.Forall₂ Param.Declares (firsts Param.name [] decl.params) f.parameters
  locals : List.Forall₂ (VarDecl.Declares false)
    (firsts VarDecl.name (decl.params.map (·.name)) (Stmt.block decl.body).varDecls) f.locals

/-- The parameters of a function are read up to some place: they are all that the scan has
changed since the function was `fresh`. -/
structure Function.ParamsAdded (fresh : Function) (s : ScanState) (earlier : List Param)
    (t : ScanState) : Prop where
  globals : t.symbols.globals = s.symbols.globals
  functions : t.symbols.functions = s.symbols.functions
  inside : ∃ parameters, t.frame.function? = some { fresh with parameters } ∧
    List.Forall₂ Param.Declares (firsts Param.name [] earlier) parameters

theorem Function.ParamsAdded.step {fresh : Function} {s t u : ScanState} {earlier : List Param}
    {param : Param} (added : fresh.ParamsAdded s earlier t)
    (run : Scan.exec (Scan.declareParam param) t = (.ok (), u)) :
    fresh.ParamsAdded s (earlier ++ [param]) u := by
  obtain ⟨parameters, function, holds⟩ := added.inside
  have names : param.name ∈ parameters.map (·.name) ↔
      param.name ∈ [] ++ earlier.map Param.name := by
    rw [mem_map_key (fun _ _ declares => declares.name) holds]
    simp
  rcases Scan.exec_declareParam_returns function run with ⟨old, rfl⟩ | ⟨new, v, declares, rfl⟩
  · rw [Function.parameter?_isSome, names] at old
    exact ⟨added.globals, added.functions, parameters, function, forall₂_firsts_old holds old⟩
  · have fresh : param.name ∉ [] ++ earlier.map Param.name := by
      rw [← names]
      intro member
      rw [Function.parameter?_isSome.2 member] at new
      cases new
    refine ⟨added.globals, added.functions, parameters ++ [v], ?_,
      forall₂_firsts_new holds fresh declares⟩
    simp [ScanState.addParam, function]

/-- A function with a new name that is registered is the one that its declaration declares, and
the scan of it has changed the table of functions only. -/
theorem FunctionDecl.declares_registered {decl : FunctionDecl} {type : ValueType}
    {s mid last : ScanState} (resolved : ValueType.ofSpelling? decl.returnType = some type)
    {fresh : Function}
    (isFresh : fresh = { name := decl.name, returnType := type, line := decl.span.line })
    (params : Scan.exec (decl.params.forM Scan.declareParam)
      { s with frame := ⟨some fresh, []⟩ } = (.ok (), mid))
    (body : Scan.exec (Scan.statement (.block decl.body)) mid = (.ok (), last))
    (classification : Classification) :
    last.symbols.globals = s.symbols.globals ∧ last.symbols.functions = s.symbols.functions ∧
      decl.Declares { last.frame.function?.getD fresh with classification } := by
  have start : fresh.ParamsAdded s [] { s with frame := ⟨some fresh, []⟩ } := by
    subst isFresh
    exact ⟨rfl, rfl, [], rfl, .nil⟩
  have added := Scan.exec_forM_returns _ (fun _ _ _ _ added run => added.step run) start params
  obtain ⟨parameters, function, holds⟩ := added.inside
  rw [List.nil_append] at holds
  have takes : mid.Takes (decl.params.map (·.name)) := by
    intro f inside n
    rw [function] at inside
    cases inside
    rw [mem_map_key (fun _ _ declares => declares.name) holds]
    simp
  have through := ScanState.passed_statement takes (by simp [function, isFresh]) body
  have signature := through.signature
  rw [function] at signature
  obtain ⟨f, after, same⟩ := Option.map_eq_some_iff.1 signature
  refine ⟨through.globals.trans added.globals, through.functions.trans added.functions, ?_⟩
  rw [after, Option.getD_some]
  subst isFresh
  have parametersEq : f.parameters = parameters := congrArg Function.parameters same
  have typeEq : f.returnType = type := congrArg Function.returnType same
  refine ⟨congrArg Function.name same, ?_, congrArg Function.line same, ?_,
    through.locals f after⟩
  · rw [resolved, typeEq]
  · rwa [← parametersEq] at holds

/-! ## Programs -/

/-- The global variables that a program declares, in order. Declarations that stand outside of
functions as statements are not among them. -/
def Program.globals (p : Program) : List VarDecl := p.declarations.filterMap TopLevel.global?

/-- The functions that a program declares, in order. -/
def Program.functions (p : Program) : List FunctionDecl :=
  p.declarations.filterMap TopLevel.function?

theorem Program.mem_functions {p : Program} {decl : FunctionDecl} :
    decl ∈ p.functions ↔ .function decl ∈ p.declarations := by
  rw [functions, List.mem_filterMap]
  constructor
  · rintro ⟨node, member, same⟩
    cases node <;> cases same
    exact member
  · intro member
    exact ⟨_, member, rfl⟩

/-- The tables hold the first declarations of some top-level nodes, and the scan is outside of
all functions. -/
structure ScanState.Holds (before : List TopLevel) (s : ScanState) : Prop where
  globals : List.Forall₂ (VarDecl.Declares true)
    (firsts VarDecl.name [] (before.filterMap TopLevel.global?)) s.symbols.globals
  functions : List.Forall₂ FunctionDecl.Declares
    (firsts FunctionDecl.name [] (before.filterMap TopLevel.function?)) s.symbols.functions
  outside : s.frame.function? = none

namespace ScanState

variable {before : List TopLevel} {s t : ScanState} {entry : Text}

theorem Holds.global_step (holds : s.Holds before) {decl : VarDecl}
    (run : Scan.exec (Scan.declareGlobal decl) s = (.ok (), t)) :
    t.Holds (before ++ [.global decl]) := by
  have names : (s.symbols.global? decl.name).isSome = true ↔
      decl.name ∈ [] ++ (before.filterMap TopLevel.global?).map VarDecl.name := by
    rw [Symbols.global?_isSome, mem_map_key (fun _ _ declares => declares.name) holds.globals]
    simp
  have functions : (before ++ [TopLevel.global decl]).filterMap TopLevel.function? =
      before.filterMap TopLevel.function? := by simp [TopLevel.function?]
  have globals : (before ++ [TopLevel.global decl]).filterMap TopLevel.global? =
      before.filterMap TopLevel.global? ++ [decl] := by simp [TopLevel.global?]
  rcases Scan.exec_declareGlobal_returns run with ⟨old, rfl⟩ | ⟨new, v, declares, rfl⟩
  · refine ⟨?_, functions ▸ holds.functions, holds.outside⟩
    rw [globals]
    exact forall₂_firsts_old holds.globals (names.1 old)
  · have fresh : decl.name ∉ [] ++ (before.filterMap TopLevel.global?).map VarDecl.name := by
      rw [← names, new]
      exact Bool.false_ne_true
    refine ⟨?_, functions ▸ holds.functions, holds.outside⟩
    rw [globals]
    exact forall₂_firsts_new holds.globals fresh declares

theorem Holds.function_step (holds : s.Holds before) {decl : FunctionDecl}
    {answer : Option Function}
    (run : Scan.exec (Scan.declareFunction entry decl) s = (.ok answer, t)) :
    t.Holds (before ++ [.function decl]) := by
  have names : (s.symbols.function? decl.name).isSome = true ↔
      decl.name ∈ [] ++ (before.filterMap TopLevel.function?).map FunctionDecl.name := by
    rw [Symbols.function?_isSome, mem_map_key (fun _ _ declares => declares.name) holds.functions]
    simp
  have globals : (before ++ [TopLevel.function decl]).filterMap TopLevel.global? =
      before.filterMap TopLevel.global? := by simp [TopLevel.global?]
  have functions : (before ++ [TopLevel.function decl]).filterMap TopLevel.function? =
      before.filterMap TopLevel.function? ++ [decl] := by simp [TopLevel.function?]
  rcases Scan.exec_declareFunction_returns run with
    ⟨old, rfl⟩ | ⟨new, type, mid, last, resolved, params, body, rfl⟩
  · refine ⟨globals ▸ holds.globals, ?_, holds.outside⟩
    rw [functions]
    exact forall₂_firsts_old holds.functions (names.1 old)
  · have fresh : decl.name ∉ [] ++ (before.filterMap TopLevel.function?).map FunctionDecl.name := by
      rw [← names, new]
      exact Bool.false_ne_true
    -- The function is registered behind its body, in tables that the body has left alone.
    obtain ⟨sameGlobals, sameFunctions, declares⟩ :=
      decl.declares_registered resolved rfl params body (Scan.classify entry decl.name decl.body)
    refine ⟨?_, ?_, holds.outside⟩
    · rw [globals]
      exact sameGlobals ▸ holds.globals
    · rw [functions]
      exact forall₂_firsts_new (sameFunctions ▸ holds.functions) fresh declares

/-- Every top-level node whose scan returns keeps the tables as they should be. -/
theorem Holds.step (holds : s.Holds before) {node : TopLevel}
    (run : Scan.exec (Scan.topLevel entry node) s = (.ok (), t)) :
    t.Holds (before ++ [node]) := by
  cases node with
  | global decl => exact holds.global_step run
  | function decl =>
    obtain ⟨answer, run⟩ := Scan.exec_discard_returns.1 run
    exact holds.function_step run
  | statement st =>
    have outside := holds.outside
    have takes : s.Takes [] := by simp [Takes, outside]
    have through := passed_statement takes (by simp [outside]) run
    have none := through.signature
    rw [outside, Option.map_none, Option.map_eq_none_iff] at none
    refine ⟨?_, ?_, none⟩
    · rw [through.globals, List.filterMap_append]
      simpa [List.filterMap_cons, TopLevel.global?] using holds.globals
    · rw [through.functions, List.filterMap_append]
      simpa [List.filterMap_cons, TopLevel.function?] using holds.functions

end ScanState

/-- The tables of a program whose scan returns correspond to its first declarations. -/
theorem Program.symbols_tables {p : Program} {entry : Text} {symbols : Symbols}
    (returned : p.symbols entry = .ok symbols) :
    List.Forall₂ (VarDecl.Declares true) (firsts VarDecl.name [] p.globals) symbols.globals ∧
      List.Forall₂ FunctionDecl.Declares (firsts FunctionDecl.name [] p.functions)
        symbols.functions := by
  obtain ⟨s, run, rfl⟩ := symbols_eq_ok.1 returned
  have start : ScanState.Holds [] {} := ⟨.nil, .nil, rfl⟩
  have holds : s.Holds ([] ++ p.declarations) :=
    Scan.exec_forM_returns (fun before s => s.Holds before)
      (fun _ _ _ _ holds run => holds.step run) start run
  exact ⟨holds.globals, holds.functions⟩

/-- In a function that a declaration declares no name is used twice, neither by two parameters nor
by two locals nor by one of each. -/
theorem FunctionDecl.Declares.nodup {decl : FunctionDecl} {f : Function}
    (declares : decl.Declares f) :
    ((f.parameters ++ f.locals).map (·.name)).Nodup := by
  have parameters := map_key_eq (fun _ _ declares => declares.name) declares.parameters
  have locals := map_key_eq (fun _ _ declares => declares.name) declares.locals
  rw [List.map_append, List.nodup_append, parameters, locals]
  refine ⟨nodup_map_firsts, nodup_map_firsts, ?_⟩
  rintro n parameter _ other rfl
  exact (mem_map_firsts.1 other).2 (mem_map_firsts.1 parameter).1

/-- The tables of a program whose scan returns are exactly its first declarations: the first global
variable of each name, the first function of each name with the first parameter of each name and
the first local variable of each name that no parameter has, all in source order. So no name is
twice in a table or in the names of a function, and whatever is in a table was declared as a global
variable or by a function; declarations that are statements outside of functions are not. -/
theorem Program.symbols_firsts {p : Program} {entry : Text} {symbols : Symbols}
    (returned : p.symbols entry = .ok symbols) :
    List.Forall₂ (VarDecl.Declares true) (firsts VarDecl.name [] p.globals) symbols.globals ∧
    List.Forall₂ FunctionDecl.Declares (firsts FunctionDecl.name [] p.functions)
      symbols.functions ∧
    (symbols.globals.map (·.name)).Nodup ∧ (symbols.functions.map (·.name)).Nodup ∧
    (∀ f ∈ symbols.functions, ((f.parameters ++ f.locals).map (·.name)).Nodup) ∧
    (∀ v ∈ symbols.globals, ∃ decl, .global decl ∈ p.declarations ∧ decl.Declares true v) ∧
    ∀ f ∈ symbols.functions, ∃ decl, .function decl ∈ p.declarations ∧ decl.Declares f := by
  obtain ⟨globals, functions⟩ := symbols_tables returned
  have declared := map_key_eq (fun _ _ declares => declares.name) globals
  have named := map_key_eq (fun _ _ declares => declares.name) functions
  refine ⟨globals, functions, declared ▸ nodup_map_firsts, named ▸ nodup_map_firsts, ?_, ?_, ?_⟩
  · intro f member
    obtain ⟨decl, -, declares⟩ := mem_declared functions member
    exact declares.nodup
  · intro v member
    obtain ⟨decl, among, declares⟩ := mem_declared globals member
    obtain ⟨node, inside, same⟩ := List.mem_filterMap.1 (firsts_subset among)
    cases node <;> cases same
    exact ⟨decl, inside, declares⟩
  · intro f member
    obtain ⟨decl, among, declares⟩ := mem_declared functions member
    obtain ⟨node, inside, same⟩ := List.mem_filterMap.1 (firsts_subset among)
    cases node <;> cases same
    exact ⟨decl, inside, declares⟩

/-- Declarations that repeat names, about one a line: `int g = 1; int g;`, the function
`void f(int a, float a)` with the body
`{ int b; } if (a) { int c; } else { int c; int a; } for (int d; ; ) { int b; }`, then
`{ int s; }` and `int f() { int z; }`. -/
def Program.scopes : Program :=
  let place (line : Int) : Span := ⟨⟨line, 1⟩, ⟨line, 1⟩⟩
  let decl (line : Int) (name : Text) : VarDecl := ⟨"int", name, none, place line⟩
  let block (statements : List Stmt) : Block Stmt := ⟨statements, place 1⟩
  let params : List Param := [⟨"int", "a", place 3⟩, ⟨"FLOAT", "a", place 4⟩]
  let body : List Stmt :=
    [.block (block [.var (decl 5 "b")]),
     .branch (.identifier ⟨"a", place 6⟩ "a") (block [.var (decl 6 "c")])
       (some (block [.var (decl 7 "c"), .var (decl 8 "a")])) (place 6),
     .forLoop (some (.var (decl 9 "d"))) none none (block [.var (decl 10 "b")]) (place 9)]
  ⟨[.global ⟨"int", "g", some (.identifier ⟨"1", place 1⟩ "1"), place 1⟩, .global (decl 2 "g"),
    .function ⟨"void", some "f", none, some params, block body, place 3⟩,
    .statement (.block (block [.var (decl 11 "s")])),
    .function ⟨"int", some "f", none, none, block [.var (decl 12 "z")], place 12⟩], place 1⟩

theorem Program.scopes_firsts : ∃ symbols, scopes.symbols "main" = .ok symbols ∧
    List.Forall₂ (VarDecl.Declares true) (firsts VarDecl.name [] scopes.globals)
      symbols.globals ∧
    List.Forall₂ FunctionDecl.Declares (firsts FunctionDecl.name [] scopes.functions)
      symbols.functions ∧
    symbols.globals.map (·.line) = [1] ∧
    symbols.functions.map (fun f => (f.line, f.parameters.map (·.line), f.locals.map (·.line))) =
      [(3, [3], [5, 6, 9])] := by
  obtain ⟨symbols, returned⟩ : ∃ symbols, scopes.symbols "main" = .ok symbols := ⟨_, rfl⟩
  obtain ⟨globals, functions, -⟩ := symbols_firsts returned
  have lines : (scopes.symbols "main").toOption.map (fun symbols =>
      (symbols.globals.map (·.line), symbols.functions.map fun f =>
        (f.line, f.parameters.map (·.line), f.locals.map (·.line)))) =
      some ([1], [(3, [3], [5, 6, 9])]) := by
    decide +kernel
  rw [returned] at lines
  obtain ⟨sameGlobals, sameFunctions⟩ := Prod.mk.inj (Option.some.inj lines)
  exact ⟨symbols, returned, globals, functions, sameGlobals, sameFunctions⟩

end ProcCheck
