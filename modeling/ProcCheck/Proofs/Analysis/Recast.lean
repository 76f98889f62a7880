import Mathlib.Data.List.Forall2
import Mathlib.Data.Option.Basic
import ProcCheck.Proofs.Analysis.Returned
import ProcCheck.Proofs.Tree.Recast

/-!
# Scanning recast trees

A scan compares names, looks whether a text is compound and stores the rest. So where no two names
become one and no compound text becomes a bare one, a scan of a recast tree (`Recast.Keeps`) does
what the scan of the tree does. What it records is like what that records: a `Likeness` tells what
becomes of names, of conditions and of lines, and how the initial values of variables are related.
-/

namespace ProcCheck

/-- How what is recorded of one program is like what is recorded of another. -/
structure Likeness where
  /-- What a name becomes. -/
  name : Text → Text
  /-- What a condition becomes. -/
  text : Text → Text
  /-- What a line becomes. -/
  line : Int → Int
  /-- How the initial values of variables are related. -/
  initial : Option InitialValue → Option InitialValue → Prop

/-! ## Tables -/

section Tables

variable (k : Likeness)

/-- A variable is like another. -/
structure Variable.Like (v w : Variable) : Prop where
  name : w.name = k.name v.name
  type : w.type = v.type
  isGlobal : w.isGlobal = v.isGlobal
  line : w.line = k.line v.line
  initial : k.initial v.initial w.initial

/-- What a control structure becomes. -/
def ControlStructure.image (c : ControlStructure) : ControlStructure :=
  ⟨c.kind, k.line c.startLine, k.line c.endLine, k.text c.condition, c.depth⟩

/-- A function is like another. -/
structure Function.Like (f g : Function) : Prop where
  name : g.name = k.name f.name
  returnType : g.returnType = f.returnType
  line : g.line = k.line f.line
  classification : g.classification = f.classification
  parameters : List.Forall₂ (Variable.Like k) f.parameters g.parameters
  locals : List.Forall₂ (Variable.Like k) f.locals g.locals
  controls : g.controls = f.controls.map (ControlStructure.image k)

/-- What a problem becomes. The name of a missing entry function is not one of the program, and a
wording that a problem comes with stays. -/
def Problem.image : Problem → Problem
  | duplicateGlobal name => .duplicateGlobal (k.name name)
  | duplicateLocal name => .duplicateLocal (k.name name)
  | duplicateParameter function name => .duplicateParameter (k.name function) (k.name name)
  | duplicateFunction name => .duplicateFunction (k.name name)
  | variableOutsideFunction => .variableOutsideFunction
  | undeclaredVariable name => .undeclaredVariable (k.name name)
  | undeclaredTarget name => .undeclaredTarget (k.name name)
  | undefinedFunction name => .undefinedFunction (k.name name)
  | wrongArgumentCount name expected given => .wrongArgumentCount (k.name name) expected given
  | missingEntry name => .missingEntry name
  | remark text => .remark text

/-- What a diagnostic becomes. -/
def Diagnostic.image (d : Diagnostic) : Diagnostic := ⟨k.line d.line, d.problem.image k⟩

/-- Tables are like other tables: they have the same length, and in the same place of both stands
what is alike. -/
structure Symbols.Like (s t : Symbols) : Prop where
  globals : List.Forall₂ (Variable.Like k) s.globals t.globals
  functions : List.Forall₂ (Function.Like k) s.functions t.functions
  diagnostics : t.diagnostics = s.diagnostics.map (Diagnostic.image k)

/-- A frame is like another. -/
structure Frame.Like (frame frame' : Frame) : Prop where
  function? : Option.Rel (Function.Like k) frame.function? frame'.function?
  nesting : frame'.nesting = frame.nesting.map (ControlStructure.image k)

/-- The state of a scan is like another. -/
structure ScanState.Like (s t : ScanState) : Prop where
  symbols : s.symbols.Like k t.symbols
  frame : s.frame.Like k t.frame

end Tables

variable {k : Likeness}

/-! ## Look-up by name -/

/-- Where the elements of two lists are related, so are the first that are found by predicates which
agree on related elements. -/
theorem forall₂_find? {α β : Type} {R : α → β → Prop} {l : List α} {m : List β} {p : α → Bool}
    {q : β → Bool} (related : List.Forall₂ R l m) (agree : ∀ a b, R a b → q b = p a) :
    Option.Rel R (l.find? p) (m.find? q) := by
  induction related with
  | nil => exact .none
  | @cons a b l m head _ ih =>
    have same := agree a b head
    cases found : p a with
    | true =>
      rw [List.find?_cons_of_pos found, List.find?_cons_of_pos (same.trans found)]
      exact .some head
    | false =>
      rw [List.find?_cons_of_neg (by simp [found]), List.find?_cons_of_neg (by simp [same, found])]
      exact ih

section Rel

variable {α β : Type} {R : α → β → Prop} {o : Option α} {o' : Option β}

/-- Of two related options both are absent, or both are there and related. -/
theorem rel_cases (related : Option.Rel R o o') :
    (o = none ∧ o' = none) ∨ ∃ a b, o = some a ∧ o' = some b ∧ R a b := by
  cases related with
  | none => exact .inl ⟨rfl, rfl⟩
  | some related => exact .inr ⟨_, _, rfl, rfl, related⟩

theorem isSome_of_rel (related : Option.Rel R o o') : o'.isSome = o.isSome := by
  cases related <;> rfl

end Rel

section Lookup

variable (injective : Function.Injective k.name) (name : Text)

include injective

theorem Variable.Like.isNamed {v w : Variable} (like : v.Like k w) :
    decide (w.name = k.name name) = decide (v.name = name) := by
  rw [like.name]
  simp only [injective.eq_iff]

theorem Symbols.Like.global? {s t : Symbols} (like : s.Like k t) :
    Option.Rel (Variable.Like k) (s.global? name) (t.global? (k.name name)) :=
  forall₂_find? like.globals fun _ _ like => like.isNamed injective name

theorem Symbols.Like.function? {s t : Symbols} (like : s.Like k t) :
    Option.Rel (Function.Like k) (s.function? name) (t.function? (k.name name)) := by
  refine forall₂_find? like.functions fun f g like => ?_
  rw [like.name]
  simp only [injective.eq_iff]

theorem Function.Like.parameter? {f g : Function} (like : f.Like k g) :
    Option.Rel (Variable.Like k) (f.parameter? name) (g.parameter? (k.name name)) :=
  forall₂_find? like.parameters fun _ _ like => like.isNamed injective name

theorem Function.Like.declares {f g : Function} (like : f.Like k g) :
    g.declares (k.name name) = f.declares name := by
  have local? : Option.Rel (Variable.Like k) (f.local? name) (g.local? (k.name name)) :=
    forall₂_find? like.locals fun _ _ like => like.isNamed injective name
  rw [Function.declares, Function.declares, isSome_of_rel local?,
    isSome_of_rel (like.parameter? injective name)]

theorem ScanState.Like.seesFunction {s t : ScanState} (like : s.Like k t) :
    t.seesFunction (k.name name) = s.seesFunction name :=
  isSome_of_rel (like.symbols.function? injective name)

theorem ScanState.Like.seesVariable {s t : ScanState} (like : s.Like k t) :
    t.seesVariable (k.name name) = s.seesVariable name := by
  have inside : t.frame.function?.any (·.declares (k.name name)) =
      s.frame.function?.any (·.declares name) := by
    rcases rel_cases like.frame.function? with ⟨none, none'⟩ | ⟨f, g, some, some', like⟩
    · rw [none, none']
      rfl
    · rw [some, some']
      exact like.declares injective name
  rw [ScanState.seesVariable, ScanState.seesVariable, inside,
    isSome_of_rel (like.symbols.global? injective name)]

end Lookup

/-! ## Trees and tables together -/

/-- A recasting changes what a scan looks at in step with what is recorded. -/
structure Recast.Keeps (c : Recast) (k : Likeness) : Prop where
  injective : Function.Injective k.name
  name (name : Text) : c.name name = k.name name
  noName : k.name [] = []
  text (e : Expr) : (c.src e).text = k.text e.text
  noText : k.text [] = []
  compound (text : Text) : (k.text text).isCompound = text.isCompound
  exprLine (e : Expr) : (c.src e).span.line = k.line e.line
  line (place : Position) : (c.place place).line = k.line place.line
  noInitial : k.initial none none
  literal (type : ValueType) (text : Text) (bare : text.isCompound = false) :
    k.initial (type.literal? text) (type.literal? (k.text text))

namespace Recast.Keeps

variable {c : Recast} (keeps : c.Keeps k)

include keeps

theorem span_line (s : Span) : (s.recast c).line = k.line s.line := keeps.line s.start

theorem expr_line (e : Expr) : (e.recast c).line = k.line e.line := by
  rw [Expr.line, Expr.span, Expr.src_recast, keeps.exprLine]

theorem expr_text (e : Expr) : (e.recast c).text = k.text e.text := by
  rw [Expr.text, Expr.src_recast, keeps.text]

theorem problem? {s t : ScanState} (like : s.Like k t) (e : Expr) :
    t.problem? (e.recast c) = (s.problem? e).map (Problem.image k) := by
  have seen := like.seesVariable keeps.injective
  have known := like.seesFunction keeps.injective
  cases e with
  | identifier src name =>
    simp only [Expr.recast, ScanState.problem?, keeps.name, seen, known]
    split
    · rfl
    · rfl
  | assign src target value =>
    simp only [Expr.recast, ScanState.problem?, keeps.name, seen]
    split
    · rfl
    · rfl
  | call src callee args =>
    simp only [Expr.recast, ScanState.problem?, keeps.name, Expr.recastAll_eq, List.length_map]
    rcases rel_cases (like.symbols.function? keeps.injective callee) with
      ⟨none, none'⟩ | ⟨f, g, some, some', same⟩
    · rw [none, none']
      rfl
    · rw [some, some']
      simp only [same.parameters.length_eq]
      split
      · rfl
      · rfl
  | _ => rfl

/-- What is wrong with a recast node is what is wrong with the node. -/
theorem diagnose {s t : ScanState} (like : s.Like k t) (e : Expr) :
    t.diagnose (e.recast c) = (s.diagnose e).map (Diagnostic.image k) := by
  rw [ScanState.diagnose, ScanState.diagnose, keeps.problem? like, keeps.expr_line, Option.map_map,
    Option.map_map]
  rfl

end Recast.Keeps

/-! ## Steps -/

namespace ScanState.Like

variable {s t : ScanState}

theorem report (like : s.Like k t) (found : List Diagnostic) :
    (s.report found).Like k (t.report (found.map (Diagnostic.image k))) where
  symbols.globals := like.symbols.globals
  symbols.functions := like.symbols.functions
  symbols.diagnostics := by
    simp [like.symbols.diagnostics]
  frame := like.frame

/-- The functions that two scans stand in change alike. -/
theorem mapFunction (like : s.Like k t) {g h : Function → Function}
    (same : ∀ a b, a.Like k b → (g a).Like k (h b)) :
    (s.mapFunction g).Like k (t.mapFunction h) where
  symbols := like.symbols
  frame.nesting := like.frame.nesting
  frame.function? := by
    rw [mapFunction_function?, mapFunction_function?]
    rcases rel_cases like.frame.function? with ⟨none, none'⟩ | ⟨f, f', some, some', inside⟩
    · rw [none, none']
      exact .none
    · rw [some, some']
      exact .some (same f f' inside)

theorem inFrame (like : s.Like k t) {frame frame' : Frame} (same : frame.Like k frame') :
    ScanState.Like k { s with frame } { t with frame := frame' } := ⟨like.symbols, same⟩

end ScanState.Like

namespace Scan

variable {α β γ δ : Type}

/-- Two scans end alike: both are cut short for one reason, or both answer, and the answers are
related; the states that they leave are alike. -/
inductive EndLike (k : Likeness) (R : α → β → Prop) :
    Except Abort α × ScanState → Except Abort β × ScanState → Prop
  | answer {a : α} {b : β} {s t : ScanState} (related : R a b) (like : s.Like k t) :
      EndLike k R (.ok a, s) (.ok b, t)
  | abort {abort : Abort} {s t : ScanState} (like : s.Like k t) :
      EndLike k R (.error abort, s) (.error abort, t)

/-- A scan ends alike with one that answers: it answers as well, in a state like the other's. -/
theorem EndLike.of_ok {a : α} {s : ScanState} {e : Except Abort α × ScanState}
    {e' : Except Abort α × ScanState} (ends : EndLike k Eq e e') (answers : e = (.ok a, s)) :
    ∃ t, e' = (.ok a, t) ∧ s.Like k t := by
  subst answers
  cases ends with
  | answer same like => exact ⟨_, by rw [same], like⟩

/-- From states that are alike two steps end alike. -/
def Like (k : Likeness) (R : α → β → Prop) (x : Scan α) (y : Scan β) : Prop :=
  ∀ s t, s.Like k t → EndLike k R (exec x s) (exec y t)

namespace Like

variable {R : α → β → Prop} {S : γ → δ → Prop} {x x' : Scan α} {y y' : Scan β} {f : α → Scan γ}
  {g : β → Scan δ}

theorem pure {a : α} {b : β} (related : R a b) :
    Like k R (Pure.pure a : Scan α) (Pure.pure b) :=
  fun _ _ like => .answer related like

theorem throw {abort : Abort} :
    Like k R (MonadExcept.throw abort : Scan α) (MonadExcept.throw abort : Scan β) :=
  fun _ _ like => .abort like

theorem bind (first : Like k R x y) (next : ∀ a b, R a b → Like k S (f a) (g b)) :
    Like k S (x >>= f) (y >>= g) := by
  intro s t like
  have run := first s t like
  rw [exec_bind, exec_bind]
  generalize exec x s = here at run ⊢
  generalize exec y t = there at run ⊢
  cases run with
  | answer related like => exact next _ _ related _ _ like
  | abort like => exact .abort like

/-- A step that looks at its state goes on alike from states that are alike. -/
theorem look {f : ScanState → Scan α} {g : ScanState → Scan β}
    (next : ∀ s t, s.Like k t → Like k R (f s) (g t)) : Like k R (get >>= f) (get >>= g) :=
  fun s t like => next s t like s t like

theorem modify {f : PUnit → Scan α} {g : PUnit → Scan β} {change change' : ScanState → ScanState}
    (same : ∀ s t, s.Like k t → (change s).Like k (change' t)) (next : Like k R (f ()) (g ())) :
    Like k R (modify change >>= f) (modify change' >>= g) :=
  fun s t like => next _ _ (same s t like)

theorem tryCatch {handle : Abort → Scan α} {handle' : Abort → Scan β} (first : Like k R x y)
    (caught : ∀ abort, Like k R (handle abort) (handle' abort)) :
    Like k R (tryCatch x handle) (tryCatch y handle') := by
  intro s t like
  have run := first s t like
  rw [exec_tryCatch, exec_tryCatch]
  generalize exec x s = here at run ⊢
  generalize exec y t = there at run ⊢
  cases run with
  | answer related like => exact .answer related like
  | abort like => exact caught _ _ _ like

theorem ite {p q : Prop} [Decidable p] [Decidable q] (same : q ↔ p) (yes : Like k R x y)
    (no : Like k R x' y') : Like k R (if p then x else x') (if q then y else y') := by
  by_cases holds : p
  · rw [if_pos holds, if_pos (same.2 holds)]
    exact yes
  · rw [if_neg holds, if_neg (mt same.1 holds)]
    exact no

theorem discard (first : Like k R x y) : Like k Eq (Functor.discard x) (Functor.discard y) := by
  rw [discard_eq_bind, discard_eq_bind]
  exact first.bind fun _ _ _ => .pure rfl

/-- Loops are alike if their rounds are. -/
theorem forM {h : α → β} {act : α → Scan PUnit} {act' : β → Scan PUnit}
    (each : ∀ a, Like k Eq (act a) (act' (h a))) (l : List α) :
    Like k Eq (l.forM act) ((l.map h).forM act') := by
  induction l with
  | nil => exact .pure rfl
  | cons a rest ih => exact (each a).bind fun _ _ _ => ih

theorem report {line : Int} {problem : Problem} :
    Like k Eq (Scan.report line problem) (Scan.report (k.line line) (problem.image k)) :=
  fun _ _ like => .answer rfl (like.report [⟨line, problem⟩])

theorem inFrame {frame frame' : Frame} (same : frame.Like k frame') (act : Like k R x y) :
    Like k R (Scan.inFrame frame x) (Scan.inFrame frame' y) := by
  refine .look fun s t outer => .modify (fun _ _ like => like.inFrame same) (.tryCatch ?_ ?_)
  · exact act.bind fun a b related =>
      .modify (fun _ _ like => like.inFrame outer.frame) (.pure related)
  · exact fun abort => .modify (fun _ _ like => like.inFrame outer.frame) .throw

theorem keepNesting (act : Like k R x y) :
    Like k R (Scan.keepNesting x) (Scan.keepNesting y) := by
  refine .look fun s t outer => .tryCatch act fun abort => .modify (fun _ _ like => ?_) .throw
  exact like.inFrame ⟨like.frame.function?, outer.frame.nesting⟩

end Like

/-! ## Steps at recast nodes -/

theorem resolveType_like (spelling : Text) :
    Like k Eq (resolveType spelling) (resolveType spelling) := by
  rw [resolveType]
  cases ValueType.ofSpelling? spelling with
  | none => exact .throw
  | some type => exact .pure rfl

section Nodes

variable {c : Recast} (keeps : c.Keeps k)

include keeps

theorem checkExpr_like (e : Expr) : Like k Eq (checkExpr e) (checkExpr (e.recast c)) := by
  have tags (e : Expr) : (e.recast c).foreignTag? = e.foreignTag? := by
    cases e <;> rfl
  have tag : (e.recast c).walk.findSome? Expr.foreignTag? = e.walk.findSome? Expr.foreignTag? := by
    simp [List.findSome?_map, Function.comp_def, tags]
  refine .look fun s t like => ?_
  have found : ((e.recast c).walk.takeWhile (·.foreignTag?.isNone)).filterMap t.diagnose =
      ((e.walk.takeWhile (·.foreignTag?.isNone)).filterMap s.diagnose).map
        (Diagnostic.image k) := by
    simp [List.takeWhile_map, List.filterMap_map, List.map_filterMap, Function.comp_def, tags,
      keeps.diagnose like]
  simp only [found, tag]
  refine .bind (R := Eq) (fun _ _ _ => .answer rfl (like.report _)) fun _ _ _ => ?_
  cases e.walk.findSome? Expr.foreignTag? with
  | none => exact .pure rfl
  | some tag => exact .throw

theorem evaluate_like (type : ValueType) (init : Option Expr) :
    Like k k.initial (evaluate type init) (evaluate type (init.map (Expr.recast c))) := by
  cases init with
  | none => exact .pure keeps.noInitial
  | some e =>
    simp only [evaluate, Option.map_some, keeps.expr_text]
    by_cases compound : e.text.isCompound
    · rw [if_pos compound, if_pos ((keeps.compound e.text).trans compound)]
      exact (checkExpr_like keeps e).bind fun _ _ _ => .pure keeps.noInitial
    · have bare : e.text.isCompound = false := by simpa using compound
      have bare' := (keeps.compound e.text).trans bare
      rw [bare, bare']
      exact .pure (keeps.literal type e.text bare)

theorem declareGlobal_like (decl : VarDecl) :
    Like k Eq (declareGlobal decl) (declareGlobal (decl.recast c)) := by
  refine (resolveType_like decl.type).bind ?_
  rintro type _ rfl
  refine .look fun s t like => ?_
  have seen := isSome_of_rel (like.symbols.global? keeps.injective decl.name)
  have same : (decl.recast c).name = k.name decl.name := keeps.name decl.name
  have line : (decl.recast c).span.line = k.line decl.span.line := keeps.span_line decl.span
  rw [same, line]
  refine .ite (by rw [seen]) .report ?_
  refine (evaluate_like keeps type decl.init).bind fun initial initial' related => ?_
  intro s t like
  refine .answer rfl ⟨⟨?_, like.symbols.functions, like.symbols.diagnostics⟩, like.frame⟩
  have declared : Variable.Like k ⟨decl.name, type, true, decl.span.line, initial⟩
      ⟨k.name decl.name, type, true, k.line decl.span.line, initial'⟩ :=
    ⟨rfl, rfl, rfl, rfl, related⟩
  exact List.rel_append like.symbols.globals (.cons declared .nil)

theorem declareLocal_like (decl : VarDecl) :
    Like k Eq (declareLocal decl) (declareLocal (decl.recast c)) := by
  have same : (decl.recast c).name = k.name decl.name := keeps.name decl.name
  have line : (decl.recast c).span.line = k.line decl.span.line := keeps.span_line decl.span
  refine .look fun s t like => ?_
  rw [same, line]
  rcases rel_cases like.frame.function? with ⟨none, none'⟩ | ⟨f, g, some, some', inside⟩
  · rw [none, none']
    exact .report
  · rw [some, some']
    refine (resolveType_like decl.type).bind ?_
    rintro type _ rfl
    refine .ite (by rw [inside.declares keeps.injective]) .report ?_
    refine (evaluate_like keeps type decl.init).bind fun initial initial' related => ?_
    intro s t like
    have declared : Variable.Like k ⟨decl.name, type, false, decl.span.line, initial⟩
        ⟨k.name decl.name, type, false, k.line decl.span.line, initial'⟩ :=
      ⟨rfl, rfl, rfl, rfl, related⟩
    refine .answer rfl (like.mapFunction fun a b same => ?_)
    exact { same with locals := List.rel_append same.locals (.cons declared .nil) }

theorem declareParam_like (param : Param) :
    Like k Eq (declareParam param) (declareParam (param.recast c)) := by
  have same : (param.recast c).name = k.name param.name := keeps.name param.name
  have line : (param.recast c).span.line = k.line param.span.line := keeps.line param.span.start
  refine .look fun s t like => ?_
  rw [same, line]
  rcases rel_cases like.frame.function? with ⟨none, none'⟩ | ⟨f, g, some, some', inside⟩
  · rw [none, none']
    exact .pure rfl
  · rw [some, some']
    refine (resolveType_like param.type).bind ?_
    rintro type _ rfl
    have seen := isSome_of_rel (inside.parameter? keeps.injective param.name)
    rw [inside.name]
    refine .ite (by rw [seen]) .report ?_
    intro s t like
    have declared : Variable.Like k ⟨param.name, type, false, param.span.line, none⟩
        ⟨k.name param.name, type, false, k.line param.span.line, none⟩ :=
      ⟨rfl, rfl, rfl, rfl, keeps.noInitial⟩
    refine .answer rfl (like.mapFunction fun a b same => ?_)
    exact { same with parameters := List.rel_append same.parameters (.cons declared .nil) }

theorem enterControl_like (head : ControlHead) :
    Like k (fun control control' => control' = control.image k) (enterControl head)
      (enterControl (head.recast c k.text)) := by
  refine .look fun s t like => ?_
  have control : (head.recast c k.text).atDepth t.frame.nesting.length =
      (head.atDepth s.frame.nesting.length).image k := by
    simp [like.frame.nesting, ControlHead.atDepth, ControlHead.recast, ControlStructure.image,
      Span.recast, keeps.line]
  rw [control]
  refine .modify (fun s t like => ?_) (.modify (fun s t like => ?_) (.pure rfl))
  · refine like.inFrame ⟨like.frame.function?, ?_⟩
    rw [like.frame.nesting, List.map_append]
    rfl
  · refine like.mapFunction fun a b same => { same with controls := ?_ }
    rw [same.controls, List.map_append]
    rfl

theorem happen_like (event : Event) :
    Like k Eq (happen event) (happen (event.recast c k.text)) := by
  cases event with
  | declare decl => exact declareLocal_like keeps decl
  | check e => exact checkExpr_like keeps e
  | enter head => exact (enterControl_like keeps head).discard
  | leave =>
    intro s t like
    refine .answer rfl (like.inFrame ⟨like.frame.function?, ?_⟩)
    rw [like.frame.nesting, List.map_dropLast]
  | foreign tag => exact .throw

theorem statement_like (s : Stmt) : Like k Eq (statement s) (statement (s.recast c)) := by
  rw [statement, statement, Stmt.events_recast keeps.text keeps.noText]
  exact .keepNesting (.forM (happen_like keeps) s.events)

/-- The inside of a function, from the function as it is when its frame is entered. -/
theorem inside_like (decl : FunctionDecl) {fresh fresh' : Function} (start : fresh.Like k fresh') :
    Like k (Function.Like k)
      (do
        decl.params.forM declareParam
        statement (.block decl.body)
        return (← get).frame.function?.getD fresh)
      (do
        (decl.recast c).params.forM declareParam
        statement (.block (decl.recast c).body)
        return (← get).frame.function?.getD fresh') := by
  have body : Stmt.block (decl.recast c).body = (Stmt.block decl.body).recast c := by
    rw [Stmt.recast, Stmt.recastBlock_eq]
    rfl
  rw [FunctionDecl.params_recast, body]
  refine (Like.forM (declareParam_like keeps) decl.params).bind fun _ _ _ => ?_
  refine (statement_like keeps (.block decl.body)).bind fun _ _ _ => ?_
  refine .look fun s t like => .pure ?_
  rcases rel_cases like.frame.function? with ⟨none, none'⟩ | ⟨f, g, some, some', inside⟩
  · rw [none, none']
    exact start
  · rw [some, some']
    exact inside

section Entry

variable {entry : Text} (isEntry : ∀ name, isEntryName entry (k.name name) = isEntryName entry name)

include isEntry

theorem classify_recast (name : Text) (body : Block Stmt) :
    classify entry (k.name name) (body.recast c) = classify entry name body := by
  have injective : Function.Injective c.name := by
    intro x y same
    rw [keeps.name, keeps.name] at same
    exact keeps.injective same
  have block : Stmt.block (body.recast c) = (Stmt.block body).recast c := by
    rw [Stmt.recast, Stmt.recastBlock_eq]
  rw [classify, classify, isEntry, block, ← keeps.name, Stmt.callsTo_recast injective]

theorem declareFunction_like (decl : FunctionDecl) :
    Like k (Option.Rel (Function.Like k)) (declareFunction entry decl)
      (declareFunction entry (decl.recast c)) := by
  have same : (decl.recast c).name = k.name decl.name := by
    rw [FunctionDecl.name_recast ((keeps.name []).trans keeps.noName), keeps.name]
  have line : (decl.recast c).span.line = k.line decl.span.line := keeps.span_line decl.span
  refine (resolveType_like decl.returnType).bind ?_
  rintro type _ rfl
  refine .look fun s t like => ?_
  have seen := isSome_of_rel (like.symbols.function? keeps.injective decl.name)
  rw [same, line]
  refine .ite (by rw [seen]) (Like.report.bind fun _ _ _ => .pure .none) ?_
  have start : Function.Like k { name := decl.name, returnType := type, line := decl.span.line }
      { name := k.name decl.name, returnType := type, line := k.line decl.span.line } :=
    ⟨rfl, rfl, rfl, rfl, .nil, .nil, rfl⟩
  have inside := inside_like keeps decl start
  refine (Like.inFrame ⟨.some start, rfl⟩ inside).bind fun f g read => ?_
  have registered : Function.Like k { f with classification := classify entry decl.name decl.body }
      { g with classification := classify entry (k.name decl.name) (decl.recast c).body } :=
    { read with classification := classify_recast keeps isEntry decl.name decl.body }
  refine .modify (fun s t like => ?_) (.pure (.some registered))
  exact ⟨⟨like.symbols.globals, List.rel_append like.symbols.functions (.cons registered .nil),
    like.symbols.diagnostics⟩, like.frame⟩

theorem topLevel_like (node : TopLevel) :
    Like k Eq (topLevel entry node) (topLevel entry (node.recast c)) := by
  cases node with
  | global decl => exact declareGlobal_like keeps decl
  | function decl => exact (declareFunction_like keeps isEntry decl).discard
  | statement s => exact statement_like keeps s

end Entry

end Nodes

end Scan

/-! ## Programs -/

/-- Where tables are alike, the entry function is missing from both or from none. -/
theorem Symbols.Like.missingEntry {s t : Symbols} (like : s.Like k t) (entry : Text) :
    t.missingEntry entry = s.missingEntry entry := by
  have roles : s.functions.map (·.classification) = t.functions.map (·.classification) := by
    rw [← List.forall₂_eq_eq_eq, List.forall₂_map_left_iff, List.forall₂_map_right_iff]
    exact like.functions.imp fun f g same => same.classification.symm
  have entries (u : Symbols) : u.functions.any (·.classification = .entry) =
      (u.functions.map (·.classification)).any (· = .entry) := by
    rw [List.any_map]
    rfl
  rw [Symbols.missingEntry, Symbols.missingEntry, entries, entries, roles]

section Program

variable {c : Recast} (keeps : c.Keeps k) {entry : Text}
  (isEntry : ∀ name, Scan.isEntryName entry (k.name name) = Scan.isEntryName entry name)

include keeps isEntry

/-- A scan of recast nodes ends as the scan of the nodes. -/
theorem Scan.nodes_like (nodes : List TopLevel) :
    EndLike k Eq (exec (nodes.forM (topLevel entry)) {})
      (exec ((nodes.map (TopLevel.recast c)).forM (topLevel entry)) {}) :=
  Like.forM (topLevel_like keeps isEntry) nodes {} {} ⟨⟨.nil, .nil, rfl⟩, ⟨.none, rfl⟩⟩

/-- Where a program has symbols, so has the recast program. But for the diagnostic that the entry
function is missing, which is that of the program, they are like those of the program. -/
theorem Program.symbols_recast {nodes : List TopLevel} {span : Span} {symbols : Symbols}
    (returned : Program.symbols ⟨nodes, span⟩ entry = .ok symbols) :
    ∃ tables tables' : Symbols, tables.Like k tables' ∧
      symbols = tables.report (tables.missingEntry entry) ∧
      ∀ span', Program.symbols ⟨nodes.map (TopLevel.recast c), span'⟩ entry =
        .ok (tables'.report (tables.missingEntry entry)) := by
  obtain ⟨s, run, rfl⟩ := symbols_eq_ok.1 returned
  obtain ⟨t, run', like⟩ := (Scan.nodes_like keeps isEntry nodes).of_ok run
  refine ⟨s.symbols, t.symbols, like.symbols, rfl, fun span' => symbols_eq_ok.2 ⟨t, run', ?_⟩⟩
  rw [← like.symbols.missingEntry entry]
  rfl

end Program

end ProcCheck
