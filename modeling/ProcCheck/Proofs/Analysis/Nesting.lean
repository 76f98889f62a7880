import Mathlib.Data.List.Chain
import ProcCheck.Proofs.Analysis.Tables
import ProcCheck.Proofs.Grammar.Nesting
import ProcCheck.Proofs.Grammar.Source

/-!
# Control structures of functions

A scan keeps a stack of the control structures around it and gives each one that it enters the
height of the stack as its depth. What it leaves in a function is therefore what the events of the
body enter, and these are the control structures that are found among the tokens of the body.
-/

namespace ProcCheck

/-! ## Scanning events -/

/-- From the state `s` on a scan has recorded further control structures with its function, if it
is in one, and the stack of those around it has some height. -/
structure ScanState.Recorded (s : ScanState) (found : List ControlStructure) (height : Nat)
    (t : ScanState) : Prop where
  height : t.frame.nesting.length = height
  function : t.frame.function?.map (·.controls) = s.frame.function?.map (·.controls ++ found)

namespace ScanState

variable {s t u : ScanState} {found more : List ControlStructure} {height last : Nat}

theorem Recorded.refl (s : ScanState) : s.Recorded [] s.frame.nesting.length s :=
  ⟨rfl, by simp⟩

theorem Recorded.trans (first : s.Recorded found height t) (second : t.Recorded more last u) :
    s.Recorded (found ++ more) last u := by
  refine ⟨second.height, ?_⟩
  rw [second.function]
  have before := first.function
  cases here : t.frame.function? <;> cases start : s.frame.function? <;>
    simp_all

/-- An event that returns records the control structure that it enters, if it enters one. -/
theorem recorded_happen {event : Event} (run : Scan.exec (Scan.happen event) s = (.ok (), t)) :
    ∃ found height, s.Recorded found height t ∧
      ∀ more, Event.controls s.frame.nesting.length (event :: more) =
        found ++ Event.controls height more := by
  cases event with
  | declare decl =>
    refine ⟨[], _, ⟨?_, ?_⟩, fun more => rfl⟩ <;>
    rcases Scan.exec_declareLocal_returns run with ⟨-, rfl⟩ | ⟨f, function, ⟨-, rfl⟩ | ⟨-, v, -, rfl⟩⟩
    · rfl
    · rfl
    · rfl
    · simp
    · simp
    · simp [addLocal, function]
  | check e =>
    obtain ⟨-, rfl⟩ := Scan.exec_checkExpr_returns.1 run
    exact ⟨[], _, ⟨rfl, by simp⟩, fun more => rfl⟩
  | enter head =>
    rw [Scan.exec_happen_enter] at run
    obtain rfl := (Prod.mk.inj run).2
    refine ⟨[head.atDepth s.frame.nesting.length], s.frame.nesting.length + 1, ⟨?_, ?_⟩,
      fun more => rfl⟩
    · simp [openControl, mapFunction]
    · cases function : s.frame.function? <;> simp [openControl, function]
  | leave =>
    rw [Scan.exec_happen_leave] at run
    obtain rfl := (Prod.mk.inj run).2
    exact ⟨[], s.frame.nesting.length - 1, ⟨by simp [closeControl], by simp [closeControl]⟩,
      fun more => rfl⟩
  | foreign tag => cases run

/-- Events that return record the control structures that they enter. -/
theorem recorded_events {events : List Event}
    (run : Scan.exec (events.forM Scan.happen) s = (.ok (), t)) :
    ∃ height, s.Recorded (Event.controls s.frame.nesting.length events) height t := by
  induction events generalizing s with
  | nil =>
    obtain ⟨-, rfl⟩ := Scan.exec_pure_returns.1 run
    exact ⟨_, Recorded.refl s⟩
  | cons event rest ih =>
    obtain ⟨⟨⟩, mid, runHead, runRest⟩ := Scan.exec_bind_returns.1 run
    obtain ⟨found, height, recorded, controls⟩ := recorded_happen runHead
    obtain ⟨last, further⟩ := ih runRest
    rw [recorded.height] at further
    exact ⟨last, controls rest ▸ recorded.trans further⟩

end ScanState

/-! ## Functions -/

/-- A function has the control structures that the events of its body enter. -/
def FunctionDecl.Records (decl : FunctionDecl) (f : Function) : Prop :=
  f.controls = Event.controls 0 (Stmt.block decl.body).events

/-- Parameters leave the function that they are read for without control structures. -/
theorem Function.params_returns {params : List Param} {s t : ScanState}
    (start : s.frame.function?.map (·.controls) = some [] ∧ s.frame.nesting = [])
    (run : Scan.exec (params.forM Scan.declareParam) s = (.ok (), t)) :
    t.frame.function?.map (·.controls) = some [] ∧ t.frame.nesting = [] := by
  induction params generalizing s with
  | nil =>
    obtain ⟨-, rfl⟩ := Scan.exec_pure_returns.1 run
    exact start
  | cons param rest ih =>
    obtain ⟨⟨⟩, mid, runParam, runRest⟩ := Scan.exec_bind_returns.1 run
    refine ih ?_ runRest
    obtain ⟨controls, nesting⟩ := start
    obtain ⟨f, function, none⟩ := Option.map_eq_some_iff.1 controls
    rcases Scan.exec_declareParam_returns function runParam with ⟨-, rfl⟩ | ⟨-, v, -, rfl⟩
    · exact ⟨controls, nesting⟩
    · exact ⟨by simp [ScanState.addParam, function, none], nesting⟩

/-- A function that is registered has recorded what its body enters. -/
theorem FunctionDecl.records_registered {decl : FunctionDecl} {s mid last : ScanState}
    {fresh : Function} (none : fresh.controls = [])
    (params : Scan.exec (decl.params.forM Scan.declareParam)
      { s with frame := ⟨some fresh, []⟩ } = (.ok (), mid))
    (body : Scan.exec (Scan.statement (.block decl.body)) mid = (.ok (), last))
    (classification : Classification) :
    decl.Records { last.frame.function?.getD fresh with classification } := by
  obtain ⟨controls, nesting⟩ := Function.params_returns ⟨by simp [none], rfl⟩ params
  obtain ⟨height, recorded⟩ :=
    ScanState.recorded_events (Scan.exec_keepNesting_returns.1 body)
  have function := recorded.function
  rw [nesting] at function
  obtain ⟨f, before, none⟩ := Option.map_eq_some_iff.1 controls
  rw [before] at function
  obtain ⟨g, after, same⟩ := Option.map_eq_some_iff.1 function
  rw [Records, after]
  simpa [none] using same

/-! ## Programs -/

/-- The table of functions holds what the first declarations of some top-level nodes record. -/
def ScanState.HoldsRecords (before : List TopLevel) (s : ScanState) : Prop :=
  s.Holds before ∧ List.Forall₂ FunctionDecl.Records
    (firsts FunctionDecl.name [] (before.filterMap TopLevel.function?)) s.symbols.functions

/-- A top-level node that is no function leaves the table of functions alone. -/
theorem ScanState.functions_topLevel {node : TopLevel} {s t : ScanState} {entry : Text}
    (outside : s.frame.function? = none) (other : node.function? = none)
    (run : Scan.exec (Scan.topLevel entry node) s = (.ok (), t)) :
    t.symbols.functions = s.symbols.functions := by
  cases node with
  | global decl =>
    rcases Scan.exec_declareGlobal_returns run with ⟨-, rfl⟩ | ⟨-, v, -, rfl⟩ <;> rfl
  | function decl => cases other
  | statement st =>
    have takes : s.Takes [] := by simp [Takes, outside]
    exact (passed_statement takes (by simp [outside]) run).functions

/-- A table of functions that are related to their declarations stays one with every top-level node,
provided that the function of the node is related to it where it is registered. -/
theorem ScanState.registered_step {R : FunctionDecl → Function → Prop} {before : List TopLevel}
    {s t : ScanState} {node : TopLevel} {entry : Text} (tables : s.Holds before)
    (related : List.Forall₂ R
      (firsts FunctionDecl.name [] (before.filterMap TopLevel.function?)) s.symbols.functions)
    (registers : ∀ (decl : FunctionDecl) (type : ValueType) (mid last : ScanState),
      let fresh : Function := { name := decl.name, returnType := type, line := decl.span.line }
      Scan.exec (decl.params.forM Scan.declareParam) { s with frame := ⟨some fresh, []⟩ } =
        (.ok (), mid) →
      Scan.exec (Scan.statement (.block decl.body)) mid = (.ok (), last) →
      R decl { last.frame.function?.getD fresh with
        classification := Scan.classify entry decl.name decl.body })
    (run : Scan.exec (Scan.topLevel entry node) s = (.ok (), t)) :
    List.Forall₂ R (firsts FunctionDecl.name [] ((before ++ [node]).filterMap TopLevel.function?))
      t.symbols.functions := by
  rw [List.filterMap_append]
  cases function : node.function? with
  | none =>
    rw [functions_topLevel tables.outside function run]
    simpa [List.filterMap_cons, function] using related
  | some decl =>
    cases node <;> cases function
    obtain ⟨answer, run⟩ := Scan.exec_discard_returns.1 run
    have names : (s.symbols.function? decl.name).isSome = true ↔ decl.name ∈
        [] ++ (before.filterMap TopLevel.function?).map FunctionDecl.name := by
      rw [Symbols.function?_isSome,
        mem_map_key (fun _ _ declares => declares.name) tables.functions]
      simp
    have single : [TopLevel.function decl].filterMap TopLevel.function? = [decl] := rfl
    rw [single]
    rcases Scan.exec_declareFunction_returns run with
      ⟨old, rfl⟩ | ⟨new, type, mid, last, resolved, params, body, rfl⟩
    · exact forall₂_firsts_old related (names.1 old)
    · have fresh : decl.name ∉
          [] ++ (before.filterMap TopLevel.function?).map FunctionDecl.name := by
        rw [← names, new]
        exact Bool.false_ne_true
      obtain ⟨-, sameFunctions, -⟩ :=
        decl.declares_registered resolved rfl params body (Scan.classify entry decl.name decl.body)
      refine forall₂_firsts_new ?_ fresh (registers decl type mid last params body)
      exact sameFunctions ▸ related

theorem ScanState.HoldsRecords.step {before : List TopLevel} {s t : ScanState} {node : TopLevel}
    {entry : Text} (holds : s.HoldsRecords before)
    (run : Scan.exec (Scan.topLevel entry node) s = (.ok (), t)) :
    t.HoldsRecords (before ++ [node]) := by
  obtain ⟨tables, records⟩ := holds
  refine ⟨tables.step run, registered_step tables records ?_ run⟩
  intro decl type mid last fresh params body
  exact decl.records_registered rfl params body _

/-- In a program whose scan returns, every function that is registered has recorded what its body
enters. -/
theorem Program.symbols_records {p : Program} {entry : Text} {symbols : Symbols}
    (returned : p.symbols entry = .ok symbols) :
    List.Forall₂ FunctionDecl.Records (firsts FunctionDecl.name [] p.functions)
      symbols.functions := by
  obtain ⟨s, run, rfl⟩ := symbols_eq_ok.1 returned
  have start : ScanState.HoldsRecords [] {} := ⟨⟨.nil, .nil, rfl⟩, .nil⟩
  have holds : s.HoldsRecords ([] ++ p.declarations) :=
    Scan.exec_forM_returns (fun before s => s.HoldsRecords before)
      (fun _ _ _ _ holds run => holds.step run) start run
  exact holds.2

/-! ## Forests -/

/-- Control structures in the order of a forest: the first is outermost, each next one is at most
one deeper, and within the lines of each are those behind it, up to the next one that is not deeper
than it. -/
structure ControlStructure.Outline (cs : List ControlStructure) : Prop where
  first : ∀ c ∈ cs.head?, c.depth = 0
  next : cs.IsChain fun c d => d.depth ≤ c.depth + 1
  within : ∀ front c rest, cs = front ++ c :: rest → ∀ d ∈ rest.takeWhile (c.depth < ·.depth),
    c.startLine ≤ d.startLine ∧ d.endLine ≤ c.endLine

namespace ControlStructure.Forest

variable {depth : Nat} {low high : Int} {cs : List ControlStructure}

/-- All control structures of a forest are at least as deep as its roots, within its lines. -/
theorem each (forest : Forest depth low high cs) :
    ∀ c ∈ cs, depth ≤ c.depth ∧ low ≤ c.startLine ∧ c.endLine ≤ high := by
  induction forest with
  | nil => simp
  | cons same starts ends _ _ ihInside ihOthers =>
    refine List.forall_mem_cons.2 ⟨⟨same.ge, starts, ends⟩, List.forall_mem_append.2 ⟨?_, ihOthers⟩⟩
    intro d member
    obtain ⟨deeper, after, before⟩ := ihInside d member
    exact ⟨Nat.le_of_succ_le deeper, Int.le_trans starts after, Int.le_trans before ends⟩

theorem head (forest : Forest depth low high cs) : ∀ c ∈ cs.head?, c.depth = depth := by
  cases forest with
  | nil => simp
  | cons same => simpa using same

theorem next (forest : Forest depth low high cs) :
    cs.IsChain fun c d => d.depth ≤ c.depth + 1 := by
  induction forest with
  | nil => exact .nil
  | cons same _ _ inside others ihInside ihOthers =>
    have tree := List.isChain_cons.2 ⟨fun d first => by rw [inside.head d first, same], ihInside⟩
    refine List.IsChain.append tree ihOthers fun c last d first => ?_
    -- the last of a tree is at least as deep as its root, and the next root as deep as that
    have deep := others.head d first
    rcases List.mem_cons.1 (List.mem_of_getLast? last) with rfl | inner
    · omega
    · have := (inside.each c inner).1
      omega

/-- What is behind the deeper ones is not reached. -/
theorem takeWhile_append {inner rest : List ControlStructure} (p : ControlStructure → Bool)
    (stops : ∀ c ∈ rest.head?, p c = false) :
    (inner ++ rest).takeWhile p = inner.takeWhile p := by
  induction inner with
  | nil => cases rest <;> simp_all
  | cons c inner ih => simp only [List.cons_append, List.takeWhile_cons, ih]

theorem within (forest : Forest depth low high cs) (front : List ControlStructure)
    (c : ControlStructure) (rest : List ControlStructure) (split : cs = front ++ c :: rest) :
    ∀ d ∈ rest.takeWhile (c.depth < ·.depth), c.startLine ≤ d.startLine ∧ d.endLine ≤ c.endLine := by
  induction forest generalizing front rest with
  | nil => simp at split
  | @cons _ _ _ first inner others same _ _ inside further ihInside ihOthers =>
    have stops (c : ControlStructure) (deep : first.depth ≤ c.depth) :
        ∀ d ∈ others.head?, decide (c.depth < d.depth) = false := fun d member => by
      have := further.head d member
      simp only [decide_eq_false_iff_not]
      omega
    rcases front with _ | ⟨_, front⟩
    · obtain ⟨rfl, rfl⟩ := List.cons.inj split
      rw [takeWhile_append _ (stops _ (Nat.le_refl _))]
      exact fun d member => (inside.each d (List.takeWhile_subset _ member)).2
    obtain ⟨rfl, behind⟩ := List.cons.inj split
    rcases List.append_eq_append_iff.1 behind with ⟨later, rfl, same⟩ | ⟨later, rfl, same⟩
    · exact ihOthers later rest same
    · cases later with
      | nil => exact ihOthers [] rest same.symm
      | cons d later =>
        obtain ⟨rfl, rfl⟩ : c = d ∧ rest = later ++ others := by simpa using same
        have deep := (inside.each c (by simp)).1
        rw [takeWhile_append _ (stops c (by omega))]
        exact ihInside front later rfl

theorem outline (forest : Forest 0 low high cs) : Outline cs :=
  ⟨forest.head, forest.next, forest.within⟩

end ControlStructure.Forest

/-! ## Sources -/

namespace Token

/-- Tokens in the order of their lines are within some lines. -/
theorem inLines_of_ordered {ts : List Token}
    (ordered : ts.Pairwise fun t u => t.pos.line ≤ u.pos.line) : ∃ low high, InLines low high ts := by
  suffices bounds : ∃ low high : Int, ∀ t ∈ ts, low ≤ t.pos.line ∧ t.pos.line ≤ high by
    obtain ⟨low, high, within⟩ := bounds
    exact ⟨low, high, within, ordered⟩
  induction ts with
  | nil => simp
  | cons t rest ih =>
    obtain ⟨low, high, within⟩ := ih (List.pairwise_cons.1 ordered).2
    refine ⟨min low t.pos.line, max high t.pos.line, List.forall_mem_cons.2 ⟨?_, fun u member => ?_⟩⟩
    · omega
    · have := within u member
      omega

end Token

theorem FunctionDecl.HasBody.ordered {decl : FunctionDecl} {tokens body : List Token}
    (has : decl.HasBody tokens body)
    (ordered : tokens.Pairwise fun t u => t.pos.line ≤ u.pos.line) :
    body.Pairwise fun t u => t.pos.line ≤ u.pos.line := by
  obtain ⟨front, type, name, params, back, rfl, -⟩ := has
  refine ordered.sublist ?_
  calc
    body.Sublist (params ++ (body ++ back)) :=
      (List.sublist_append_left _ _).trans (List.sublist_append_right _ _)
    List.Sublist _ (type :: name :: (params ++ (body ++ back))) :=
      ((List.Sublist.refl _).cons _).cons _
    List.Sublist _ (front ++ type :: name :: (params ++ (body ++ back))) :=
      List.sublist_append_right _ _

/-- A top-level statement of a program whose scan returns leaves all functions as they are. -/
theorem Program.functions_statement {p : Program} {entry : Text} {symbols : Symbols}
    (returned : p.symbols entry = .ok symbols) {front back : List TopLevel} {st : Stmt}
    (split : p.declarations = front ++ .statement st :: back) :
    ∃ s t, Scan.exec (front.forM (Scan.topLevel entry)) {} = (.ok (), s) ∧
      Scan.exec (Scan.topLevel entry (.statement st)) s = (.ok (), t) ∧
      t.symbols.functions = s.symbols.functions := by
  obtain ⟨last, run, -⟩ := symbols_eq_ok.1 returned
  rw [split, Scan.forM_append, Scan.forM_cons] at run
  obtain ⟨⟨⟩, s, before, run⟩ := Scan.exec_bind_returns.1 run
  obtain ⟨⟨⟩, t, here, -⟩ := Scan.exec_bind_returns.1 run
  have none : (TopLevel.statement st).function? = none := rfl
  have start : ScanState.Holds [] {} := ⟨.nil, .nil, rfl⟩
  have holds : s.Holds ([] ++ front) :=
    Scan.exec_forM_returns (fun before s => s.Holds before)
      (fun _ _ _ _ holds run => holds.step run) start before
  exact ⟨s, t, before, here, ScanState.functions_topLevel holds.outside none here⟩

namespace Text

/-- The control structures of a function that a source registers are those among the tokens of its
body: one for each of their words, in the order of the words. -/
structure HasControls (tokens : List Token) (decl : FunctionDecl) (f : Function) : Prop where
  declares : decl.Declares f
  controls : ∃ body, decl.HasBody tokens body ∧ f.controls = Token.controls body ∧
    f.controls.map (·.startLine) = (body.filter (·.kind.isControl)).map (·.pos.line)
  outline : ControlStructure.Outline f.controls

/-- Every function that a source registers has exactly the control structures that its tokens show,
in the order of a forest, and a statement at top level adds none to any function. -/
theorem symbols_controls {source entry : Text} {symbols : Symbols}
    (returned : source.symbols entry = .ok symbols) :
    ∃ tokens p, source.tokens = .ok tokens ∧ source.program = .ok p ∧
      List.Forall₂ (HasControls tokens) (firsts FunctionDecl.name [] p.functions)
        symbols.functions ∧
      ∀ front st back, p.declarations = front ++ .statement st :: back →
        ∃ s t, Scan.exec (front.forM (Scan.topLevel entry)) {} = (.ok (), s) ∧
          Scan.exec (Scan.topLevel entry (.statement st)) s = (.ok (), t) ∧
          t.symbols.functions = s.symbols.functions := by
  obtain ⟨p, spells, scanned⟩ := program_of_symbols returned
  obtain ⟨tokens, split, read⟩ := program_eq_ok.1 spells
  refine ⟨tokens, p, split, spells, ?_, fun _ _ _ => Program.functions_statement scanned⟩
  obtain ⟨-, declared⟩ := Program.symbols_tables scanned
  have recorded := Program.symbols_records scanned
  rw [List.forall₂_iff_zip] at declared recorded ⊢
  refine ⟨declared.1, fun {decl f} member => ?_⟩
  have among : .function decl ∈ p.declarations := by
    obtain ⟨node, inside, same⟩ := List.mem_filterMap.1 (firsts_subset (List.of_mem_zip member).1)
    cases node <;> cases same
    exact inside
  obtain ⟨body, has, found, forest⟩ := Program.function_body (tokens_allSpelt split) read among
  obtain ⟨low, high, lines⟩ := Token.inLines_of_ordered (has.ordered (tokens_lines split))
  have same : f.controls = Token.controls body := (recorded.2 member).trans found.symm
  exact ⟨declared.2 member, ⟨body, has, same, by rw [same, Token.controls_startLine]⟩,
    same ▸ (forest low high lines).outline⟩

/-- A source with loops in both branches of a function and a branch behind the function. -/
def nested : Text :=
  "void f(int a) \x7b\n  if (a == 0) \x7b\n    while (a) \x7b\x7d\n  \x7d else \x7b\n    for (int i; i<a; ) \x7b\n    \x7d\n  \x7d\n\x7d\nif (1) \x7b\x7d"

theorem nested_controls : ∃ symbols, nested.symbols "main" = .ok symbols ∧
    (∃ tokens p, nested.tokens = .ok tokens ∧ nested.program = .ok p ∧
      List.Forall₂ (HasControls tokens) (firsts FunctionDecl.name [] p.functions)
        symbols.functions ∧
      ∀ front st back, p.declarations = front ++ .statement st :: back →
        ∃ s t, Scan.exec (front.forM (Scan.topLevel "main")) {} = (.ok (), s) ∧
          Scan.exec (Scan.topLevel "main" (.statement st)) s = (.ok (), t) ∧
          t.symbols.functions = s.symbols.functions) ∧
    symbols.functions.map (·.controls) = [[⟨.branchElse, 2, 7, "a==0", 0⟩,
      ⟨.whileLoop, 3, 3, "a", 1⟩, ⟨.forLoop, 5, 6, "i<a", 1⟩]] := by
  have found : (nested.symbols "main").toOption.map (·.functions.map (·.controls)) =
      some [[⟨.branchElse, 2, 7, "a==0", 0⟩, ⟨.whileLoop, 3, 3, "a", 1⟩,
        ⟨.forLoop, 5, 6, "i<a", 1⟩]] := by
    decide +kernel
  cases returned : nested.symbols "main" with
  | error e =>
    rw [returned] at found
    cases found
  | ok symbols =>
    rw [returned] at found
    exact ⟨symbols, rfl, symbols_controls returned, Option.some.inj found⟩

end Text

end ProcCheck
