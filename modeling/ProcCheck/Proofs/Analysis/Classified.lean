import ProcCheck.Proofs.Analysis.Nesting
import ProcCheck.Proofs.Analysis.Safety
import ProcCheck.Proofs.Grammar.Calls

/-!
# Roles of functions

A function that is not the entry is recursive if the walk of its body meets a call of it. The walk
meets exactly the calls that the tokens of the body show, so the role of a function can be read off
its tokens, wherever in the body the call stands.
-/

namespace ProcCheck

/-- Somewhere among some tokens a name stands right in front of an opening parenthesis. -/
def Token.Calls (used : List Token) (name : Text) : Prop :=
  ∃ front t paren behind, used = front ++ t :: paren :: behind ∧ t.kind.isCallable ∧
    t.spelling = name ∧ paren.kind = .openParen

theorem Token.calls_iff {used : List Token} {name : Text} :
    Calls used name ↔ ∃ t ∈ callHeads used, t.spelling = name := by
  constructor
  · rintro ⟨front, t, paren, behind, split, callable, same, opens⟩
    exact ⟨t, mem_callHeads.2 ⟨callable, front, paren, behind, split, opens⟩, same⟩
  · rintro ⟨t, member, same⟩
    obtain ⟨callable, front, paren, behind, split, opens⟩ := mem_callHeads.1 member
    exact ⟨front, t, paren, behind, split, callable, same, opens⟩

/-! ## Calls of a body -/

/-- The walk of a statement keeps its calls and nothing else. -/
theorem Stmt.calls_eq (s : Stmt) : s.calls = (s.walk.filter Expr.isCall).filterMap Expr.callSite? := by
  rw [calls, List.filterMap_filter]
  refine List.filterMap_congr fun e _ => ?_
  cases site : e.callSite? <;> simp [Expr.isCall, site]

/-- The calls under the body of a function are those that some tokens show: one for each name in
front of an opening parenthesis, in the order of the names, at the place of the name. -/
structure FunctionDecl.HasCalls (decl : FunctionDecl) (body : List Token) : Prop where
  found : List.Forall₂ Expr.CalledBy ((Stmt.block decl.body).walk.filter Expr.isCall)
    (Token.callHeads body)
  sites : (Stmt.block decl.body).calls.map (fun site => (site.callee, site.line)) =
    (Token.callHeads body).map fun t => (t.spelling, t.pos.line)

/-- A call that starts with a token names what it spells, on its line. -/
theorem Expr.calledBy_sites {es : List Expr} {heads : List Token}
    (called : List.Forall₂ CalledBy es heads) :
    (es.filterMap callSite?).map (fun site => (site.callee, site.line)) =
      heads.map fun t => (t.spelling, t.pos.line) := by
  induction called with
  | nil => rfl
  | @cons e t es heads first _ ih =>
    obtain ⟨src, args, rfl, start⟩ := first
    have site : (call src t.spelling args).callSite? =
        some ⟨t.spelling, args.length, src.span.line⟩ := rfl
    rw [List.filterMap_cons_some site, List.map_cons, List.map_cons, ih, Span.line, start]

theorem FunctionDecl.HasCalls.of_found {decl : FunctionDecl} {body : List Token}
    (found : Grammar.Finds (Stmt.block decl.body).walk body) : decl.HasCalls body := by
  refine ⟨found, ?_⟩
  rw [Stmt.calls_eq]
  exact Expr.calledBy_sites found

/-- A body calls a name if its tokens do. -/
theorem FunctionDecl.HasCalls.callsTo_iff {decl : FunctionDecl} {body : List Token}
    (has : decl.HasCalls body) (name : Text) :
    (Stmt.block decl.body).callsTo name = true ↔ Token.Calls body name := by
  have callees : (Stmt.block decl.body).calls.map (·.callee) =
      (Token.callHeads body).map (·.spelling) := by
    have first := congrArg (List.map Prod.fst) has.sites
    simpa only [List.map_map, Function.comp_def] using first
  calc
    (Stmt.block decl.body).callsTo name = true ↔
        name ∈ (Stmt.block decl.body).calls.map (·.callee) := by
      simp [Stmt.callsTo]
    _ ↔ Token.Calls body name := by
      rw [callees, List.mem_map, Token.calls_iff]

/-! ## Roles -/

/-- The role of a function as its name and the tokens of its body tell it. -/
structure Function.ClassifiedBy (f : Function) (entry : Text) (body : List Token) : Prop where
  isEntry : f.classification = .entry ↔ f.name.toLower = entry.toLower
  isRecursive : f.classification = .recursive ↔
    f.name.toLower ≠ entry.toLower ∧ Token.Calls body f.name
  isNormal : f.classification = .normal ↔
    f.name.toLower ≠ entry.toLower ∧ ¬ Token.Calls body f.name

/-- A function that is registered under the role that its name and its body give it. -/
def FunctionDecl.HasRole (entry : Text) (decl : FunctionDecl) (f : Function) : Prop :=
  f.classification = Scan.classify entry decl.name decl.body

theorem FunctionDecl.HasCalls.classified {decl : FunctionDecl} {body : List Token} {f : Function}
    {entry : Text} (has : decl.HasCalls body) (name : f.name = decl.name)
    (role : decl.HasRole entry f) : f.ClassifiedBy entry body := by
  have calls := has.callsTo_iff decl.name
  rw [HasRole, Scan.classify, Scan.isEntryName] at role
  by_cases same : decl.name.toLower = entry.toLower
  · have isEntry : f.classification = .entry := by simpa [same] using role
    constructor <;> simp [isEntry, name, same]
  · by_cases called : (Stmt.block decl.body).callsTo decl.name = true
    · have isRecursive : f.classification = .recursive := by simpa [same, called] using role
      constructor <;> simp [isRecursive, name, same, calls.1 called]
    · have isNormal : f.classification = .normal := by simpa [same, called] using role
      have noCall : ¬ Token.Calls body decl.name := fun h => called (calls.2 h)
      constructor <;> simp [isNormal, name, same, noCall]

/-- Every function that is registered has the role that its name and its body give it. -/
theorem Program.symbols_classified {p : Program} {entry : Text} {symbols : Symbols}
    (returned : p.symbols entry = .ok symbols) :
    List.Forall₂ (FunctionDecl.HasRole entry) (firsts FunctionDecl.name [] p.functions)
      symbols.functions := by
  obtain ⟨s, run, rfl⟩ := symbols_eq_ok.1 returned
  let holds (before : List TopLevel) (s : ScanState) : Prop :=
    s.Holds before ∧ List.Forall₂ (FunctionDecl.HasRole entry)
      (firsts FunctionDecl.name [] (before.filterMap TopLevel.function?)) s.symbols.functions
  have start : holds [] {} := ⟨⟨.nil, .nil, rfl⟩, .nil⟩
  have all : holds ([] ++ p.declarations) s := by
    refine Scan.exec_forM_returns holds (fun before node s t before_s run => ?_) start run
    obtain ⟨tables, roles⟩ := before_s
    exact ⟨tables.step run,
      ScanState.registered_step tables roles (fun _ _ _ _ _ _ => rfl) run⟩
  exact all.2

/-! ## Sources -/

/-- Every function of a program that is read from tokens has its calls in its body. -/
theorem Program.function_calls {tokens : List Token} (spelt : Grammar.AllSpelt tokens)
    {p : Program} (read : Program.ofTokens tokens = .ok p) {decl : FunctionDecl}
    (member : .function decl ∈ p.declarations) :
    ∃ body, decl.HasBody tokens body ∧ decl.HasCalls body := by
  obtain ⟨body, after, has, bodySpelt, run⟩ := function_read spelt read member
  obtain ⟨used, same, front, last, rfl, apart, found⟩ := Grammar.body_finds _ _ _ bodySpelt run
  obtain rfl := List.append_cancel_right same
  exact ⟨_, has, .of_found (found.concat apart)⟩

namespace Text

/-- In every source that spells a program, the calls under the body of a function are those that its
tokens show: each name in front of an opening parenthesis is called once, in the order of the source.
So a registered function is an entry if it has the entry name in any case of letters, and otherwise it
is recursive if its tokens call its own name anywhere in its body. -/
theorem program_calls {source : Text} {p : Program} (read : source.program = .ok p) :
    ∃ tokens, source.tokens = .ok tokens ∧
      (∀ decl, .function decl ∈ p.declarations →
        ∃ body, decl.HasBody tokens body ∧ decl.HasCalls body) ∧
      ∀ entry, ∃ symbols, source.symbols entry = .ok symbols ∧
        List.Forall₂ (fun decl f => f.name = decl.name ∧
            ∃ body, decl.HasBody tokens body ∧ f.ClassifiedBy entry body)
          (firsts FunctionDecl.name [] p.functions) symbols.functions := by
  obtain ⟨tokens, split, spells⟩ := program_eq_ok.1 read
  have calls {decl : FunctionDecl} (member : .function decl ∈ p.declarations) :
      ∃ body, decl.HasBody tokens body ∧ decl.HasCalls body :=
    Program.function_calls (tokens_allSpelt split) spells member
  refine ⟨tokens, split, fun _ member => calls member, fun entry => ?_⟩
  obtain ⟨symbols, returned⟩ :=
    Program.symbols_returns (canonical_of_program read).isKnown entry
  refine ⟨symbols, symbols_eq_ok read returned, ?_⟩
  obtain ⟨-, declared⟩ := Program.symbols_tables returned
  have classified := Program.symbols_classified returned
  rw [List.forall₂_iff_zip] at declared classified ⊢
  refine ⟨declared.1, fun {decl f} member => ?_⟩
  have among := firsts_subset (List.of_mem_zip member).1
  obtain ⟨body, has, found⟩ := calls (Program.mem_functions.1 among)
  have name := (declared.2 member).name
  exact ⟨name, body, has, found.classified name (classified.2 member)⟩

/-- Functions that call themselves in a group, in an argument and in an alternative, and an entry
whose name is written in capitals. -/
def recursions : Text :=
  "void f(int a) \x7b int b = (f(1)); for (int i = g(); i; g(f(2))) \x7b\x7d \x7d " ++
    "void g() \x7b if (1) \x7b\x7d else \x7b return !g(); \x7d \x7d " ++
    "void h() \x7b f(h); \x7d void MAIN() \x7b main(f()); \x7d"

theorem recursions_calls : ∃ p, recursions.program = .ok p ∧
    p.functions.map (fun decl => (Stmt.block decl.body).calls.map (·.callee)) =
      ([["f", "g", "g", "f"], ["g"], ["f"], ["main", "f"]] : List (List Text)) ∧
    ∃ tokens symbols, recursions.tokens = .ok tokens ∧
      recursions.symbols "main" = .ok symbols ∧
      symbols.functions.map (·.classification) = [.recursive, .recursive, .normal, .entry] ∧
      List.Forall₂ (fun decl f => f.name = decl.name ∧
          ∃ body, decl.HasBody tokens body ∧ f.ClassifiedBy "main" body)
        (firsts FunctionDecl.name [] p.functions) symbols.functions := by
  have callees : recursions.program.toOption.map (fun p =>
      p.functions.map fun decl => (Stmt.block decl.body).calls.map (·.callee)) =
      some ([["f", "g", "g", "f"], ["g"], ["f"], ["main", "f"]] : List (List Text)) := by
    decide +kernel
  have roles : (recursions.symbols "main").toOption.map (·.functions.map (·.classification)) =
      some [.recursive, .recursive, .normal, .entry] := by
    decide +kernel
  cases read : recursions.program with
  | error e =>
    rw [read] at callees
    cases callees
  | ok p =>
    rw [read] at callees
    obtain ⟨tokens, split, -, analysed⟩ := program_calls read
    obtain ⟨symbols, returned, classified⟩ := analysed "main"
    rw [returned] at roles
    exact ⟨p, rfl, Option.some.inj callees, tokens, symbols, split, returned,
      Option.some.inj roles, classified⟩

end Text

end ProcCheck
