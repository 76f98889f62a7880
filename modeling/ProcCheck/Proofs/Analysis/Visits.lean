import ProcCheck.Proofs.Analysis.Diagnostics
import ProcCheck.Proofs.Analysis.Tables
import ProcCheck.Proofs.Analysis.Watch
import ProcCheck.Proofs.Grammar.Canonical

/-!
# What a scan validates

A scan and a walk of the tree go through the same expressions: the places of a statement are
visited in the order of the walk, and at each place either all nodes are validated or none. The
places that are left out are initializers, and which of them can be told from the function that the
scan stands in and from the places before.
-/

namespace ProcCheck

/-! ## Walks by places -/

/-- The expressions at a place, each with its parts. -/
def Site.walk : Site → List Expr
  | declare decl => decl.init.toList.flatMap Expr.walk
  | check e => e.walk

/-- Whether the first clause of a loop, if the statement is one, is a declaration or an
expression. -/
def Stmt.startsPlainly : Stmt → Bool
  | forLoop init _ _ _ _ => init.all isClause
  | _ => true

namespace Stmt

theorem walk_check (e? : Option Expr) :
    (e?.toList.map Site.check).flatMap Site.walk = e?.toList.flatMap Expr.walk := by
  rw [List.flatMap_map]
  rfl

/-- The places of a statement are those of the expressions that it owns, then those of its
children. -/
theorem walk_sites_eq {s : Stmt} (plain : s.startsPlainly) :
    s.sites.flatMap Site.walk =
      s.expressions.flatMap Expr.walk ++ s.children.flatMap (·.sites.flatMap Site.walk) := by
  cases s with
  | forLoop init condition update body span =>
    have first : (sites.initSites init).flatMap Site.walk =
        (expressions.first init).flatMap Expr.walk := by
      cases init with
      | none => rfl
      | some s => cases s with
        | var decl => simp [sites.initSites, sites, expressions.first, expressions, Site.walk]
        | expr e span => simp [sites.initSites, sites, expressions.first, expressions, Site.walk]
        | _ => cases plain
    simp only [sites, expressions, children, List.flatMap_append, first, walk_check,
      List.flatMap_singleton, List.append_assoc]
  | branch condition thenBlock elseBlock span =>
    cases elseBlock <;> simp [sites, expressions, children, Site.walk]
  | ret value span => simp [sites, expressions, children, walk_check]
  | block body => simp [sites, expressions, children, List.flatMap_assoc]
  | _ => simp [sites, expressions, children, Site.walk]

/-- Induction over statements and those under them. -/
@[elab_as_elim]
theorem childrenInduction {motive : Stmt → Prop}
    (step : ∀ s : Stmt, (∀ child ∈ s.children, motive child) → motive s) (s : Stmt) : motive s := by
  have block (body : Block Stmt) (each : ∀ s ∈ body.statements, motive s) : motive (.block body) :=
    step _ each
  induction s using Stmt.treeInduction with
  | block body ih => exact block body ih
  | branch condition thenBlock elseBlock span ihThen ihElse =>
    refine step _ ?_
    cases elseBlock <;> simp_all [children]
  | whileLoop condition body span ih | forLoop init condition update body span _ ih =>
    exact step _ (by simpa [children] using block body ih)
  | _ => exact step _ (by simp [children])

/-- The walk of a statement goes through its places in their order. -/
theorem walk_sites {s : Stmt} (plain : ∀ inner ∈ s.nested, inner.startsPlainly) :
    s.walk = s.sites.flatMap Site.walk := by
  induction s using childrenInduction with
  | step s ih =>
    rw [nested_eq, List.forall_mem_cons] at plain
    rw [walk_eq, walk_sites_eq plain.1]
    congr 1
    refine List.flatMap_congr fun child direct => ih child direct fun inner member => ?_
    exact plain.2 inner (List.mem_flatMap.2 ⟨child, direct, member⟩)

end Stmt

/-! ## What is left out -/

namespace ScanState

/-- Whether the initializer at a place is left out, given the places before it in the statement: the
scan stands outside of all functions, the function or a place before declares the name, or the
initializer is not compound. -/
def skips (c : ScanState) (earlier : List Site) : Site → Bool
  | .check _ => false
  | .declare decl =>
    c.frame.function?.all (fun f =>
        f.declares decl.name || (earlier.filterMap Site.decl?).any (·.name = decl.name)) ||
      !decl.init.any (·.text.isCompound)

/-- The expressions of a statement without those that are left out. -/
def visited (c : ScanState) (s : Stmt) : List Expr :=
  inOrder (fun earlier site => if c.skips earlier site then [] else site.walk) [] s.sites

/-- A scan that started in `c` has passed some places: the function that it stands in has the names
that it had and those that were declared. -/
def HasPassed (c : ScanState) (earlier : List Site) (d : ScanState) : Prop :=
  ∀ name, d.frame.function?.map (·.declares name) =
    c.frame.function?.map fun f =>
      f.declares name || (earlier.filterMap Site.decl?).any (·.name = name)

variable {c d : ScanState} {earlier : List Site}

/-- A scan looks at exactly the initializers that are not left out. -/
theorem HasPassed.looksAt (passed : c.HasPassed earlier d) {decl : VarDecl} (known : decl.isKnown) :
    d.looksAt decl = !c.skips earlier (.declare decl) := by
  simp only [VarDecl.isKnown, Bool.and_eq_true] at known
  have names := passed decl.name
  cases here : d.frame.function? <;> cases start : c.frame.function? <;>
    simp_all [ScanState.looksAt, skips]

/-- What is validated at an event on known nodes is what is not left out. -/
theorem HasPassed.validated (passed : c.HasPassed earlier d) {event : Event}
    (known : event.isKnown) : event.validated d = event.site?.toList.flatMap fun site =>
      if c.skips earlier site then [] else site.walk := by
  have all {e : Expr} (known : e.isKnown) : Watch.reached e.walk = e.walk :=
    Watch.reached_known fun node member => by
      simpa using List.all_eq_true.1 known node member
  cases event with
  | declare decl =>
    have inits : decl.init.toList.flatMap (fun e => Watch.reached e.walk) =
        decl.init.toList.flatMap Expr.walk := by
      refine List.flatMap_congr fun e member => all ?_
      simp only [Event.isKnown, VarDecl.isKnown, Bool.and_eq_true, Option.all_eq_true] at known
      exact known.2 e (Option.mem_toList.1 member)
    simp only [Event.validated, passed.looksAt known, inits, Event.site?, Option.toList_some,
      List.flatMap_singleton, Site.walk]
    cases c.skips earlier (.declare decl) <;> rfl
  | check e => simp [Event.validated, all known, Event.site?, skips, Site.walk]
  | enter | leave => rfl
  | foreign => cases known

/-- A declaration is passed: its name is declared afterwards if it was not before. -/
theorem HasPassed.declare (passed : c.HasPassed earlier d) {decl : VarDecl}
    (known : decl.isKnown) : ∃ d', Scan.exec (Scan.declareLocal decl) d = (.ok (), d') ∧
      c.HasPassed (earlier ++ [.declare decl]) d' := by
  refine ⟨_, Scan.exec_declareLocal known d, fun name => ?_⟩
  have names := passed name
  cases function : d.frame.function? with
  | none =>
    cases start : c.frame.function? with
    | none => simp [function]
    | some f => simp [function, start] at names
  | some f =>
    obtain ⟨g, start, same⟩ : ∃ g, c.frame.function? = some g ∧
        ∀ name, f.declares name =
          (g.declares name || (earlier.filterMap Site.decl?).any (·.name = name)) := by
      cases start : c.frame.function? with
      | none => simp [function, start] at names
      | some g => exact ⟨g, rfl, fun name => by simpa [function, start] using passed name⟩
    have after : ((earlier ++ [Site.declare decl]).filterMap Site.decl?).any (·.name = name) =
        ((earlier.filterMap Site.decl?).any (·.name = name) || decide (decl.name = name)) := by
      rw [List.filterMap_append, List.any_append]
      exact congrArg _ (Bool.or_false _)
    rw [start, Option.map_some, after, ← Bool.or_assoc, ← same]
    by_cases duplicate : f.declares decl.name
    · simp only [if_pos duplicate, report_frame, function, Option.map_some,
        or_decide_of_mem duplicate]
    · simp only [if_neg duplicate]
      simp [addLocal, function, Function.declares_eq, VarDecl.variable, Bool.or_assoc]

/-- Every event on known nodes is passed. -/
theorem HasPassed.step (passed : c.HasPassed earlier d) {event : Event} (known : event.isKnown) :
    ∃ d', Scan.exec (Scan.happen event) d = (.ok (), d') ∧
      c.HasPassed (earlier ++ event.site?.toList) d' := by
  cases event with
  | declare decl => exact passed.declare known
  | check e =>
    refine ⟨_, Scan.exec_checkExpr known d, fun name => ?_⟩
    simpa [Event.site?, Site.decl?] using passed name
  | enter head =>
    refine ⟨_, Scan.exec_happen_enter head d, fun name => ?_⟩
    have same : (d.openControl head).frame.function?.map (·.declares name) =
        d.frame.function?.map (·.declares name) := by
      cases function : d.frame.function? <;>
        simp [openControl, function, Function.declares_eq]
    simpa [Event.site?, same] using passed name
  | leave =>
    refine ⟨_, Scan.exec_happen_leave d, fun name => ?_⟩
    simpa [Event.site?, closeControl] using passed name
  | foreign tag => cases known

/-- Along events on known nodes exactly that is validated which is not left out. -/
theorem HasPassed.along {events : List Event} (known : ∀ event ∈ events, event.isKnown)
    (passed : c.HasPassed earlier d) :
    (∃ d', Scan.exec (events.forM Scan.happen) d = (.ok (), d')) ∧
      Event.validatedAlong events d =
        inOrder (fun earlier site => if c.skips earlier site then [] else site.walk) earlier
          (events.filterMap Event.site?) := by
  induction events generalizing earlier d with
  | nil => exact ⟨⟨d, rfl⟩, rfl⟩
  | cons event rest ih =>
    obtain ⟨here, others⟩ := List.forall_mem_cons.1 known
    obtain ⟨mid, run, passedHere⟩ := passed.step here
    obtain ⟨⟨last, runRest⟩, seen⟩ := ih others passedHere
    refine ⟨⟨last, ?_⟩, ?_⟩
    · rw [Scan.forM_cons, Scan.exec_bind_ok run, runRest]
    · rw [Event.validatedAlong_cons run, passed.validated here, seen]
      cases site : event.site? <;> simp [site, inOrder]

end ScanState

/-- What a scan of known statements validates is what their walk visits, but for what is left out. -/
theorem Watch.statement_visits {s : Stmt} (known : s.isKnown) (c : ScanState) :
    ∃ d, Scan.exec (Scan.statement s) c = (.ok (), d) ∧
      Shows (statement s) c (c.visited s) (.ok (), d) := by
  have start : c.HasPassed [] c := fun name => by simp
  obtain ⟨⟨d, run⟩, seen⟩ := start.along (Stmt.events_isKnown known)
  have returned : Scan.exec (Scan.statement s) c = (.ok (), d) := Scan.exec_keepNesting_ok run
  refine ⟨d, returned, ?_⟩
  have shows := statement_follows s c
  rw [seen, Stmt.filterMap_events] at shows
  rw [← returned]
  exact shows

/-- The tables of a scan and the function that it stands in, without what it has reported and
without the control structures around it. -/
def ScanState.tables (c : ScanState) : ScanState :=
  ⟨{ c.symbols with diagnostics := [] }, { c.frame with nesting := [] }⟩

theorem ScanState.diagnose_tables (c : ScanState) : c.tables.diagnose = c.diagnose := by
  funext e
  cases e <;> rfl

/-- What a scan validates. From every state, scanning a statement of known nodes validates the
expressions of its walk but for the initializers that are left out. Validating a node by itself adds
at most one diagnostic, which the node and the tables tell. Validating an expression adds
diagnostics at the end and changes nothing else, and where the expression holds a node of unknown
kind it is cut short with the diagnostics of the nodes before. -/
theorem Watch.validates_walk (c : ScanState) :
    (∀ s : Stmt, s.isKnown → (∀ inner ∈ s.nested, inner.startsPlainly) →
      s.walk = s.sites.flatMap Site.walk ∧
      ∃ d, Scan.exec (Scan.statement s) c = (.ok (), d) ∧
        exec (statement s) ⟨c, []⟩ = (.ok (), ⟨d, c.visited s⟩)) ∧
    (∀ e : Expr, e.foreignTag? = none →
      Scan.exec (Scan.judge e) c = (.ok (), c.report (c.tables.diagnose e).toList)) ∧
    (∀ e : Expr, ∃ answer found, Scan.exec (Scan.checkExpr e) c = (answer, c.report found) ∧
      exec (expr e) ⟨c, []⟩ = (answer, ⟨c.report found, reached e.walk⟩)) ∧
    (∀ (e : Expr) front src tag back, e.walk = front ++ .foreign src tag :: back →
      AllKnown front →
      exec (expr e) ⟨c, []⟩ = (.error (.foreignExpression tag),
        ⟨c.report (front.filterMap c.tables.diagnose), front ++ [.foreign src tag]⟩)) := by
  rw [c.diagnose_tables]
  refine ⟨fun s known plain => ?_, fun e known => Scan.exec_judge known c, fun e => ?_, ?_⟩
  · obtain ⟨d, run, shows⟩ := statement_visits known c
    exact ⟨Stmt.walk_sites plain, d, run, shows []⟩
  · refine ⟨_, _, Scan.exec_checkExpr_eq e c, ?_⟩
    rw [expr_validates e c]
    rfl
  · intro e front src tag back split known
    have shows := expr_validates e c
    rw [split, reached_foreign known, judged_foreign known] at shows
    exact shows []

/-- A function in which an initializer is left out for being no compound one and another for being
that of a duplicate, and a loop. -/
def Text.walked : Text :=
  "void f(int n) \x7b int a = n - 1; int a = f(n); int b = n; " ++
    "for (int i = (b); i < n; i = i + 1) \x7b g(a); \x7d \x7d"

/-- A scan inside that function. -/
def ScanState.inWalked : ScanState where
  frame.function? := some
    { name := "f", returnType := .void, line := 1, parameters := [⟨"n", .int, false, 1, none⟩] }

/-- A node of unknown kind behind a name that is not declared. -/
def Expr.halfKnown : Expr :=
  .binary ⟨"x+?", default⟩ .add (.identifier ⟨"x", default⟩ "x") (.foreign ⟨"?", default⟩ "Hole")

/-- What is left of the walk of that function is validated, and of the half known expression the
nodes up to the one of unknown kind. -/
theorem Watch.walked_validates : (∃ p decl, Text.walked.program = .ok p ∧
      p.functions = [decl] ∧
      (Stmt.block decl.body).walk.map Expr.text = (["n-1", "n", "1", "f(n)", "n", "n", "(b)", "b",
        "i<n", "i", "n", "i=i+1", "i+1", "i", "1", "g(a)", "a"] : List Text) ∧
      (exec (statement (.block decl.body)) ⟨.inWalked, []⟩).2.seen.map Expr.text = (["n-1", "n", "1",
        "(b)", "b", "i<n", "i", "n", "i=i+1", "i+1", "i", "1", "g(a)", "a"] : List Text)) ∧
    Scan.exec (Scan.judge (.identifier default "x")) .inWalked =
      (.ok (), ScanState.inWalked.report [⟨0, .undeclaredVariable "x"⟩]) ∧
    exec (expr .halfKnown) ⟨.inWalked, []⟩ = (.error (.foreignExpression "Hole"),
      ⟨ScanState.inWalked.report [⟨0, .undeclaredVariable "x"⟩], Expr.halfKnown.walk⟩) := by
  obtain ⟨statements, nodes, -, halves⟩ := validates_walk .inWalked
  have known : Text.walked.program.toOption.map (·.functions.map fun decl =>
      let s := Stmt.block decl.body
      (s.isKnown && s.nested.all Stmt.startsPlainly, s.walk.map Expr.text,
        (ScanState.inWalked.visited s).map Expr.text)) =
      some [(true, (["n-1", "n", "1", "f(n)", "n", "n", "(b)", "b", "i<n", "i", "n", "i=i+1", "i+1",
        "i", "1", "g(a)", "a"] : List Text), (["n-1", "n", "1", "(b)", "b", "i<n", "i", "n",
        "i=i+1", "i+1", "i", "1", "g(a)", "a"] : List Text))] := by
    decide +kernel
  refine ⟨?_, nodes _ rfl, ?_⟩
  · cases read : Text.walked.program with
    | error e =>
      rw [read] at known
      cases known
    | ok p =>
      rw [read] at known
      obtain ⟨decl, functions, known⟩ := List.map_eq_singleton_iff.1 (Option.some.inj known)
      simp only [Prod.mk.injEq, Bool.and_eq_true] at known
      obtain ⟨⟨isKnown, plain⟩, walk, visited⟩ := known
      obtain ⟨-, d, -, seen⟩ := statements (.block decl.body) isKnown (List.all_eq_true.1 plain)
      exact ⟨p, decl, rfl, functions, walk, by rw [seen]; exact visited⟩
  · exact halves .halfKnown [.binary _ _ _ _, .identifier _ _] _ _ [] rfl
      (by simp [AllKnown, Expr.foreignTag?])

end ProcCheck
