import ProcCheck.Proofs.Grammar.Canonical

/-!
# Expressions of canonical trees

`Program.walk` lists every expression of a program: initializers, conditions, clauses, arguments
and all parts of them. In a canonical tree each of them is canonical in its own right.
-/

namespace ProcCheck

/-! ## Expressions -/

namespace Expr

/-- Every part of a canonical expression is canonical. -/
theorem Canonical.of_mem_walk {e part : Expr} (canonical : e.Canonical) (member : part ∈ e.walk) :
    part.Canonical := by
  have whole := canonical
  induction canonical with
  | intLiteral | floatLiteral | stringLiteral | identifier =>
    obtain rfl := List.mem_singleton.1 member
    exact whole
  | call _ each _ ih =>
    rw [walk, walkAll_eq, List.mem_cons, List.mem_flatMap] at member
    rcases member with rfl | ⟨a, among, member⟩
    · exact whole
    · exact ih a among member (each a among)
  | assign _ inner _ ih | prefixed inner _ _ ih | group inner _ ih =>
    rcases List.mem_cons.1 member with rfl | member
    · exact whole
    · exact ih member inner
  | binary left right _ _ _ ihLeft ihRight =>
    rw [walk, List.mem_cons, List.mem_append] at member
    rcases member with rfl | member | member
    · exact whole
    · exact ihLeft member left
    · exact ihRight member right

end Expr

/-! ## Statements -/

namespace Stmt

/-- Every statement in a canonical one is canonical. -/
theorem Canonical.of_mem_nested {s inner : Stmt} (canonical : s.Canonical)
    (member : inner ∈ s.nested) : inner.Canonical := by
  have within {body : Block Stmt} (each : ∀ s ∈ body.statements, s.Canonical)
      (ih : ∀ s ∈ body.statements, inner ∈ s.nested → inner.Canonical)
      (member : inner ∈ Stmt.block body :: body.statements.flatMap nested) : inner.Canonical := by
    rw [List.mem_cons, List.mem_flatMap] at member
    rcases member with rfl | ⟨s, among, member⟩
    · exact .block each
    · exact ih s among member
  have whole := canonical
  induction canonical with
  | var | expr | ret =>
    obtain rfl := List.mem_singleton.1 member
    exact whole
  | block each ih =>
    rw [nested, nestedInBlock_eq] at member
    exact within each (fun s among member => ih s among member (each s among)) member
  | branch test thenEach elseEach ihThen ihElse =>
    rw [nested, nestedInBlock_eq, nestedInElse_eq, List.mem_cons, List.mem_append,
      List.mem_flatMap] at member
    rcases member with rfl | member | ⟨body, alternative, member⟩
    · exact whole
    · exact within thenEach (fun s among member => ihThen s among member (thenEach s among)) member
    · have alternative := Option.mem_toList.1 alternative
      exact within (elseEach body alternative) (fun s among member =>
        ihElse body alternative s among member (elseEach body alternative s among)) member
  | whileLoop test each ih | forLoop clause first test last each _ ih =>
    rw [nested, nestedInBlock_eq, List.mem_cons] at member
    rcases member with rfl | member
    · exact whole
    · exact within each (fun s among member => ih s among member (each s among)) member

/-- Every expression that a canonical statement owns is canonical. -/
theorem Canonical.of_mem_expressions {s : Stmt} {e : Expr} (canonical : s.Canonical)
    (member : e ∈ s.expressions) : e.Canonical := by
  have clause {s : Stmt} (isClause : s.isClause) (canonical : s.Canonical)
      (member : e ∈ s.expressions) : e.Canonical := by
    cases canonical with
    | var inner => exact inner.init e (Option.mem_toList.1 member)
    | expr inner => exact List.mem_singleton.1 member ▸ inner
    | _ => cases isClause
  have whole := canonical
  cases canonical with
  | var | expr => exact clause rfl whole member
  | ret each => exact each e (Option.mem_toList.1 member)
  | block => cases member
  | branch test | whileLoop test => exact List.mem_singleton.1 member ▸ test
  | @forLoop init condition update body span isClause first test last _ =>
    simp only [expressions, List.mem_append, Option.mem_toList] at member
    rcases member with (member | member) | member
    · cases init with
      | none => cases member
      | some s => exact clause (isClause s rfl) (first s rfl) member
    · exact test e member
    · exact last e member

/-- Every expression under a canonical statement is canonical. -/
theorem Canonical.of_mem_walk {s : Stmt} {e : Expr} (canonical : s.Canonical)
    (member : e ∈ s.walk) : e.Canonical := by
  simp only [walk, List.mem_flatMap] at member
  obtain ⟨inner, nested, owned, own, member⟩ := member
  exact ((canonical.of_mem_nested nested).of_mem_expressions own).of_mem_walk member

end Stmt

/-! ## Programs -/

/-- Every expression of a top-level node. -/
def TopLevel.walk : TopLevel → List Expr
  | global decl => decl.init.toList.flatMap Expr.walk
  | function decl => (Stmt.block decl.body).walk
  | statement s => s.walk

/-- Every expression of a program. -/
def Program.walk (p : Program) : List Expr := p.declarations.flatMap TopLevel.walk

/-- Every expression of a canonical program is canonical. -/
theorem Program.Canonical.of_mem_walk {p : Program} {e : Expr} (canonical : p.Canonical)
    (member : e ∈ p.walk) : e.Canonical := by
  obtain ⟨node, among, member⟩ := List.mem_flatMap.1 member
  cases canonical node among with
  | global inner =>
    obtain ⟨init, some, member⟩ := List.mem_flatMap.1 member
    exact (inner.init init (Option.mem_toList.1 some)).of_mem_walk member
  | function inner => exact (Stmt.Canonical.block inner.body).of_mem_walk member
  | statement _ inner => exact inner.of_mem_walk member

end ProcCheck
