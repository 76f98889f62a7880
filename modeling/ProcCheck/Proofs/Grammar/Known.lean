import ProcCheck.Proofs.Grammar.Walk
import ProcCheck.Proofs.Tree.Known

/-!
# Canonical trees are known

The grammar has words for the types and for nothing else, and it builds no node of unknown kind.
So a scan of a canonical tree is never cut short.
-/

namespace ProcCheck

/-- A word that the grammar takes for a type spells one. -/
theorem ValueType.spells_of_spellsType {word : Text} (type : TokenKind.spellsType word) :
    ValueType.spells word := by
  have entries : ∀ entry ∈ TokenKind.keywords, entry.2.isType → ValueType.spells entry.1 := by
    decide
  rw [TokenKind.spellsType, TokenKind.ofWord] at type
  cases reserved : TokenKind.keywords.lookup word with
  | none =>
    rw [reserved] at type
    cases type
  | some kind =>
    rw [reserved] at type
    obtain ⟨before, after, split, -⟩ := List.lookup_eq_some_iff.1 reserved
    exact entries (word, kind) (by simp [split]) type

theorem Expr.Canonical.isKnown {e : Expr} (canonical : e.Canonical) : e.isKnown := by
  refine List.all_eq_true.2 fun part member => ?_
  cases canonical.of_mem_walk member <;> rfl

theorem Expr.all_isKnown {e : Option Expr} (each : ∀ x ∈ e, x.Canonical) : e.all Expr.isKnown := by
  cases e with
  | none => rfl
  | some x => exact (each x rfl).isKnown

theorem VarDecl.Canonical.isKnown {decl : VarDecl} (canonical : decl.Canonical) : decl.isKnown := by
  simp [VarDecl.isKnown, ValueType.spells_of_spellsType canonical.type,
    Expr.all_isKnown canonical.init]

theorem Stmt.Canonical.isKnown {s : Stmt} (canonical : s.Canonical) : s.isKnown := by
  induction canonical with
  | var inner => exact inner.isKnown
  | block _ ih => simpa [Stmt.isKnown] using ih
  | branch test _ _ ihThen ihElse =>
    simp only [Stmt.isKnown, Bool.and_eq_true, Stmt.blockIsKnown_iff, Stmt.elseIsKnown_iff]
    exact ⟨⟨test.isKnown, ihThen⟩, ihElse⟩
  | whileLoop test _ ih =>
    simp only [Stmt.isKnown, Bool.and_eq_true, Stmt.blockIsKnown_iff]
    exact ⟨test.isKnown, ih⟩
  | forLoop _ _ test last _ ihFirst ih =>
    simp only [Stmt.isKnown, Bool.and_eq_true, Stmt.blockIsKnown_iff, Stmt.initIsKnown_iff]
    exact ⟨⟨⟨ihFirst, Expr.all_isKnown test⟩, Expr.all_isKnown last⟩, ih⟩
  | expr inner => exact inner.isKnown
  | ret each => exact Expr.all_isKnown each

theorem FunctionDecl.Canonical.isKnown {decl : FunctionDecl} (canonical : decl.Canonical) :
    decl.isKnown := by
  have params : ∀ param ∈ decl.params, ValueType.spells param.type := by
    cases list : decl.params? with
    | none => simp [FunctionDecl.params, list]
    | some params =>
      rw [FunctionDecl.params, list]
      exact fun param member =>
        ValueType.spells_of_spellsType ((canonical.params params list).2 param member).type
  simp only [FunctionDecl.isKnown, Bool.and_eq_true, List.all_eq_true]
  exact ⟨⟨ValueType.spells_of_spellsType canonical.returnType, params⟩,
    (Stmt.Canonical.block canonical.body).isKnown⟩

/-- A canonical program is known. -/
theorem Program.Canonical.isKnown {p : Program} (canonical : p.Canonical) : p.isKnown := by
  refine List.all_eq_true.2 fun node member => ?_
  cases canonical node member with
  | global inner => exact inner.isKnown
  | function inner => exact inner.isKnown
  | statement _ inner => exact inner.isKnown

end ProcCheck
