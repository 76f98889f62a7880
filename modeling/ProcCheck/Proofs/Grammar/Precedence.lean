import ProcCheck.Proofs.Grammar.Canonical
import ProcCheck.Proofs.Tree.Place

/-!
# Attaching operators

`Expr.attach` hangs an operator and its right operand into the tree of what stands before it.
It keeps the order of lexemes and the shape that precedence asks for, so a tree that is built
from operands and operators in turn is canonical. The converse is `Expr.rebuilt_chain`: every
canonical tree comes out again if the operators of its chain are attached one after the other.
-/

namespace ProcCheck

namespace Lexeme

@[simp] theorem joined_nil : joined [] = [] := rfl

@[simp] theorem joined_cons (l : Lexeme) (ls : List Lexeme) :
    joined (l :: ls) = l.spelling ++ joined ls := by
  simp [joined]

@[simp] theorem joined_append (ls ls' : List Lexeme) :
    joined (ls ++ ls') = joined ls ++ joined ls' := by
  simp [joined]

end Lexeme

theorem BinaryOp.level_le (op : BinaryOp) : op.level ≤ 5 := by
  cases op <;> decide

namespace Expr

/-- A chain holds together less tightly than any operand. -/
theorem rank_binary_lt {src : Excerpt} {op : BinaryOp} {left right : Expr} :
    (binary src op left right).rank < 7 := by
  have := op.level_le
  simp only [rank]
  omega

/-- The text of a canonical expression is that of its lexemes. -/
theorem Canonical.text_eq {e : Expr} (canonical : e.Canonical) :
    e.src.text = Lexeme.joined e.lexemes := by
  cases canonical with
  | intLiteral | floatLiteral | stringLiteral | identifier => simp [src, lexemes]
  | call _ _ text | assign _ _ text | binary _ _ _ _ text | prefixed _ _ text | group _ text =>
    exact text

/-! ## One operator -/

section Attach

variable {left right : Expr} {op : BinaryOp} {sign : Excerpt}

@[simp] theorem attach_src : (left.attach op sign right).src = left.src ++ sign ++ right.src := by
  cases left with
  | binary =>
    simp only [attach]
    split <;> rfl
  | _ => rfl

@[simp] theorem attach_lexemes : (left.attach op sign right).lexemes =
    left.lexemes ++ .fixed (.operator op) :: right.lexemes := by
  induction left using attach.induct op with
  | case1 src outer l r below ih => simp [attach, below, lexemes, ih]
  | case2 src outer l r above => simp [attach, above, lexemes]
  | case3 left other => simp [attach, lexemes]

/-- To a tree that holds together at least as tightly as an operator does, the operator is
attached at the top. -/
theorem attach_of_le_rank (le : op.level + 1 ≤ left.rank) :
    left.attach op sign right = .binary (left.src ++ sign ++ right.src) op left right := by
  cases left with
  | binary src outer l r =>
    have above : ¬ outer.level < op.level := by
      simp only [rank] at le
      omega
    simp only [attach, above, if_false]
    rfl
  | _ => rfl

/-- What is attached to holds together as tightly as before, or as the operator does. -/
theorem le_rank_attach : min left.rank (op.level + 1) ≤ (left.attach op sign right).rank := by
  by_cases le : op.level + 1 ≤ left.rank
  · rw [attach_of_le_rank le]
    exact Nat.min_le_right _ _
  · cases left with
    | binary src outer l r =>
      simp only [attach]
      split
      · exact Nat.min_le_left _ _
      · exact Nat.min_le_right _ _
    | _ => exact Nat.min_le_right _ _

/-- Attaching an operand keeps the shape that precedence asks for. -/
theorem attach_canonical (leftCanonical : left.Canonical) (leftRank : 1 ≤ left.rank)
    (rightCanonical : right.Canonical) (rightRank : 7 ≤ right.rank)
    (text : sign.text = (TokenKind.operator op).spelling) :
    (left.attach op sign right).Canonical := by
  have bound := op.level_le
  by_cases le : op.level + 1 ≤ left.rank
  · rw [attach_of_le_rank le]
    refine .binary leftCanonical rightCanonical le (by omega) ?_
    simp [lexemes, text, leftCanonical.text_eq, rightCanonical.text_eq, Lexeme.fixed]
  · -- Only a binary tree holds together less tightly than some operator.
    induction leftCanonical with
    | @binary src outer l r lCanonical rCanonical lRank rRank srcText _ ih =>
      have below : outer.level < op.level := by
        simp only [rank] at le
        omega
      have inner : (r.attach op sign right).Canonical := by
        by_cases tight : op.level + 1 ≤ r.rank
        · rw [attach_of_le_rank tight]
          refine .binary rCanonical rightCanonical tight (by omega) ?_
          simp [lexemes, text, rCanonical.text_eq, rightCanonical.text_eq, Lexeme.fixed]
        · exact ih (by omega) tight
      have innerRank : min r.rank (op.level + 1) ≤ (r.attach op sign right).rank := le_rank_attach
      simp only [attach, below, if_true]
      refine .binary lCanonical inner lRank (by omega) ?_
      simp [lexemes, text, srcText, rightCanonical.text_eq, Lexeme.fixed]
    | assign => simp [rank] at leftRank
    | _ =>
      simp only [rank] at le
      omega

@[simp] theorem rank_unplaced (e : Expr) : e.unplaced.rank = e.rank := by
  cases e <;> rfl

theorem attach_unplaced : (left.attach op sign right).unplaced =
    left.unplaced.attach op sign.unplaced right.unplaced := by
  induction left using attach.induct op with
  | case1 src outer l r below ih => simp [attach, below, unplaced, ih]
  | case2 src outer l r above => simp [attach, above, unplaced]
  | case3 left other =>
    cases left with
    | binary src outer l r => exact absurd rfl (other src outer l r)
    | _ =>
      simp only [attach, unplaced, Excerpt.unplaced_append, unplaced_src]
      rfl

/-- An operator that binds tighter than the one before it goes into the right operand of that. -/
theorem attach_attach {tighter : BinaryOp} {sign' : Excerpt} {last : Expr}
    (lt : op.level < tighter.level) :
    (left.attach op sign right).attach tighter sign' last =
      left.attach op sign (right.attach tighter sign' last) := by
  induction left using attach.induct op with
  | case1 src outer l r below ih =>
    have further : outer.level < tighter.level := by omega
    simp [attach, below, further, ih, Excerpt.append_assoc]
  | case2 src outer l r above => simp [attach, above, lt, Excerpt.append_assoc]
  | case3 left other => simp [attach, lt, Excerpt.append_assoc]

end Attach

/-! ## Chains -/

/-- The operand that a chain starts with. -/
def firstOperand : Expr → Expr
  | binary _ _ left _ => left.firstOperand
  | e => e

/-- The operators of a chain, each with the operand behind it. -/
def chain : Expr → List (BinaryOp × Expr)
  | binary _ op left right => left.chain ++ (op, right.firstOperand) :: right.chain
  | _ => []

/-- The lexemes of operators with their operands. -/
def chainLexemes (links : List (BinaryOp × Expr)) : List Lexeme :=
  links.flatMap fun link => .fixed (.operator link.1) :: link.2.lexemes

/-- The tree without places to whose `left` part operators are attached one after the other. -/
def rebuilt (left : Expr) (links : List (BinaryOp × Expr)) : Expr :=
  links.foldl (fun tree link =>
    tree.attach link.1 ⟨(TokenKind.operator link.1).spelling, default⟩ link.2.unplaced) left

theorem lexemes_chain (e : Expr) :
    e.lexemes = e.firstOperand.lexemes ++ chainLexemes e.chain := by
  induction e using treeInduction with
  | binary src op left right ihLeft ihRight =>
    rw [lexemes, ihLeft, ihRight]
    simp [firstOperand, chain, chainLexemes]
  | _ => simp [firstOperand, chain, chainLexemes]

/-- An operand is a chain of its own. -/
theorem firstOperand_of_le_rank {e : Expr} (operand : 7 ≤ e.rank) : e.firstOperand = e := by
  cases e with
  | binary => exact absurd operand (Nat.not_le.2 rank_binary_lt)
  | _ => rfl

/-- The operand that a chain starts with is no chain and no assignment. -/
theorem Canonical.firstOperand {e : Expr} (canonical : e.Canonical) (chained : 1 ≤ e.rank) :
    e.firstOperand.Canonical ∧ 7 ≤ e.firstOperand.rank := by
  by_cases operand : 7 ≤ e.rank
  · rw [firstOperand_of_le_rank operand]
    exact ⟨canonical, operand⟩
  · cases canonical with
    | binary leftCanonical _ leftRank _ _ => exact leftCanonical.firstOperand (by omega)
    | assign => simp [rank] at chained
    | _ => simp [rank] at operand

/-- The other operands of a chain are none either, and no operator binds less tightly than the
chain as a whole. -/
theorem Canonical.chain {e : Expr} (canonical : e.Canonical) : ∀ link ∈ e.chain,
    link.2.Canonical ∧ 7 ≤ link.2.rank ∧ e.rank ≤ link.1.level + 1 := by
  induction canonical with
  | binary leftCanonical rightCanonical leftRank rightRank _ ihLeft ihRight =>
    intro link member
    simp only [Expr.chain, List.mem_append, List.mem_cons] at member
    simp only [rank]
    obtain member | rfl | member := member
    · obtain ⟨inner, le, bound⟩ := ihLeft link member
      exact ⟨inner, le, by omega⟩
    · obtain ⟨inner, le⟩ := rightCanonical.firstOperand (by omega)
      exact ⟨inner, le, Nat.le_refl _⟩
    · obtain ⟨inner, le, bound⟩ := ihRight link member
      exact ⟨inner, le, by omega⟩
  | _ => simp [Expr.chain]

/-- Operators that all bind tighter than one before them go into its right operand. -/
theorem rebuilt_attach {left right : Expr} {op : BinaryOp} {sign : Excerpt}
    {links : List (BinaryOp × Expr)} (tighter : ∀ link ∈ links, op.level < link.1.level) :
    (left.attach op sign right).rebuilt links = left.attach op sign (right.rebuilt links) := by
  induction links generalizing right with
  | nil => rfl
  | cons link more ih =>
    obtain ⟨first, others⟩ := List.forall_mem_cons.1 tighter
    simp only [rebuilt, List.foldl_cons, attach_attach first]
    exact ih others

/-- A canonical tree comes out again, without its places, if the operators of its chain are
attached to its first operand one after the other. -/
theorem rebuilt_chain {e : Expr} (canonical : e.Canonical) :
    e.firstOperand.unplaced.rebuilt e.chain = e.unplaced := by
  induction canonical with
  | @binary src op left right leftCanonical rightCanonical leftRank rightRank text ihLeft ihRight =>
    have tighter : ∀ link ∈ right.chain, op.level < link.1.level := by
      intro link member
      have := (rightCanonical.chain link member).2.2
      omega
    have split : (Expr.binary src op left right).firstOperand.unplaced.rebuilt
        (Expr.binary src op left right).chain =
          (left.unplaced.attach op ⟨(TokenKind.operator op).spelling, default⟩
            right.firstOperand.unplaced).rebuilt right.chain := by
      rw [← ihLeft]
      simp [Expr.firstOperand, Expr.chain, rebuilt]
    have top : op.level + 1 ≤ left.unplaced.rank := by simpa using leftRank
    rw [split, rebuilt_attach tighter, ihRight, attach_of_le_rank top, unplaced]
    congr 1
    change Excerpt.mk _ _ = Excerpt.mk _ _
    simp [text, lexemes, leftCanonical.text_eq, rightCanonical.text_eq, Lexeme.fixed]
    rfl
  | _ => rfl

end Expr

end ProcCheck
