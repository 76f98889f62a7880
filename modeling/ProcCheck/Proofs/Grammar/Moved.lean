import ProcCheck.Proofs.Grammar.Completeness
import ProcCheck.Proofs.Grammar.Recast
import ProcCheck.Proofs.Tree.Moved

/-!
# Reading tokens that are moved

No reader looks at places: tokens that are moved along with their lines are respelt tokens that fit
the recasting `Recast.moved`. So on them a reader does what it does on the tokens, and what it
returns, or leaves to be read, is moved along with them.
-/

namespace ProcCheck

namespace Grammar

variable {lines : Int → Position}

/-- The tokens of a list, moved along with their lines. -/
def Respelling.moved (lines : Int → Position) (ts : List Token) : Respelling where
  token := Token.moved lines
  known := (· ∈ ts)
  kind _ := rfl

theorem argsExcerpt_moved (more : List (Token × Expr)) (src : Excerpt) :
    argsExcerpt (src.moved lines)
        (more.map (Prod.map (Token.moved lines) (Expr.recast (.moved lines)))) =
      (argsExcerpt src more).moved lines := by
  induction more generalizing src with
  | nil => rfl
  | cons next more ih => simpa [Recast.moved] using ih (src ++ next.1.excerpt ++ next.2.src)

/-- Moved tokens fit the moving of trees. -/
theorem Respelling.fits_moved (ts : List Token) : (Recast.moved lines).Fits (.moved lines ts) where
  spelling _ _ := rfl
  name _ _ := rfl
  start t := congrArg Span.start t.span_moved
  stop _ _ := congrArg Span.stop (Token.span_moved _)
  behind _ _ := congrArg Span.stop (Token.span_moved _)
  exprStart _ := rfl
  leaf := by
    intro t e _ isLeaf
    rw [Respelling.moved, Token.excerpt_moved]
    simp only [leaf?] at isLeaf
    split at isLeaf <;> cases isLeaf <;> rfl
  callEmpty _ _ _ _ := by
    simp only [Respelling.moved, Token.excerpt_moved]
    rfl
  callArgs := by
    intro callee opening closing first more _ _ _ _ _
    have args := @argsExcerpt_moved lines more (callee.excerpt ++ opening.excerpt ++ first.src)
    simp only [Respelling.moved, Token.excerpt_moved, Follows.tail]
    exact congrArg (· ++ closing.excerpt.moved lines) args.symm
  assign _ _ _ := by
    simp only [Respelling.moved, Token.excerpt_moved]
    rfl
  attach _ _ := by
    simp only [Respelling.moved, Token.excerpt_moved, Recast.moved, Expr.attach_src]
    rfl
  prefixed _ _ := by
    simp only [Respelling.moved, Token.excerpt_moved]
    rfl
  group _ _ _ := by
    simp only [Respelling.moved, Token.excerpt_moved]
    rfl

theorem declarations_moved (ts : List Token) :
    Follows (.moved lines ts) (List.map (TopLevel.moved lines)) declarations declarations := by
  have follows := declarations_follow (@Respelling.fits_moved lines ts)
  rwa [funext TopLevel.recast_moved] at follows

end Grammar

/-! ## Programs -/

/-- Moved tokens are refused for the same reason at the image of the same token, or spell the image
of the same program. -/
theorem Program.ofTokens_moved {body : List Token} {last : Token}
    (inside : ∀ t ∈ body, t.kind ≠ .endOfInput) (ends : last.isEnd) :
    (∃ expected, ∃ found ∈ body ++ [last], ∀ lines,
      ofTokens ((body ++ [last]).map (Token.moved lines)) =
        .error (.unmet expected (found.moved lines))) ∨
    ∃ p : Program, ∀ lines,
      ofTokens ((body ++ [last]).map (Token.moved lines)) = .ok (p.moved lines) := by
  have split (lines : Int → Position) : splitAtEnd ((body ++ [last]).map (Token.moved lines)) =
      (body.map (Token.moved lines), last.moved lines) := by
    rw [List.map_append, List.map_singleton]
    exact splitAtEnd_append (by simpa using inside) ends
  have headD (lines : Int → Position) (ts : List Token) :
      (ts.map (Token.moved lines)).headD (last.moved lines) = (ts.headD last).moved lines := by
    cases ts <;> rfl
  cases run : Grammar.declarations body with
  | error refusal =>
    have refused (lines : Int → Position) :=
      (@Grammar.declarations_moved lines body).run_refused (fun _ => id) run
    have found : refusal.rest.headD last ∈ body ++ [last] := by
      have among := (refused fun _ => .origin).1
      cases rest : refusal.rest with
      | nil => simp
      | cons t more => exact List.mem_append_left _ (among t (rest ▸ List.mem_cons_self))
    refine .inl ⟨refusal.expected, refusal.rest.headD last, found, fun lines => ?_⟩
    have again : Grammar.declarations (body.map (Token.moved lines)) =
        .error ⟨refusal.expected, refusal.rest.map (Token.moved lines)⟩ := (refused lines).2
    simp only [ofTokens, split, again, headD]
  | ok answer =>
    refine .inr ⟨⟨answer.1, (body.headD last).span ++ (body.getLast?.getD last).span⟩,
      fun lines => ?_⟩
    have again : Grammar.declarations (body.map (Token.moved lines)) =
        .ok (answer.1.map (TopLevel.moved lines), answer.2.map (Token.moved lines)) :=
      (@Grammar.declarations_moved lines body).run_ok (fun _ => id) run
    have final : (body.map (Token.moved lines)).getLast?.getD (last.moved lines) =
        (body.getLast?.getD last).moved lines := by
      rw [List.getLast?_map, Option.getD_map]
    simp only [ofTokens, split, again, headD, final, Token.span_moved]
    rfl

end ProcCheck
