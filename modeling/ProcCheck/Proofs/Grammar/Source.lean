import ProcCheck.Proofs.Grammar.Soundness
import ProcCheck.Proofs.Token.Layout

/-!
# Programs of sources

What the lexer guarantees of tokens is what the grammar asks of them, so every program that is
read from a source is canonical.
-/

namespace ProcCheck

namespace Text

variable {source : Text} {tokens : List Token}

/-- A source splits into tokens that stand in it and an end token behind it. -/
theorem tokens_stand (split : source.tokens = .ok tokens) : ∃ body,
    tokens = body ++ [⟨.endOfInput, [], .behind source⟩] ∧
      ∀ t ∈ body, t.kind ≠ .endOfInput ∧ t.isSpelt ∧
        ∃ before after, source = before ++ after ∧ t.pos = .behind before := by
  have start : Position.origin = .behind [] := rfl
  rw [Text.tokens, start] at split
  obtain ⟨ps, rear, laid, whole, rfl⟩ := tokensFrom_laid split
  refine ⟨ps.map (·.token), rfl, fun t member => ?_⟩
  obtain ⟨p, among, rfl⟩ := List.mem_map.1 member
  obtain ⟨front, back, rfl⟩ := List.append_of_mem among
  have stands := laid.stands
  refine ⟨stands.kind, stands.spelt, _, p.token.spelling ++ Placed.layout back ++ rear, ?_,
    stands.pos⟩
  simp [whole, Placed.layout, Placed.text]

theorem tokens_ne_nil (split : source.tokens = .ok tokens) : tokens ≠ [] := by
  obtain ⟨body, rfl, -⟩ := tokens_stand split
  simp

/-- The tokens of a source are spelt in the classes of their kinds. -/
theorem tokens_allSpelt (split : source.tokens = .ok tokens) : Grammar.AllSpelt tokens := by
  obtain ⟨body, rfl, stand⟩ := tokens_stand split
  simp only [Grammar.allSpelt_append, Grammar.allSpelt_cons, Grammar.allSpelt_nil, and_true]
  exact ⟨fun t member => (stand t member).2.1, rfl⟩

/-- Where a source splits into tokens, it spells what they spell. -/
theorem program_eq_ofTokens (split : source.tokens = .ok tokens) :
    source.program = Program.ofTokens tokens := by
  rw [program, split]
  rfl

/-- A program that is read from a source is read from its tokens. -/
theorem program_eq_ok {p : Program} : source.program = .ok p ↔
    ∃ tokens, source.tokens = .ok tokens ∧ Program.ofTokens tokens = .ok p := by
  rw [program]
  cases source.tokens <;> simp [Except.bind]

/-- A program that is read from a source is canonical. -/
theorem canonical_of_program {p : Program} (read : source.program = .ok p) :
    p.Canonical := by
  obtain ⟨tokens, split, read⟩ := program_eq_ok.1 read
  obtain ⟨bodySpelt, rest, run⟩ := Program.ofTokens_declarations (tokens_allSpelt split) read
  exact (Grammar.declarations_reads bodySpelt run).2.1

end Text

end ProcCheck
