import Mathlib.Data.List.TakeWhile
import ProcCheck.Proofs.Grammar.Meeting

/-!
# The first offending token

A syntax error is reported at the first token that does not continue the beginning of a program:
up to there the goals can be met, and at it, or behind it if it is the reserved word, they are stuck
whatever follows.
-/

namespace ProcCheck

open Grammar (Goal)

/-- A list of tokens with an end token behind all others. -/
def Token.Ended (tokens : List Token) : Prop := ∃ last ∈ tokens.getLast?, last.isEnd

/-- Lists of tokens whose first `n` tokens have the same kinds. -/
def Token.SameKinds (n : Nat) (tokens others : List Token) : Prop :=
  (others.take n).map (·.kind) = (tokens.take n).map (·.kind)

theorem Token.SameKinds.mono {m n : Nat} {tokens others : List Token}
    (same : SameKinds m tokens others) (le : n ≤ m) : SameKinds n tokens others := by
  have shorter := congrArg (List.take n) same
  rwa [← List.map_take, ← List.map_take, List.take_take, List.take_take, Nat.min_eq_left le] at shorter

theorem Token.isEnd_of_mem_takeWhile {tokens : List Token} {t : Token}
    (member : t ∈ tokens.takeWhile (!·.isEnd)) : t.isEnd = false := by
  simpa using List.mem_takeWhile_imp member

/-- A list of tokens that ends is split at its first end token. -/
theorem Token.Ended.split {tokens : List Token} (ended : Ended tokens) :
    ∃ last after, tokens = tokens.takeWhile (!·.isEnd) ++ last :: after ∧ last.isEnd := by
  cases behind : tokens.dropWhile (!·.isEnd) with
  | nil =>
    obtain ⟨last, member, isEnd⟩ := ended
    have other := List.dropWhile_eq_nil_iff.1 behind last (List.mem_of_getLast? member)
    simp [isEnd] at other
  | cons last after =>
    have first := List.head?_dropWhile_not (!·.isEnd) tokens
    rw [behind] at first
    refine ⟨last, after, ?_, by simpa using first⟩
    rw [← behind, List.takeWhile_append_dropWhile]

/-- A list of tokens that a program is read from. -/
def Program.Accepts (tokens : List Token) : Prop :=
  Token.Ended tokens ∧ ∃ p, Program.ofTokens tokens = .ok p

namespace Program

variable {tokens others seen : List Token} {later : List Goal}

/-- A program is read from the tokens that the goals at the top level are met by. -/
theorem ofTokens_ok_iff : (∃ p, ofTokens tokens = .ok p) ↔ Goal.stuck [] tokens = none := by
  rw [← Goal.stuck_takeWhile]
  have noEnd : ∀ t ∈ tokens.takeWhile (!·.isEnd), t.isEnd = false :=
    fun t => Token.isEnd_of_mem_takeWhile
  obtain ⟨agrees, ends⟩ := Grammar.declarations_agrees noEnd
  simp only [ofTokens, splitAtEnd]
  cases run : Grammar.declarations (tokens.takeWhile (!·.isEnd)) with
  | error r =>
    rw [run] at agrees
    obtain ⟨-, left, stops, -⟩ := agrees
    simp [stops]
  | ok result =>
    obtain ⟨nodes, rest⟩ := result
    rw [run] at agrees
    obtain rfl := ends nodes rest run
    have met : Goal.stuck [] [] = none := rfl
    simpa [met] using agrees.2

/-- Tokens are stuck in the same place as others of their kinds. -/
theorem not_accepts_of_refuses {next : Token} {tail : List Token}
    (reached : Goal.run [] (seen.map (·.kind)) = some later) (refuses : Goal.Refuses later next.kind)
    (same : Token.SameKinds (seen.length + 1) (seen ++ next :: tail) others) : ¬ Accepts others := by
  rintro ⟨-, accepted⟩
  have front : (seen ++ next :: tail).take (seen.length + 1) = seen ++ [next] := by
    rw [← List.singleton_append, ← List.append_assoc]
    exact List.take_left' (by simp)
  rw [Token.SameKinds, front, List.map_append] at same
  obtain ⟨seen', last, split, sameSeen, sameLast⟩ := List.map_eq_append_iff.1 same
  obtain ⟨next', rfl, sameNext⟩ := List.map_eq_singleton_iff.1 sameLast
  have whole : others = seen' ++ next' :: others.drop (seen.length + 1) := by
    rw [← List.singleton_append, ← List.append_assoc, ← split, List.take_append_drop]
  have nextRefuses : Goal.Refuses later next'.kind := by rwa [sameNext]
  have stops : Goal.stuck [] others = some (next' :: others.drop (seen.length + 1)) :=
    Goal.stuck_eq_some.2 ⟨seen', later, whole, sameSeen ▸ reached, nextRefuses⟩
  rw [ofTokens_ok_iff, stops] at accepted
  cases accepted

/-- Tokens that can stand in their places are the beginning of a program. -/
theorem exists_accepts (reached : Goal.run [] (seen.map (·.kind)) = some later) :
    ∃ more, Accepts (seen ++ more) := by
  obtain ⟨kinds, -, last, further, met⟩ := Goal.exists_finish later
  let blank (kind : TokenKind) : Token := ⟨kind, [], .origin⟩
  refine ⟨kinds.map blank ++ [blank .endOfInput], ⟨blank .endOfInput, by simp, rfl⟩, ?_⟩
  have whole : Goal.run [] ((seen ++ kinds.map blank).map (·.kind)) = some last := by
    have same : (kinds.map blank).map (·.kind) = kinds := by simp [blank, Function.comp_def]
    rw [List.map_append, same, Goal.run_append, reached]
    exact further
  rw [ofTokens_ok_iff, ← List.append_assoc, Goal.stuck_run whole]
  exact Goal.stuck_ended met (by simp [blank, Token.isEnd])

/-- A list of tokens that is refused is refused at the first token that does not continue the
beginning of a program: those in front of it begin a list that is accepted, and no list is accepted
whose tokens are of the same kinds up to it. If it is the reserved word that only a parenthesis can
follow, then none is accepted that has the next kind in common, too. -/
theorem refused_first (ended : Token.Ended tokens) {e : SyntaxError}
    (refused : ofTokens tokens = .error e) :
    ∃ i t expected, tokens[i]? = some t ∧
      Grammar.declarations (tokens.takeWhile (!·.isEnd)) =
        .error ⟨expected, (tokens.takeWhile (!·.isEnd)).drop i⟩ ∧
      e = ⟨.unmet expected t, ⟨t.pos.line, t.pos.col, some (max 1 t.spelling.length)⟩⟩ ∧
      (∃ more, Accepts (tokens.take i ++ more)) ∧
      ∀ others, Token.SameKinds (if t.kind = .mainWord then i + 2 else i + 1) tokens others →
        ¬ Accepts others := by
  obtain ⟨last, after, whole, isEnd⟩ := ended.split
  have noEnd : ∀ t ∈ tokens.takeWhile (!·.isEnd), t.isEnd = false :=
    fun t => Token.isEnd_of_mem_takeWhile
  obtain ⟨agrees, -⟩ := Grammar.declarations_agrees noEnd
  simp only [ofTokens, splitAtEnd] at refused
  generalize tokens.takeWhile (!·.isEnd) = body at *
  subst whole
  have atEnd : (body ++ last :: after)[body.length]? = some last := by simp
  rw [atEnd] at refused
  cases run : Grammar.declarations body with
  | ok result =>
    rw [run] at refused
    cases refused
  | error r =>
    rw [run] at refused agrees
    obtain ⟨⟨used, rfl⟩, left, stops, about⟩ := agrees
    obtain ⟨seen, later, split, reached, refuses⟩ := Goal.stuck_eq_some.1 stops
    have next : Goal.nextKind left = (left.headD last).kind := by
      cases left with
      | nil => exact (of_decide_eq_true isEnd).symm
      | cons => rfl
    rw [next] at refuses
    have heads (ts : List Token) :
        ts ++ last :: after = ts.headD last :: (ts ++ last :: after).tail := by
      cases ts <;> rfl
    -- the goals have met all tokens in front of the refused one, and perhaps the reserved word
    have front : (∃ mid, Goal.run [] (used.map (·.kind)) = some mid) ∧ seen.length + 1 ≤
        if (r.rest.headD last).kind = .mainWord then used.length + 2 else used.length + 1 := by
      rcases about with rfl | ⟨t, rest, isMain⟩
      · obtain rfl := List.append_cancel_right split
        exact ⟨⟨later, reached⟩, by split <;> omega⟩
      · rw [rest, List.append_cons] at split
        obtain rfl := List.append_cancel_right split
        rw [List.map_append, Goal.run_append] at reached
        obtain ⟨mid, reachedUsed, -⟩ := Option.bind_eq_some_iff.1 reached
        exact ⟨⟨mid, reachedUsed⟩, by simp [rest, isMain]⟩
    obtain ⟨⟨mid, reachedUsed⟩, count⟩ := front
    refine ⟨used.length, r.rest.headD last, r.expected, ?_, ?_, ?_, ?_, fun others same => ?_⟩
    · rw [List.append_assoc, heads]
      simp
    · simp
    · exact (Except.error.inj refused).symm
    · have taken : (used ++ r.rest ++ last :: after).take used.length = used := by
        rw [List.append_assoc]
        exact List.take_left' rfl
      rw [taken]
      exact exists_accepts reachedUsed
    · have whole : used ++ r.rest ++ last :: after =
          seen ++ left.headD last :: (left ++ last :: after).tail := by
        rw [split, List.append_assoc, ← heads]
      rw [whole] at same
      exact not_accepts_of_refuses reached refuses (same.mono count)

/-- The tokens of `int x);`. -/
def misplaced : List Token :=
  [⟨.typeWord .int, "int", ⟨1, 1⟩⟩, ⟨.identifier, "x", ⟨1, 5⟩⟩, ⟨.closeParen, ")", ⟨1, 6⟩⟩,
    ⟨.semicolon, ";", ⟨1, 7⟩⟩, ⟨.endOfInput, [], ⟨1, 8⟩⟩]

/-- The error of `Program.misplaced`: a parenthesis stands where the declaration has to end. -/
def misplacedError : SyntaxError := .unmet .declarationEnd ⟨.closeParen, ")", ⟨1, 6⟩⟩

theorem misplaced_refused : Token.Ended misplaced ∧ ofTokens misplaced = .error misplacedError ∧
    ∃ i t expected, misplaced[i]? = some t ∧
      Grammar.declarations (misplaced.takeWhile (!·.isEnd)) =
        .error ⟨expected, (misplaced.takeWhile (!·.isEnd)).drop i⟩ ∧
      misplacedError =
        ⟨.unmet expected t, ⟨t.pos.line, t.pos.col, some (max 1 t.spelling.length)⟩⟩ ∧
      (∃ more, Accepts (misplaced.take i ++ more)) ∧
      ∀ others, Token.SameKinds (if t.kind = .mainWord then i + 2 else i + 1) misplaced others →
        ¬ Accepts others := by
  have ended : Token.Ended misplaced := ⟨⟨.endOfInput, [], ⟨1, 8⟩⟩, rfl, rfl⟩
  have refused : ofTokens misplaced = .error misplacedError := rfl
  exact ⟨ended, refused, refused_first ended refused⟩

end Program

end ProcCheck
