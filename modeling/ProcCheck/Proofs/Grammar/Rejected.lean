import ProcCheck.Proofs.Analysis.Initial
import ProcCheck.Proofs.Grammar.Numbered
import ProcCheck.Proofs.Token.Reached

/-!
# What a fault rejects

A fault of the split is about the text that is reached where nothing can be taken off any more; an
unmet expectation is about a token. `Fault.Rejects` says which text of the source that is, and where it
stands.
-/

namespace ProcCheck

/-! ## Tokens in their lines -/

/-- No spelling of a token goes over the end of a line. -/
theorem TokenKind.lineFeed_not_mem_of_spells {kind : TokenKind} {t : Text}
    (spells : kind.spells t) : CodeUnit.lineFeed ∉ t := by
  by_cases string : kind = .stringLiteral
  · subst string
    obtain ⟨body, rfl, -, inside⟩ := Text.isQuoted_cases spells
    have quote : CodeUnit.lineFeed ≠ .quote := by decide
    simp [quote, inside]
  · exact not_mem_of_spells (by decide) (by decide) (by decide) string spells

/-- Each token of a source stands in it where its place says. The end token stands behind it. -/
theorem Text.tokens_inside {source : Text} {tokens : List Token}
    (split : source.tokens = .ok tokens) {t : Token} (member : t ∈ tokens) :
    ∃ before after, source = before ++ t.spelling ++ after ∧ t.pos = .behind before ∧
      CodeUnit.lineFeed ∉ t.spelling ∧ (t.spelling = [] → before = source) := by
  obtain ⟨ps, rear, whole, -, rfl, stands⟩ := tokens_laid split
  rcases List.mem_append.1 member with inside | last
  · obtain ⟨p, among, rfl⟩ := List.mem_map.1 inside
    obtain ⟨front, back, rfl⟩ := List.append_of_mem among
    obtain ⟨-, noEnd, spelt, pos, -⟩ := stands front p back rfl
    refine ⟨Placed.layout front ++ p.gap, Placed.layout back ++ rear, ?_, pos,
      TokenKind.lineFeed_not_mem_of_spells spelt, fun empty => ?_⟩
    · simp [whole, Placed.layout, Placed.text]
    · obtain ⟨u, rest, some⟩ := TokenKind.spells_nonempty noEnd spelt
      rw [empty] at some
      cases some
  · obtain rfl := List.mem_singleton.1 last
    exact ⟨source, [], by simp, rfl, by simp, fun _ => rfl⟩

/-! ## Rejected texts -/

/-- The text of a source that a fault rejects, with what stands before and after it: a unit that
starts no piece, an unclosed string up to the end of its line, the opening of an unclosed comment, or
a token that does not meet an expectation. -/
inductive Fault.Rejects (source : Text) : Fault → Text → Text → Text → Prop
  | unexpectedUnit {before after : Text} {u : CodeUnit} (reached : source.Reaches before (u :: after))
      (refused : Piece.atHead u after = .error (.unexpectedUnit u)) :
      Rejects source (.unexpectedUnit u) before [u] after
  | unterminatedString {before body after : Text}
      (reached : source.Reaches before (.quote :: (body ++ after)))
      (refused : Piece.atHead .quote (body ++ after) = .error .unterminatedString)
      (open_ : CodeUnit.quote ∉ body ∧ CodeUnit.lineFeed ∉ body)
      (ends : ∀ u ∈ after.head?, u = .lineFeed) :
      Rejects source .unterminatedString before (.quote :: body) after
  | unterminatedComment {before after : Text}
      (reached : source.Reaches before ('/' :: '*' :: after))
      (refused : Piece.atHead '/' ('*' :: after) = .error .unterminatedComment)
      (open_ : Piece.commentEnd? after = none) :
      Rejects source .unterminatedComment before ['/', '*'] after
  | unmet {expected : Expectation} {found : Token} {tokens : List Token} {before after : Text}
      (split : source.tokens = .ok tokens)
      (refused : Program.ofTokens tokens = .error (.unmet expected found))
      (member : found ∈ tokens) (place : found.pos = .behind before)
      (whole : source = before ++ found.spelling ++ after) :
      Rejects source (.unmet expected found) before found.spelling after

/-- A source that is refused has a text that is rejected: on one line, at the place of the error, and
as long as the error says. Only the end of the source is no text; it is marked by one column. -/
theorem Text.program_rejects {source : Text} {e : SyntaxError}
    (refused : source.program = .error e) :
    ∃ before lexeme after, e.fault.Rejects source before lexeme after ∧
      source = before ++ lexeme ++ after ∧ CodeUnit.lineFeed ∉ lexeme ∧
      ⟨e.location.line, e.location.col⟩ = Position.behind before ∧
      (lexeme ≠ [] ∧ e.location.len.getD 1 = lexeme.length ∨
        lexeme = [] ∧ before = source ∧ e.location.len = some 1) := by
  cases split : source.tokens with
  | error fault =>
    have same : fault = e := by
      rw [program, split] at refused
      exact Except.error.inj refused
    subst same
    obtain ⟨before, found, u, rest, fault, splits, stuck, rfl⟩ := splits_of_refused split
    have reached := splits.reaches
    have whole := reached.whole
    rcases Piece.atHead_refused stuck with ⟨rfl, noFeed⟩ |
      ⟨rfl, rfl, body, after, rfl, inside, ends⟩ | ⟨rfl, rfl, after, rfl, unclosed⟩
    · refine ⟨before, [u], rest, .unexpectedUnit reached stuck, by simp [whole], ?_, rfl,
        .inl ⟨by simp, rfl⟩⟩
      simpa using noFeed.symm
    · refine ⟨before, .quote :: body, after, .unterminatedString reached stuck inside ends,
        by simp [whole], ?_, rfl, .inl ⟨by simp, ?_⟩⟩
      · exact List.not_mem_cons_of_ne_of_not_mem (by decide) inside.2
      · have length : (Fault.locate (.behind before) (body ++ after) .unterminatedString).location.len =
            some (((body ++ after).takeWhile (· ≠ .lineFeed)).length + 1) := rfl
        rw [length, takeWhile_line inside.2 ends]
        rfl
    · exact ⟨before, ['/', '*'], after, .unterminatedComment reached stuck unclosed, by simp [whole],
        by decide, rfl, .inl ⟨by simp, rfl⟩⟩
  | ok tokens =>
    rw [program_eq_ofTokens split] at refused
    rcases ofTokens_placeAt split with ⟨expected, i, unmet⟩ | ⟨p, read⟩
    · obtain ⟨found, index, error⟩ := unmet tokens rfl
      have member := List.mem_of_getElem? index
      obtain rfl := Except.error.inj (refused.symm.trans error)
      obtain ⟨before, after, whole, place, noFeed, atEnd⟩ := tokens_inside split member
      refine ⟨before, found.spelling, after, .unmet split error member place whole, whole, noFeed,
        place, ?_⟩
      have length : (SyntaxError.unmet expected found).location.len =
          some (max 1 (found.spelling.length : Int)) := rfl
      rw [length]
      by_cases empty : found.spelling = []
      · exact .inr ⟨empty, atEnd empty, by rw [empty]; rfl⟩
      · have positive := List.length_pos_iff.2 empty
        refine .inl ⟨empty, ?_⟩
        rw [Option.getD_some]
        omega
    · rw [read tokens rfl] at refused
      cases refused

end ProcCheck
