import ProcCheck.Proofs.Grammar.Moved
import ProcCheck.Proofs.Grammar.Source

/-!
# Programs up to their layout

Sources with the same lexemes differ in the places of their tokens only. Their tokens are images of
one list, in which every token stands on a line of its own whose number is the index of the token:
`Token.placeAt` tells where a list of tokens has that line. So what is read from the numbered tokens
is moved to each of the sources.
-/

namespace ProcCheck

/-- The tokens of some lexemes, each at the start of the line with its index. -/
def Lexeme.numbered (ls : List Lexeme) : List Token :=
  ls.mapIdx fun i l => ⟨l.kind, l.spelling, ⟨i, 0⟩⟩

namespace Token

/-! ## Places of numbered lines -/

/-- The place of the token with an index; of the last one if no token has it. -/
def placeAt (tokens : List Token) (i : Int) : Position :=
  ((tokens[min i.toNat (tokens.length - 1)]?).map pos).getD .origin

theorem placeAt_eq {tokens : List Token} {i : Nat} {t : Token} (found : tokens[i]? = some t) :
    placeAt tokens i = t.pos := by
  obtain ⟨bound, -⟩ := List.getElem?_eq_some_iff.1 found
  have index : min (i : Int).toNat (tokens.length - 1) = i := by
    rw [Int.toNat_natCast]
    omega
  rw [placeAt, index, found]
  rfl

/-- Every place is that of a token, and of which one depends on the number of tokens alone. -/
theorem exists_placeAt {tokens : List Token} (nonempty : tokens ≠ []) (i : Int) :
    ∃ t, tokens[min i.toNat (tokens.length - 1)]? = some t ∧ placeAt tokens i = t.pos := by
  have bound : min i.toNat (tokens.length - 1) < tokens.length := by
    have := List.length_pos_iff.2 nonempty
    omega
  refine ⟨tokens[min i.toNat (tokens.length - 1)], List.getElem?_eq_getElem bound, ?_⟩
  rw [placeAt, List.getElem?_eq_getElem bound]
  rfl

/-- Two lines are those of one token, by its index, in two lists of tokens. -/
def SameLine (tokens tokens' : List Token) (line line' : Int) : Prop :=
  ∃ (i : Nat) (t t' : Token), tokens[i]? = some t ∧ tokens'[i]? = some t' ∧
    t.pos.line = line ∧ t'.pos.line = line'

/-- In lists of one length a numbered line is moved to the lines of one token. -/
theorem sameLine_placeAt {tokens tokens' : List Token} (nonempty : tokens ≠ [])
    (same : tokens.length = tokens'.length) (i : Int) :
    SameLine tokens tokens' (placeAt tokens i).line (placeAt tokens' i).line := by
  have nonempty' : tokens' ≠ [] := by
    rintro rfl
    exact nonempty (List.length_eq_zero_iff.1 same)
  obtain ⟨t, found, place⟩ := exists_placeAt nonempty i
  obtain ⟨t', found', place'⟩ := exists_placeAt nonempty' i
  rw [← same] at found'
  exact ⟨_, t, t', found, found', by rw [place], by rw [place']⟩

/-- Tokens are the images of their lexemes, numbered. -/
theorem map_moved_numbered {tokens : List Token} {ls : List Lexeme}
    (same : tokens.map lexeme = ls) :
    (Lexeme.numbered ls).map (moved (placeAt tokens)) = tokens := by
  subst same
  refine List.ext_getElem? fun i => ?_
  cases found : tokens[i]? with
  | none => simpa [Lexeme.numbered] using found
  | some t => simp [Lexeme.numbered, found, moved, Position.moved, placeAt_eq found, lexeme]

end Token

/-! ## Reading -/

/-- Tokens with the same lexemes are refused for the same reason at the token with the same index,
or they spell one program, moved to the places of each. -/
theorem Program.ofTokens_placeAt {body : List Lexeme} {last : Lexeme}
    (inside : ∀ l ∈ body, l.kind ≠ .endOfInput) (ends : last.kind = .endOfInput) :
    (∃ expected, ∃ i : Nat, ∀ tokens, tokens.map Token.lexeme = body ++ [last] →
      ∃ found, tokens[i]? = some found ∧ ofTokens tokens = .error (.unmet expected found)) ∨
    ∃ p : Program, ∀ tokens, tokens.map Token.lexeme = body ++ [last] →
      ofTokens tokens = .ok (p.moved (Token.placeAt tokens)) := by
  let final : Token := ⟨last.kind, last.spelling, ⟨body.length, 0⟩⟩
  have split : Lexeme.numbered (body ++ [last]) = Lexeme.numbered body ++ [final] :=
    List.mapIdx_concat
  have numberedInside : ∀ t ∈ Lexeme.numbered body, t.kind ≠ .endOfInput := by
    intro t member
    obtain ⟨i, bound, rfl⟩ := List.mem_mapIdx.1 member
    exact inside _ (List.getElem_mem bound)
  have finalEnds : final.isEnd := decide_eq_true ends
  obtain ⟨expected, found, member, refused⟩ | ⟨p, read⟩ :=
    ofTokens_moved numberedInside finalEnds
  -- The token that is refused is a numbered one: its image is the token with the same index.
  · rw [← split] at member refused
    obtain ⟨i, index⟩ := List.getElem?_of_mem member
    refine .inl ⟨expected, i, fun tokens same => ⟨found.moved (Token.placeAt tokens), ?_, ?_⟩⟩
    · calc tokens[i]?
        _ = ((Lexeme.numbered (body ++ [last])).map (Token.moved (Token.placeAt tokens)))[i]? := by
          rw [Token.map_moved_numbered same]
        _ = some (found.moved (Token.placeAt tokens)) := by
          rw [List.getElem?_map, index, Option.map_some]
    · rw [← refused, Token.map_moved_numbered same]
  · rw [← split] at read
    refine .inr ⟨p, fun tokens same => ?_⟩
    rw [← read, Token.map_moved_numbered same]

/-- What the tokens of a source spell is spelt by all tokens with the same lexemes, at their own
places. -/
theorem Text.ofTokens_placeAt {source : Text} {tokens : List Token}
    (split : source.tokens = .ok tokens) :
    (∃ expected, ∃ i : Nat, ∀ tokens', tokens'.map Token.lexeme = tokens.map Token.lexeme →
      ∃ found, tokens'[i]? = some found ∧
        Program.ofTokens tokens' = .error (.unmet expected found)) ∨
    ∃ p : Program, ∀ tokens', tokens'.map Token.lexeme = tokens.map Token.lexeme →
      Program.ofTokens tokens' = .ok (p.moved (Token.placeAt tokens')) := by
  obtain ⟨body, rfl, stand⟩ := tokens_stand split
  have inside : ∀ l ∈ body.map Token.lexeme, l.kind ≠ .endOfInput := by
    intro l member
    obtain ⟨t, among, rfl⟩ := List.mem_map.1 member
    exact (stand t among).1
  have spelt := @Program.ofTokens_placeAt _ ⟨.endOfInput, []⟩ inside rfl
  rw [List.map_append]
  exact spelt

end ProcCheck
