import ProcCheck.Proofs.Analysis.Diagnostics
import ProcCheck.Proofs.Analysis.Moved
import ProcCheck.Proofs.Grammar.Known
import ProcCheck.Proofs.Grammar.Numbered

/-!
# Analysing sources

A source that is not refused is analysed to the end: its program is canonical, hence known, and a
scan of known nodes is not cut short. What the scan records are the lines of numbered tokens, moved
to the tokens of the source, so every diagnostic stands in a line of the source.
-/

namespace ProcCheck

/-! ## Scans of known programs -/

/-- A scan of a program of known nodes comes to an end. -/
theorem Program.symbols_returns {p : Program} (known : p.isKnown) (entry : Text) :
    ∃ symbols, p.symbols entry = .ok symbols := by
  obtain ⟨s, run, -⟩ := scanned known entry
  exact ⟨_, symbols_eq_ok.2 ⟨s, run, rfl⟩⟩

/-! ## Lines of a source -/

namespace Text

/-- A text has one line more than it has line feeds. -/
theorem length_lines (t : Text) : t.lines.length = 1 + t.count .lineFeed := by
  rw [lines]
  induction t with
  | nil => rfl
  | cons u rest ih =>
    rw [List.splitOn_cons_eq_if_modifyHead, List.count_cons]
    split
    · rw [List.length_cons, ih]
      omega
    · rw [List.length_modifyHead, ih]
      omega

/-- Behind every part of a text is one of its lines. -/
theorem line_behind (before after : Text) : 1 ≤ (Position.behind before).line ∧
    (Position.behind before).line ≤ (lines (before ++ after)).length := by
  simp only [Position.behind, length_lines, List.count_append]
  omega

variable {source : Text} {tokens : List Token}

/-- Every token of a source stands in one of its lines. -/
theorem line_of_mem_tokens (split : source.tokens = .ok tokens) {t : Token} (member : t ∈ tokens) :
    1 ≤ t.pos.line ∧ t.pos.line ≤ source.lines.length := by
  obtain ⟨body, rfl, stand⟩ := tokens_stand split
  rcases List.mem_append.1 member with inside | last
  · obtain ⟨-, -, before, after, rfl, place⟩ := stand t inside
    rw [place]
    exact line_behind before after
  · rw [List.mem_singleton.1 last]
    simpa using line_behind source []

/-- Where a numbered line is moved to is a line of the source. -/
theorem line_placeAt (split : source.tokens = .ok tokens) (i : Int) :
    1 ≤ (Token.placeAt tokens i).line ∧ (Token.placeAt tokens i).line ≤ source.lines.length := by
  obtain ⟨t, index, place⟩ := Token.exists_placeAt (tokens_ne_nil split) i
  rw [place]
  exact line_of_mem_tokens split (List.mem_of_getElem? index)

/-! ## Analysis -/

/-- What a source that splits into tokens is analysed to, up to the places of its tokens: tokens
with the same lexemes are refused at the token with the same index, or their programs and tables
are the same but for moved lines. -/
theorem symbols_placeAt (split : source.tokens = .ok tokens) (entry : Text) :
    (∃ expected, ∃ i : Nat, ∀ tokens', tokens'.map Token.lexeme = tokens.map Token.lexeme →
      ∃ found, tokens'[i]? = some found ∧
        Program.ofTokens tokens' = .error (.unmet expected found)) ∨
    ∃ (p : Program) (tables : Symbols), ∀ tokens',
      tokens'.map Token.lexeme = tokens.map Token.lexeme →
        Program.ofTokens tokens' = .ok (p.moved (Token.placeAt tokens')) ∧
        (p.moved (Token.placeAt tokens')).symbols entry =
          .ok ((tables.moved (Token.placeAt tokens')).report (tables.missingEntry entry)) := by
  refine (ofTokens_placeAt split).imp_right fun ⟨p, read⟩ => ?_
  have program : source.program = .ok (p.moved (Token.placeAt tokens)) :=
    (program_eq_ofTokens split).trans (read tokens rfl)
  -- Nothing is known of `p` on its numbered lines, but where the source has it, it is canonical.
  obtain ⟨symbols, returned⟩ :=
    Program.symbols_returns (canonical_of_program program).isKnown entry
  obtain ⟨tables, moved⟩ := Program.symbols_moved returned
  exact ⟨p, tables, fun tokens' same => ⟨read tokens' same, moved _⟩⟩

/-- A source is refused by the lexer or by the grammar, or it has symbols: an analysis is never cut
short. But for a last one, that the entry function is missing, all diagnostics stand in a line of
the source. -/
theorem symbols_safe (source entry : Text) :
    (∃ e, source.program = .error e ∧ source.symbols entry = .error (.refused e)) ∨
    ∃ p symbols found, source.program = .ok p ∧ source.symbols entry = .ok symbols ∧
      symbols.diagnostics = found ++ symbols.missingEntry entry ∧
      ∀ d ∈ found, 1 ≤ d.line ∧ d.line ≤ source.lines.length := by
  have refused {e : SyntaxError} (read : source.program = .error e) :
      source.symbols entry = .error (.refused e) := by
    rw [Text.symbols, read]
  cases split : source.tokens with
  | error e =>
    have read : source.program = .error e := by
      rw [program, split]
      rfl
    exact .inl ⟨e, read, refused read⟩
  | ok tokens =>
    obtain ⟨expected, i, unmet⟩ | ⟨p, tables, same⟩ := symbols_placeAt split entry
    · obtain ⟨found, -, unmet⟩ := unmet tokens rfl
      have read := (program_eq_ofTokens split).trans unmet
      exact .inl ⟨_, read, refused read⟩
    · obtain ⟨read, returned⟩ := same tokens rfl
      have program := (program_eq_ofTokens split).trans read
      refine .inr ⟨_, _, (tables.moved (Token.placeAt tokens)).diagnostics, program,
        symbols_eq_ok program returned, ?_, fun d member => ?_⟩
      · rw [Symbols.missingEntry_report, Symbols.missingEntry_moved]
        rfl
      · obtain ⟨numbered, -, rfl⟩ := List.mem_map.1 member
        exact line_placeAt split _

end Text

end ProcCheck
