import ProcCheck.Proofs.Analysis.Moved
import ProcCheck.Proofs.Grammar.Renamed
import ProcCheck.Proofs.Report.Underline
import ProcCheck.Proofs.Token.Refused

/-!
# What a diagnostic underlines

A diagnostic has a line and no column. Its line is that of a token, hence a line of the source that is
not blank, and all of it but the blank space around it is underlined. That the line is that of a token
follows from what readers and scans do not do: neither looks at a line, so a program whose tokens stay
in their lines stays as it is when every other line is moved away, and so do its diagnostics.
-/

namespace ProcCheck

/-! ## Lines of tokens -/

/-- The lines of some tokens stay, and all others become line 0. -/
def Token.keepLines (tokens : List Token) (line : Int) : Position :=
  ⟨if tokens.any (·.pos.line = line) then line else 0, 0⟩

variable {tokens : List Token}

theorem Token.keepLines_line (line : Int) : (Token.keepLines tokens line).line = 0 ∨
    ∃ t ∈ tokens, t.pos.line = (Token.keepLines tokens line).line := by
  rw [keepLines]
  split
  next found =>
    obtain ⟨t, member, same⟩ := List.any_eq_true.1 found
    exact .inr ⟨t, member, of_decide_eq_true same⟩
  next => exact .inl rfl

theorem Token.map_moved_keepLines : tokens.map (Token.moved (Token.keepLines tokens)) = tokens := by
  refine (List.map_congr_left fun t member => ?_).trans (List.map_id tokens)
  have found : tokens.any (·.pos.line = t.pos.line) = true :=
    List.any_eq_true.2 ⟨t, member, by simp⟩
  simp [Token.moved, Position.moved, keepLines, found]

/-- The nodes that tokens spell are the same when all lines but those of the tokens are moved. -/
theorem Program.moved_keepLines {nodes : List TopLevel} {rest : List Token}
    (read : Grammar.declarations tokens = .ok (nodes, rest)) :
    nodes.map (TopLevel.recast (.moved (Token.keepLines tokens))) = nodes := by
  have again : Grammar.declarations (tokens.map (Token.moved (Token.keepLines tokens))) =
      .ok (nodes.map (TopLevel.moved (Token.keepLines tokens)),
        rest.map (Token.moved (Token.keepLines tokens))) :=
    (Grammar.declarations_moved tokens).run_ok (fun _ => id) read
  rw [Token.map_moved_keepLines, read] at again
  rw [funext TopLevel.recast_moved]
  exact (Prod.mk.inj (Except.ok.inj again)).1.symm

/-- The line of a diagnostic is that of a token in front of the end token, or line 0. -/
theorem Program.diagnostics_line {last : Token} {p : Program} {entry : Text} {symbols : Symbols}
    (inside : ∀ t ∈ tokens, t.kind ≠ .endOfInput) (ends : last.isEnd)
    (read : Program.ofTokens (tokens ++ [last]) = .ok p) (returned : p.symbols entry = .ok symbols)
    {d : Diagnostic} (member : d ∈ symbols.diagnostics) :
    d.line = 0 ∨ ∃ t ∈ tokens, t.pos.line = d.line := by
  obtain ⟨rest, run⟩ := (Program.ofTokens_append inside ends).1 ⟨p.span, read⟩
  obtain ⟨tables, tables', like, rfl, again⟩ :=
    Program.symbols_recast Recast.moved_keeps (fun _ => rfl) returned
  -- The moved nodes are the nodes, so what is reported of them is reported twice.
  rw [Program.moved_keepLines run] at again
  have same : tables.diagnostics ++ tables.missingEntry entry =
      tables'.diagnostics ++ tables.missingEntry entry :=
    congrArg Symbols.diagnostics (Except.ok.inj (returned.symm.trans (again p.span)))
  rcases List.mem_append.1 member with found | missing
  · rw [List.append_cancel_right same, like.diagnostics] at found
    obtain ⟨e, -, rfl⟩ := List.mem_map.1 found
    exact Token.keepLines_line e.line
  · rw [Symbols.missingEntry] at missing
    split at missing
    · cases missing
    · obtain rfl := List.mem_singleton.1 missing
      exact .inl rfl

/-! ## Lines with tokens -/

namespace Text

variable {source : Text}

/-- The line of a token in front of the end token is not blank. -/
theorem visible_of_mem_tokens (split : source.tokens = .ok tokens) {t : Token} (member : t ∈ tokens)
    (noEnd : t.kind ≠ .endOfInput) (spelt : t.isSpelt) :
    ∃ line front, t.pos.In source line front ∧ ∃ u ∈ line, u.isBlank = false := by
  obtain ⟨before, after, whole, place, noFeed, -⟩ := tokens_inside split member
  have inside := Position.behind_in before (t.spelling ++ after)
  rw [← place, ← List.append_assoc, ← whole] at inside
  refine ⟨_, _, inside, ?_⟩
  obtain ⟨v, rest, some⟩ := TokenKind.spells_nonempty noEnd spelt
  obtain ⟨front, u, last⟩ := (List.eq_nil_or_concat' t.spelling).resolve_left (by simp [some])
  have spells : t.kind.spells (front ++ [u]) := last ▸ spelt
  refine ⟨u, ?_, TokenKind.last_of_spells noEnd spells⟩
  rw [takeWhile_append_line noFeed, last]
  simp

end Text

/-! ## Diagnostics as they are shown -/

namespace Diagnostic

/-- The place that a diagnostic marks in its line: all of the line but the blank units around it. -/
def place (d : Diagnostic) (content : Text) : Location :=
  ⟨d.line, content.indent + 1, some content.trim.length⟩

/-- A diagnostic as it is shown without colours: the message and the place that it marks. -/
def shown (d : Diagnostic) (content : Text) : List Text :=
  (d.place content).shown ("Semantic error: " ++ d.message) content

/-- Of a message, the line that is shown and the carets below it: exactly the columns from the first
to the last unit of the line that is not blank have a caret. -/
structure Shows (d : Diagnostic) (content message : Text) : Prop where
  lines : message = Text.join [.lineFeed] (d.shown content)
  columns : ∀ j : Nat, let width := (Text.ofInt d.line).length + 3
    ((d.place content).numbered content)[width + j]? = content[j]? ∧
      ((d.place content).pointer[width + j]? = some ('^' : CodeUnit) ↔ content.Covers j)

/-- A diagnostic about a line that is not blank is shown over it. -/
theorem shows_of_visible {d : Diagnostic} {source line : Text} {pos : Position} {front : Nat}
    (inside : pos.In source line front) (same : pos.line = d.line)
    (visible : ∃ u ∈ line, u.isBlank = false) : d.Shows line (d.render .plain source) := by
  have content : Snippet.lineContent source d.line = line := same ▸ Snippet.lineContent_eq inside
  have low : 1 ≤ (d.place line).line := by
    simpa only [place, ← same] using inside.low
  have location : contentLocation source d.line = d.place line := by
    simp only [contentLocation, content, Text.length_trimStart, place]
  have len : 1 ≤ (d.place line).len.getD 1 := by
    have some := Text.length_trim_pos visible
    simp only [place, Option.getD_some]
    omega
  have error : ("Semantic error: " : Text) = "Semantic error:" ++ " " := by decide
  constructor
  · have row : Snippet.lineContent source (d.place line).line = line := content
    rw [render, location, Snippet.render_eq low len rfl, shown, error, row]
  · intro j
    refine ⟨Location.getElem?_numbered line j, ?_⟩
    have first : 1 ≤ (d.place line).col := by
      simp only [place]
      omega
    refine (Location.getElem?_pointer first len j).trans ?_
    rw [Text.covers_iff]
    simp only [place, Option.getD_some]
    omega

end Diagnostic

/-! ## Sources -/

/-- A diagnostic of a source is shown over its line. But for those about the program as a whole, at
line 0, the line of every diagnostic is a line of the source that is not blank; and without colours
the line is shown behind its number, with a caret below each column from its first to its last unit
that is not blank. -/
theorem Text.diagnostics_underlined {source entry : Text} {symbols : Symbols}
    (returned : source.symbols entry = .ok symbols) {d : Diagnostic}
    (member : d ∈ symbols.diagnostics) (located : d.line ≠ 0) :
    ∃ line, source.lines[(d.line - 1).toNat]? = some line ∧
      (1 ≤ d.line ∧ d.line ≤ source.lines.length) ∧ (∃ u ∈ line, u.isBlank = false) ∧
      d.Shows line (d.render .plain source) := by
  obtain ⟨p, read, scanned⟩ := program_of_symbols returned
  obtain ⟨tokens, split, spelt⟩ := program_eq_ok.1 read
  obtain ⟨body, rfl, stand⟩ := tokens_stand split
  have inBody : ∀ t ∈ body, t.kind ≠ .endOfInput := fun t member => (stand t member).1
  obtain ⟨t, among, same⟩ :=
    (Program.diagnostics_line inBody rfl spelt scanned member).resolve_left located
  obtain ⟨line, front, inside, visible⟩ := visible_of_mem_tokens split
    (List.mem_append_left _ among) (inBody t among) (stand t among).2.1
  exact ⟨line, same ▸ inside.line, same ▸ ⟨inside.low, inside.high⟩, visible,
    Diagnostic.shows_of_visible inside same visible⟩

/-- A call on an indented line that ends with a carriage return and a line feed. -/
def Text.indentedCall : Text := "int main() \x7b\r\n\tf(1);  \r\n\x7d"

theorem Text.indentedCall_underlined : ∃ symbols, Text.indentedCall.symbols "main" = .ok symbols ∧
    (⟨2, .undefinedFunction "f"⟩ : Diagnostic) ∈ symbols.diagnostics ∧
    Diagnostic.Shows ⟨2, .undefinedFunction "f"⟩ "\tf(1);  \r"
      (Diagnostic.render ⟨2, .undefinedFunction "f"⟩ .plain Text.indentedCall) := by
  have found : ((Text.indentedCall.symbols "main").toOption.map (·.diagnostics)) =
      some [⟨2, .undefinedFunction "f"⟩] := by
    decide +kernel
  cases returned : Text.indentedCall.symbols "main" with
  | error e =>
    rw [returned] at found
    cases found
  | ok symbols =>
    rw [returned] at found
    have member : (⟨2, .undefinedFunction "f"⟩ : Diagnostic) ∈ symbols.diagnostics := by
      simp [Option.some.inj found]
    obtain ⟨line, index, -, -, shows⟩ := diagnostics_underlined returned member (by decide)
    have second : Text.indentedCall.lines[1]? = some ("\tf(1);  \r" : Text) := by decide
    obtain rfl := Option.some.inj (index.symm.trans second)
    exact ⟨symbols, rfl, member, shows⟩

end ProcCheck
