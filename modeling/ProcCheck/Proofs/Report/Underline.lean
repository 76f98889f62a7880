import ProcCheck.Proofs.Analysis.Safety
import ProcCheck.Proofs.Grammar.Rejected
import ProcCheck.Proofs.Report.Snippet
import ProcCheck.Proofs.Report.Unstyled

/-!
# What a syntax error underlines

A place counts the line feeds and columns of all that is before it, and a message cuts the source
into lines again to show one of them. The two agree: the line that is shown has the rejected text at
the columns of the error, and the carets stand under it.
-/

namespace ProcCheck

/-! ## Lines of a source -/

namespace Text

theorem lines_cons (u : CodeUnit) (t : Text) :
    lines (u :: t) = if u = .lineFeed then [] :: lines t else (lines t).modifyHead (u :: ·) := by
  simp [lines, List.splitOn_cons_eq_if_modifyHead]

theorem head?_lines (t : Text) : t.lines.head? = some (t.takeWhile (· ≠ .lineFeed)) := by
  induction t with
  | nil => rfl
  | cons u rest ih =>
    rw [lines_cons]
    by_cases feed : u = .lineFeed
    · simp [feed]
    · simp [feed, ih, List.head?_modifyHead]

/-- Without the lines that end before it, a text starts with the rest of a line. -/
theorem drop_lines (before after : Text) :
    (lines (before ++ after)).drop (before.count .lineFeed) =
      (lines after).modifyHead (before.rtakeWhile (· ≠ .lineFeed) ++ ·) := by
  have same (ls : List Text) : ls = ls.modifyHead fun l => l := by
    cases ls <;> rfl
  induction before using List.reverseRecOn generalizing after with
  | nil => exact same (lines after)
  | append_singleton before u ih =>
    rw [List.append_assoc, List.singleton_append, List.count_append]
    by_cases feed : u = .lineFeed
    · rw [feed, List.rtakeWhile_concat_neg _ _ _ (by decide), List.count_singleton_self,
        ← List.drop_drop, ih, lines_cons, if_pos rfl]
      exact same (lines after)
    · rw [List.rtakeWhile_concat_pos _ _ _ (by simpa using feed), ← List.drop_drop, ih, lines_cons,
        if_neg feed]
      simp [feed, Function.comp_def]

/-- The line behind a part of a text: what is behind the last line feed before it, then what is in
front of the next one. -/
theorem getElem?_lines (before after : Text) :
    (lines (before ++ after))[before.count .lineFeed]? =
      some (before.rtakeWhile (· ≠ .lineFeed) ++ after.takeWhile (· ≠ .lineFeed)) := by
  have behind := congrArg List.head? (drop_lines before after)
  rw [List.head?_drop] at behind
  rw [behind, List.head?_modifyHead, head?_lines]
  rfl

/-- Lines that are joined are told apart again. -/
theorem lines_join {ls : List Text} (nonempty : ls ≠ [])
    (each : ∀ l ∈ ls, CodeUnit.lineFeed ∉ l) : (join [.lineFeed] ls).lines = ls :=
  List.splitOn_intercalate CodeUnit.lineFeed each nonempty

end Text

/-! ## Places in lines -/

/-- A place in a source: the line that it is in, and how much of the line is before it. -/
structure Position.In (place : Position) (source line : Text) (front : Nat) : Prop where
  line : source.lines[(place.line - 1).toNat]? = some line
  low : 1 ≤ place.line
  high : place.line ≤ source.lines.length
  col : place.col = front + 1

/-- Behind a part of a source its line is what is behind the last line feed before it, then what is in
front of the next one. -/
theorem Position.behind_in (before after : Text) :
    (Position.behind before).In (before ++ after)
      (before.rtakeWhile (· ≠ .lineFeed) ++ after.takeWhile (· ≠ .lineFeed))
      (before.rtakeWhile (· ≠ .lineFeed)).length := by
  obtain ⟨low, high⟩ := Text.line_behind before after
  refine ⟨?_, low, high, ?_⟩
  · have index : ((behind before).line - 1).toNat = before.count .lineFeed := by
      simp only [behind]
      omega
    rw [index, Text.getElem?_lines]
  · simp only [behind]
    omega

theorem Snippet.lineContent_eq {source line : Text} {place : Position} {front : Nat}
    (inside : place.In source line front) : lineContent source place.line = line := by
  have index : place.line.toNat - 1 = (place.line - 1).toNat := by omega
  have positive : ¬ place.line ≤ 0 := by
    have := inside.low
    omega
  rw [lineContent, if_neg positive, index, inside.line]
  rfl

namespace SyntaxError

/-- A syntax error covers a text in its line: the units from its column on, as many as it is long. -/
structure Marks (e : SyntaxError) (line lexeme : Text) : Prop where
  covered : (line.drop (e.location.col - 1).toNat).take (e.location.len.getD 1).toNat = lexeme
  len : e.location.len.getD 1 = lexeme.length

/-- A syntax error covers one column behind the last line of a source. -/
structure AtEnd (e : SyntaxError) (source line : Text) : Prop where
  last : e.location.line = source.lines.length
  col : e.location.col = line.length + 1
  len : e.location.len = some 1

variable {e : SyntaxError} {line lexeme : Text}

/-- A text is covered from the column behind what is before it in its line. -/
theorem Marks.of_front {front behind : Text} (col : e.location.col = front.length + 1)
    (len : e.location.len.getD 1 = lexeme.length) : e.Marks (front ++ (lexeme ++ behind)) lexeme := by
  have first : (e.location.col - 1).toNat = front.length := by omega
  refine ⟨?_, len⟩
  rw [first, len, List.drop_left, Int.toNat_natCast, List.take_left]

end SyntaxError

/-! ## Messages -/

theorem Expectation.lineFeed_not_mem_message {found : Token}
    (inside : CodeUnit.lineFeed ∉ found.spelling) (expected : Expectation) :
    CodeUnit.lineFeed ∉ expected.message found := by
  cases expected with
  | expression =>
    rw [message]
    split
    · decide
    · simp only [List.mem_append, not_or]
      exact ⟨⟨by decide, inside⟩, by decide⟩
  | _ =>
    rw [message]
    decide +kernel

/-- A message about a text on one line is itself on one line. -/
theorem Fault.Rejects.lineFeed_not_mem_message {fault : Fault} {source before lexeme after : Text}
    (rejects : fault.Rejects source before lexeme after) (noFeed : CodeUnit.lineFeed ∉ lexeme) :
    CodeUnit.lineFeed ∉ fault.message := by
  cases rejects with
  | unexpectedUnit =>
    simp only [message, List.mem_append, not_or]
    exact ⟨⟨by decide, noFeed⟩, by decide⟩
  | unterminatedString =>
    rw [message]
    decide
  | unterminatedComment =>
    rw [message]
    decide
  | @unmet expected => exact expected.lineFeed_not_mem_message noFeed

/-- Each line in which a place is shown is one line. -/
theorem Location.lineFeed_not_mem_shown {l : Location} {title content : Text}
    (heading : CodeUnit.lineFeed ∉ title) (inside : CodeUnit.lineFeed ∉ content) :
    ∀ t ∈ l.shown title content, CodeUnit.lineFeed ∉ t := by
  have integer (n : Int) : CodeUnit.lineFeed ∉ Text.ofInt n :=
    Text.not_mem_ofInt (by decide) (by decide) n
  have number := integer l.line
  have col := integer l.col
  have blank (n : Nat) : CodeUnit.lineFeed ∉ Text.spaces n := Text.not_mem_repeated (by decide) n
  have carets (n : Nat) : CodeUnit.lineFeed ∉ Text.repeated '^' n :=
    Text.not_mem_repeated (by decide) n
  have arrow : CodeUnit.lineFeed ∉ (" --> line " : Text) := by decide
  have colon : CodeUnit.lineFeed ∉ (":" : Text) := by decide
  have bar : CodeUnit.lineFeed ∉ (" |" : Text) := by decide
  have barred : CodeUnit.lineFeed ∉ (" | " : Text) := by decide
  simp only [shown, numbered, pointer, List.forall_mem_cons, List.mem_append, List.not_mem_nil,
    not_or, false_imp_iff, implies_true, and_true]
  exact ⟨heading, ⟨⟨⟨⟨blank _, arrow⟩, number⟩, colon⟩, col⟩, ⟨blank _, bar⟩,
    ⟨⟨number, barred⟩, inside⟩, ⟨⟨blank _, barred⟩, blank _, carets _⟩, ⟨blank _, bar⟩⟩

namespace SyntaxError

/-- A syntax error as it is shown without colours: an empty line, the message, and its place. -/
def shown (e : SyntaxError) (content : Text) : List Text :=
  [] :: e.location.shown ("Error: " ++ e.message) content

/-- Of a message, the line that is shown and the carets below it: of the columns of the line exactly
those that the error covers have a caret. -/
structure Shows (e : SyntaxError) (content : Text) (message : List Text) : Prop where
  lines : message = e.shown content
  columns : ∀ j : Nat, let width := (Text.ofInt e.location.line).length + 3
    (e.location.numbered content)[width + j]? = content[j]? ∧
      (e.location.pointer[width + j]? = some ('^' : CodeUnit) ↔
        e.location.col ≤ j + 1 ∧ j + 1 < e.location.col + e.location.len.getD 1)

variable {e : SyntaxError} {source content : Text}

/-- An error about a line is rendered as the lines that are shown. -/
theorem render_eq (line : 1 ≤ e.location.line) (len : 1 ≤ e.location.len.getD 1) :
    e.render .plain source =
      Text.join [.lineFeed] (e.shown (Snippet.lineContent source e.location.line)) := by
  have error : ("Error: " : Text) = "Error:" ++ " " := by decide
  rw [render, renderError, Snippet.render_eq line len rfl, shown, error]
  rfl

/-- Behind the number and behind the margin the columns are those of the line. -/
theorem Shows.of_lines {message : List Text} (lines : message = e.shown content)
    (col : 1 ≤ e.location.col) (len : 1 ≤ e.location.len.getD 1) : e.Shows content message :=
  ⟨lines, fun j => ⟨Location.getElem?_numbered content j, Location.getElem?_pointer col len j⟩⟩

theorem lineFeed_not_mem_shown (message : CodeUnit.lineFeed ∉ e.message)
    (inside : CodeUnit.lineFeed ∉ content) : ∀ l ∈ e.shown content, CodeUnit.lineFeed ∉ l := by
  have error : CodeUnit.lineFeed ∉ ("Error: " : Text) := by decide
  have heading : CodeUnit.lineFeed ∉ ("Error: " ++ e.message : Text) := by
    simp [error, message]
  exact List.forall_mem_cons.2
    ⟨List.not_mem_nil, Location.lineFeed_not_mem_shown heading inside⟩

end SyntaxError

/-! ## Sources -/

namespace Text

/-- A source that is refused is underlined where it goes wrong. The error stands in a line of the
source and covers exactly the text that is rejected, or one column behind the source if that ends too
early; and without colours the line is shown behind its number, with a caret below each column that
is covered. -/
theorem program_underlined {source : Text} {e : SyntaxError}
    (refused : source.program = .error e) :
    ∃ line before lexeme after, source.lines[(e.location.line - 1).toNat]? = some line ∧
      (1 ≤ e.location.line ∧ e.location.line ≤ source.lines.length ∧ 1 ≤ e.location.col) ∧
      e.fault.Rejects source before lexeme after ∧
      ⟨e.location.line, e.location.col⟩ = Position.behind before ∧
      (lexeme ≠ [] ∧ e.Marks line lexeme ∨ lexeme = [] ∧ e.AtEnd source line) ∧
      e.Shows line (e.render .plain source).lines := by
  obtain ⟨before, lexeme, after, rejects, whole, noFeed, place, marked⟩ := program_rejects refused
  let front : Text := before.rtakeWhile (· ≠ .lineFeed)
  let line : Text := front ++ (lexeme ++ after).takeWhile (· ≠ .lineFeed)
  have inside : Position.In ⟨e.location.line, e.location.col⟩ source line front.length := by
    rw [place, whole, List.append_assoc]
    exact Position.behind_in before (lexeme ++ after)
  have first : 1 ≤ e.location.col := by
    have col := inside.col
    simp only at col
    omega
  have len : 1 ≤ e.location.len.getD 1 := by
    rcases marked with ⟨some, len⟩ | ⟨-, -, len⟩
    · have positive := List.length_pos_iff.2 some
      omega
    · simp [len]
  have message : CodeUnit.lineFeed ∉ e.message := rejects.lineFeed_not_mem_message noFeed
  have content : CodeUnit.lineFeed ∉ line := by
    rw [List.mem_append, not_or]
    exact ⟨fun member => by simpa using List.mem_rtakeWhile_imp member,
      fun member => by simpa using List.mem_takeWhile_imp member⟩
  refine ⟨line, before, lexeme, after, inside.line, ⟨inside.low, inside.high, first⟩, rejects,
    place, ?_, .of_lines ?_ first len⟩
  · rcases marked with ⟨some, len⟩ | ⟨rfl, rfl, len⟩
    · refine .inl ⟨some, ?_⟩
      simp only [line, takeWhile_append_line noFeed]
      exact .of_front inside.col len
    · obtain rfl : after = [] := by simpa using whole
      have last : e.location.line = (Position.behind before).line := congrArg Position.line place
      refine .inr ⟨rfl, ?_, ?_, len⟩
      · rw [last, length_lines]
        simp only [Position.behind]
        omega
      · simpa [line] using inside.col
  · have shown : Snippet.lineContent source e.location.line = line := Snippet.lineContent_eq inside
    rw [SyntaxError.render_eq inside.low len, shown, lines_join (by simp [SyntaxError.shown])]
    exact SyntaxError.lineFeed_not_mem_shown message content

/-- A source whose first line ends inside a comment and whose third holds an open string. -/
def unclosed : Text := "/* \"@\"\n*/ int a = 1;\n  a = \"b@;\n"

theorem unclosed_underlined : ∃ e, unclosed.program = .error e ∧
    e.location = ⟨3, 7, some 4⟩ ∧ e.Marks "  a = \"b@;" "\"b@;" ∧
    e.Shows "  a = \"b@;" (e.render .plain unclosed).lines := by
  have found : ((unclosed.program.map fun _ => none).tryCatch
      fun e => .ok (some e.location)).toOption = some (some ⟨3, 7, some 4⟩) := by
    decide +kernel
  cases refused : unclosed.program with
  | ok p =>
    rw [refused] at found
    cases found
  | error e =>
    rw [refused] at found
    have location : e.location = ⟨3, 7, some 4⟩ := Option.some.inj (Option.some.inj found)
    obtain ⟨line, before, lexeme, after, index, -, rejects, place, marks, shows⟩ :=
      program_underlined refused
    have third : unclosed.lines[2]? = some ("  a = \"b@;" : Text) := by decide
    rw [location] at index
    obtain rfl := Option.some.inj (index.symm.trans third)
    refine ⟨e, rfl, location, ?_, shows⟩
    rcases marks with ⟨-, marks⟩ | ⟨-, atEnd⟩
    · have covered := marks.covered
      rw [location] at covered
      obtain rfl : lexeme = "\"b@;" := covered.symm.trans (by decide)
      exact marks
    · have last := atEnd.last
      rw [location] at last
      exact absurd last (by decide)

end Text

end ProcCheck
