import Mathlib.Data.List.DropRight
import ProcCheck.Report.Snippet

/-!
# Snippets without colours

Without colours a snippet is its lines, joined: the line of the source stands behind its number and
the carets stand behind a margin of the same width, so the columns of the one are those of the other.
The units of a line from the first to the last that is not blank are what is left when it is trimmed.
-/

namespace ProcCheck

/-! ## Rows -/

/-- A line behind its number. -/
def Location.numbered (l : Location) (content : Text) : Text := Text.ofInt l.line ++ " | " ++ content

/-- The carets of a place behind a margin that is as wide as the number of its line. -/
def Location.pointer (l : Location) : Text :=
  Text.spaces (Text.ofInt l.line).length ++ " | " ++
    (Text.spaces (l.col - 1).toNat ++ Text.repeated '^' (l.len.getD 1).toNat)

/-- A place as it is shown under a title: where it is, then its line behind the number, and the
carets below. -/
def Location.shown (l : Location) (title content : Text) : List Text :=
  let number := Text.ofInt l.line
  let margin := Text.spaces number.length
  [title,
    margin ++ " --> line " ++ number ++ ":" ++ Text.ofInt l.col,
    margin ++ " |",
    l.numbered content,
    l.pointer,
    margin ++ " |"]

/-- A snippet about a line is rendered as its place is shown, if it has no hint. -/
theorem Snippet.render_eq {s : Snippet} (line : 1 ≤ s.location.line)
    (len : 1 ≤ s.location.len.getD 1) (noHint : s.hint = []) :
    s.render .plain = Text.join [.lineFeed]
      (s.location.shown (s.header ++ " " ++ s.message) (lineContent s.source s.location.line)) := by
  have positive : ¬ s.location.line ≤ 0 := by omega
  have widest : max 1 (s.location.len.getD 1) = s.location.len.getD 1 := by omega
  have arrow : (" --> line " : Text) = " " ++ "-->" ++ " line " := by decide
  have bar : (" |" : Text) = " " ++ "|" := by decide
  have barred : (" | " : Text) = " " ++ "|" ++ " " := by decide
  rw [render, if_neg positive]
  simp only [Location.shown, Location.numbered, Location.pointer, excerpt, Styling.plain, widest,
    noHint, List.isEmpty_nil, if_true, List.append_nil, arrow, bar, barred, List.append_assoc]

namespace Location

variable {l : Location}

/-- Behind the number the columns are those of the line. -/
theorem getElem?_numbered (content : Text) (j : Nat) :
    (l.numbered content)[(Text.ofInt l.line).length + 3 + j]? = content[j]? := by
  have number : (Text.ofInt l.line).length + 3 = (Text.ofInt l.line ++ (" | " : Text)).length := by
    rw [List.length_append]
    rfl
  rw [numbered, number, List.getElem?_append_right (by omega), Nat.add_sub_cancel_left]

/-- Behind the margin there is a caret in each column that the place covers, and in no other. -/
theorem getElem?_pointer (col : 1 ≤ l.col) (len : 1 ≤ l.len.getD 1) (j : Nat) :
    l.pointer[(Text.ofInt l.line).length + 3 + j]? = some ('^' : CodeUnit) ↔
      l.col ≤ j + 1 ∧ j + 1 < l.col + l.len.getD 1 := by
  have margin : (Text.ofInt l.line).length + 3 =
      (Text.spaces (Text.ofInt l.line).length ++ (" | " : Text)).length := by
    rw [List.length_append, Text.spaces, Text.repeated, List.length_replicate]
    rfl
  rw [pointer, margin, List.getElem?_append_right (by omega), Nat.add_sub_cancel_left]
  have other : (' ' : CodeUnit) ≠ '^' := by decide
  by_cases before : j < (l.col - 1).toNat
  · rw [List.getElem?_append_left (by simpa [Text.spaces, Text.repeated] using before)]
    simp only [Text.spaces, Text.repeated, List.getElem?_replicate, before, if_true,
      Option.some.injEq, other, false_iff]
    omega
  · rw [List.getElem?_append_right (by simpa [Text.spaces, Text.repeated] using before)]
    simp only [Text.spaces, Text.repeated, List.length_replicate, List.getElem?_replicate]
    split
    next inside =>
      simp only [true_iff]
      omega
    next outside =>
      simp only [reduceCtorEq, false_iff]
      omega

end Location

/-! ## Trimming -/

namespace Text

/-- How many blank units a text starts with. -/
def indent (t : Text) : Nat := (t.takeWhile (·.isBlank)).length

/-- A unit that is not blank stands in a text at or before a column, and one at or behind it. -/
def Covers (t : Text) (j : Nat) : Prop :=
  (∃ i ≤ j, ∃ u, t[i]? = some u ∧ u.isBlank = false) ∧
    ∃ k, j ≤ k ∧ ∃ u, t[k]? = some u ∧ u.isBlank = false

theorem length_trimStart (t : Text) : t.length - t.trimStart.length = t.indent := by
  have parts := congrArg List.length (List.takeWhile_append_dropWhile (p := (·.isBlank)) (l := t))
  rw [List.length_append] at parts
  rw [trimStart, indent]
  omega

/-- A text is what is left of it when it is trimmed, between blank units. -/
theorem exists_trim (t : Text) : ∃ front rear, t = front ++ (t.trim ++ rear) ∧
    front.length = t.indent ∧ (∀ u ∈ front, u.isBlank) ∧ ∀ u ∈ rear, u.isBlank :=
  ⟨t.takeWhile (·.isBlank), t.trimStart.rtakeWhile (·.isBlank), by
    have rest : t.trim ++ t.trimStart.rtakeWhile (·.isBlank) = t.trimStart :=
      List.rdropWhile_append_rtakeWhile
    rw [rest, trimStart, List.takeWhile_append_dropWhile], rfl,
    fun _ member => List.mem_takeWhile_imp member, fun _ member => List.mem_rtakeWhile_imp member⟩

/-- What is left of a text that is trimmed starts and ends with units that are not blank. -/
theorem trim_ends {t : Text} (some : t.trim ≠ []) :
    (t.trim.head some).isBlank = false ∧ (t.trim.getLast some).isBlank = false := by
  constructor
  · have starts : t.trim <+: t.trimStart := List.rdropWhile_prefix _ _
    have nonempty : t.trimStart ≠ [] := starts.ne_nil some
    rw [starts.head some]
    exact List.head_dropWhile_not (fun u : CodeUnit => u.isBlank) nonempty
  · exact Bool.eq_false_iff.2 (List.rdropWhile_last_not (fun u : CodeUnit => u.isBlank) t.trimStart some)

/-- Between blank units the columns of a text are covered that starts and ends with other units. -/
theorem covers_append {front inner rear : Text} (before : ∀ u ∈ front, u.isBlank)
    (behind : ∀ u ∈ rear, u.isBlank) (ends : ∀ some : inner ≠ [],
      (inner.head some).isBlank = false ∧ (inner.getLast some).isBlank = false) (j : Nat) :
    Covers (front ++ (inner ++ rear)) j ↔
      front.length ≤ j ∧ j < front.length + inner.length := by
  constructor
  · rintro ⟨⟨i, le, u, first, visible⟩, k, ge, v, last, visible'⟩
    constructor
    · by_contra outside
      rw [List.getElem?_append_left (by omega)] at first
      rw [before u (List.mem_of_getElem? first)] at visible
      cases visible
    · by_contra outside
      rw [List.getElem?_append_right (by omega), List.getElem?_append_right (by omega)] at last
      rw [behind v (List.mem_of_getElem? last)] at visible'
      cases visible'
  · rintro ⟨low, high⟩
    have nonempty : inner ≠ [] := List.ne_nil_of_length_pos (by omega)
    have within (n : Nat) (small : n < inner.length) :
        (front ++ (inner ++ rear))[front.length + n]? = some inner[n] := by
      rw [List.getElem?_append_right (by omega), Nat.add_sub_cancel_left,
        List.getElem?_append_left small, List.getElem?_eq_getElem small]
    refine ⟨⟨front.length, low, _, within 0 (by omega), ?_⟩,
      front.length + (inner.length - 1), by omega, _, within _ (by omega), ?_⟩
    · rw [← List.head_eq_getElem nonempty]
      exact (ends nonempty).1
    · rw [← List.getLast_eq_getElem nonempty]
      exact (ends nonempty).2

/-- The columns that are covered are those of what is left when a text is trimmed. -/
theorem covers_iff (t : Text) (j : Nat) :
    t.Covers j ↔ t.indent ≤ j ∧ j < t.indent + t.trim.length := by
  obtain ⟨front, rear, whole, length, before, behind⟩ := t.exists_trim
  rw [← length, ← covers_append before behind fun some => trim_ends some, ← whole]

/-- Of a text that is not blank something is left when it is trimmed. -/
theorem length_trim_pos {t : Text} (visible : ∃ u ∈ t, u.isBlank = false) : 0 < t.trim.length := by
  obtain ⟨u, member, visible⟩ := visible
  obtain ⟨j, index⟩ := List.getElem?_of_mem member
  have here : ∃ u, t[j]? = some u ∧ u.isBlank = false := ⟨u, index, visible⟩
  have covered := (covers_iff t j).1 ⟨⟨j, le_rfl, here⟩, j, le_rfl, here⟩
  omega

end Text

end ProcCheck
