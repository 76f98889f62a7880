import Mathlib.Data.List.DropRight
import ProcCheck.Proofs.Token.Piece

/-!
# The layout of a source

A source that splits into tokens is laid out as gaps and spellings: a gap in front of every
token and one behind the last. The split keeps the layout as it goes: `tokensFrom` at the place
behind a text gives the tokens of the layout that follows it.
-/

namespace ProcCheck

/-! ## Places -/

namespace Position

/-- The place behind a text: one line more than it has line feeds, and one column more than
there are units behind the last of them. -/
def behind (t : Text) : Position :=
  ⟨1 + (t.count .lineFeed : Nat), 1 + (t.rtakeWhile (· ≠ .lineFeed)).length⟩

theorem behind_concat (t : Text) (u : CodeUnit) : behind (t ++ [u]) = (behind t).next u := by
  by_cases feed : u = .lineFeed
  · rw [feed, behind, behind, next, List.rtakeWhile_concat_neg _ _ _ (by decide)]
    simp [List.count_append]
    omega
  · rw [behind, behind, next, List.rtakeWhile_concat_pos _ _ _ (by simpa using feed)]
    simp [List.count_append, feed, List.count_cons_of_ne]
    omega

/-- The place that is kept unit by unit is the place behind the text. -/
theorem behind_append (s t : Text) : behind (s ++ t) = (behind s).after t := by
  induction t generalizing s with
  | nil => simp
  | cons u t ih => rw [after_cons, ← behind_concat, ← ih, List.append_assoc, List.singleton_append]

end Position

/-! ## Layouts -/

/-- A token and the gap in front of it. -/
structure Placed where
  gap : Text
  token : Token

namespace Placed

/-- The units of the gap and of the token. -/
def text (p : Placed) : Text := p.gap ++ p.token.spelling

/-- Gaps and tokens in their order. -/
def layout (ps : List Placed) : Text := ps.flatMap text

/-- A token stands with its gap between what is before them and what is after them: at its
place, spelt as its kind is, and as long as it can be. -/
structure Stands (before after : Text) (p : Placed) : Prop where
  gap : Text.Gap p.gap (p.token.spelling ++ after)
  kind : p.token.kind ≠ .endOfInput
  spelt : p.token.isSpelt
  pos : p.token.pos = .behind (before ++ p.gap)
  ends : p.token.kind.endsAt after

/-- All tokens of a layout behind `before` stand in it, and so does the gap at its end. -/
def Laid (rear : Text) : Text → List Placed → Prop
  | _, [] => Text.Gap rear []
  | before, p :: ps => p.Stands before (layout ps ++ rear) ∧ Laid rear (before ++ p.text) ps

variable {before rear : Text} {ps : List Placed}

@[simp] theorem layout_nil : layout [] = [] := rfl

@[simp] theorem layout_cons (p : Placed) : layout (p :: ps) = p.text ++ layout ps := rfl

theorem Laid.gap (laid : Laid rear before ps) : Text.Gap rear [] := by
  induction ps generalizing before with
  | nil => exact laid
  | cons p ps ih => exact ih laid.2

theorem Laid.stands {p : Placed} {front back : List Placed}
    (laid : Laid rear before (front ++ p :: back)) :
    p.Stands (before ++ layout front) (layout back ++ rear) := by
  induction front generalizing before with
  | nil => simpa using laid.1
  | cons q front ih =>
    have stands := ih laid.2
    rwa [List.append_assoc] at stands

/-- A layout whose first gap is longer. -/
theorem Laid.prepend {gap : Text} (laid : Laid rear (before ++ gap) ps)
    (goesOn : ∀ behind rest, layout ps ++ rear = behind ++ rest → Text.Gap behind rest →
      Text.Gap (gap ++ behind) rest) :
    ∃ qs rear', Laid rear' before qs ∧ layout qs ++ rear' = gap ++ (layout ps ++ rear) ∧
      qs.map (·.token) = ps.map (·.token) := by
  cases ps with
  | nil => exact ⟨[], gap ++ rear, goesOn rear [] (by simp) laid, rfl, rfl⟩
  | cons p ps =>
    obtain ⟨stands, laid⟩ := laid
    refine ⟨{ p with gap := gap ++ p.gap } :: ps, rear, ⟨⟨?_, stands.kind, stands.spelt, ?_,
      stands.ends⟩, ?_⟩, ?_, rfl⟩
    · exact goesOn _ _ (by simp [text]) stands.gap
    · rw [stands.pos, List.append_assoc]
    · simpa [text] using laid
    · simp [text]

end Placed

/-! ## The split -/

/-- One step of the split takes a piece off the text: a gap gives no token, a spelling gives
one at the place where the text starts. -/
theorem tokensFrom_step {pos : Position} {u : CodeUnit} {rest : Text} {tokens : List Token}
    (split : tokensFrom pos (u :: rest) = .ok tokens) :
    ∃ kind? taken after later, rest = taken ++ after ∧ Piece.Stands kind? (u :: taken) after ∧
      tokensFrom (pos.after (u :: taken)) after = .ok later ∧
      tokens = (kind?.map fun kind => ⟨kind, u :: taken, pos⟩).toList ++ later := by
  unfold tokensFrom at split
  split at split
  case h_1 => cases split
  case h_2 piece found =>
    obtain ⟨taken, after, rfl, more, stands⟩ := Piece.atHead_foundAt found
    simp only [more, List.take_left', List.drop_left'] at split
    split at split
    case h_1 gap =>
      rw [gap] at stands
      exact ⟨none, taken, after, tokens, rfl, stands, split, rfl⟩
    case h_2 kind token =>
      rw [token] at stands
      cases splitLater : tokensFrom (pos.after (u :: taken)) after with
      | error fault =>
        rw [splitLater] at split
        cases split
      | ok later =>
        rw [splitLater] at split
        exact ⟨some kind, taken, after, later, rfl, stands, splitLater,
          (Except.ok.inj split).symm⟩

/-- The tokens from the place behind `before` on are those of a layout of the text. -/
theorem tokensFrom_laid {before text : Text} {tokens : List Token}
    (split : tokensFrom (.behind before) text = .ok tokens) :
    ∃ ps rear, Placed.Laid rear before ps ∧ text = Placed.layout ps ++ rear ∧
      tokens = ps.map (·.token) ++ [⟨.endOfInput, [], .behind (before ++ text)⟩] := by
  cases text with
  | nil =>
    unfold tokensFrom at split
    obtain rfl := Except.ok.inj split
    exact ⟨[], [], .empty, rfl, by simp⟩
  | cons u rest =>
    obtain ⟨kind?, taken, after, later, rfl, stands, splitLater, rfl⟩ := tokensFrom_step split
    rw [← Position.behind_append] at splitLater
    obtain ⟨ps, rear, laid, rfl, rfl⟩ := tokensFrom_laid splitLater
    cases kind? with
    | none =>
      obtain ⟨qs, rear', laid', same, tokens⟩ := laid.prepend stands
      exact ⟨qs, rear', laid', by simp [same], by simp [tokens]⟩
    | some kind =>
      obtain ⟨noEnd, spelt, ends⟩ := stands
      refine ⟨⟨[], kind, u :: taken, .behind before⟩ :: ps, rear, ⟨⟨.empty, noEnd, spelt, ?_, ends⟩,
        laid⟩, by simp [Placed.text], by simp⟩
      simp
termination_by text.length

/-- A source that splits into tokens is its gaps and the spellings of its tokens in their order,
with every token at its place, in the class of its kind and as long as it can be. -/
theorem Text.tokens_laid {source : Text} {tokens : List Token}
    (split : source.tokens = .ok tokens) :
    ∃ ps rear, source = Placed.layout ps ++ rear ∧ Text.Gap rear [] ∧
      tokens = ps.map (·.token) ++ [⟨.endOfInput, [], .behind source⟩] ∧
      ∀ front p back, ps = front ++ p :: back →
        p.Stands (Placed.layout front) (Placed.layout back ++ rear) := by
  have start : Position.origin = .behind [] := rfl
  rw [Text.tokens, start] at split
  obtain ⟨ps, rear, laid, same, tokens⟩ := tokensFrom_laid split
  refine ⟨ps, rear, same, laid.gap, tokens, ?_⟩
  rintro front p back rfl
  exact laid.stands

/-! ## Lines -/

theorem Position.behind_line_le (s t : Text) : (behind s).line ≤ (behind (s ++ t)).line := by
  simp only [behind, List.count_append]
  omega

/-- The tokens of a layout are in the order of their lines, all behind what is before it. -/
theorem Placed.Laid.lines {rear before : Text} {ps : List Placed} (laid : Laid rear before ps) :
    (∀ t ∈ ps.map (·.token), (Position.behind before).line ≤ t.pos.line ∧
      t.pos.line ≤ (Position.behind (before ++ layout ps)).line) ∧
    (ps.map (·.token)).Pairwise fun t u => t.pos.line ≤ u.pos.line := by
  induction ps generalizing before with
  | nil => simp
  | cons p ps ih =>
    obtain ⟨stands, laid⟩ := laid
    obtain ⟨within, ordered⟩ := ih laid
    have starts : (Position.behind before).line ≤ p.token.pos.line := by
      rw [stands.pos]
      exact Position.behind_line_le _ _
    have ends : p.token.pos.line ≤ (Position.behind (before ++ p.text)).line := by
      rw [stands.pos, text, ← List.append_assoc]
      exact Position.behind_line_le _ _
    have whole : before ++ layout (p :: ps) = before ++ p.text ++ layout ps := by simp
    simp only [whole, List.map_cons, List.forall_mem_cons, List.pairwise_cons]
    refine ⟨⟨⟨starts, Int.le_trans ends (Position.behind_line_le _ _)⟩, fun t member => ?_⟩,
      fun t member => ?_, ordered⟩
    · obtain ⟨after, before⟩ := within t member
      exact ⟨Int.le_trans (Position.behind_line_le _ _) after, before⟩
    · exact Int.le_trans ends (within t member).1

/-- The tokens of a source are in the order of their lines. -/
theorem Text.tokens_lines {source : Text} {tokens : List Token}
    (split : source.tokens = .ok tokens) :
    tokens.Pairwise fun t u => t.pos.line ≤ u.pos.line := by
  have start : Position.origin = .behind [] := rfl
  rw [Text.tokens, start] at split
  obtain ⟨ps, rear, laid, whole, rfl⟩ := tokensFrom_laid split
  obtain ⟨within, ordered⟩ := laid.lines
  refine List.pairwise_append.2 ⟨ordered, List.pairwise_singleton _ _, fun t member u last => ?_⟩
  obtain rfl := List.mem_singleton.1 last
  rw [List.nil_append, whole]
  exact Int.le_trans (within t member).2 (Position.behind_line_le _ _)

/-- A source with a block comment over two lines and a line comment up to the end. -/
def Text.commented : Text := "a<=2.5/*\n*/; // b"

/-- The tokens of `Text.commented`. -/
def Text.commentedTokens : List Token :=
  [⟨.identifier, "a", ⟨1, 1⟩⟩, ⟨.operator .lessEqual, "<=", ⟨1, 2⟩⟩,
    ⟨.floatLiteral, "2.5", ⟨1, 4⟩⟩, ⟨.semicolon, ";", ⟨2, 3⟩⟩, ⟨.endOfInput, [], ⟨2, 9⟩⟩]

theorem Text.tokens_commented : Text.commented.tokens = .ok Text.commentedTokens := by
  have found : Text.commented.tokens.toOption = some Text.commentedTokens := by decide +kernel
  cases split : Text.commented.tokens with
  | error fault => simp [split, Except.toOption] at found
  | ok tokens =>
    rw [split] at found
    exact congrArg Except.ok (Option.some.inj found)

theorem Text.commented_laid : Text.commented.tokens = .ok Text.commentedTokens ∧
    ∃ ps rear, Text.commented = Placed.layout ps ++ rear ∧ Text.Gap rear [] ∧
      Text.commentedTokens =
        ps.map (·.token) ++ [⟨.endOfInput, [], .behind Text.commented⟩] ∧
      ∀ front p back, ps = front ++ p :: back →
        p.Stands (Placed.layout front) (Placed.layout back ++ rear) :=
  ⟨Text.tokens_commented, Text.tokens_laid Text.tokens_commented⟩

end ProcCheck
