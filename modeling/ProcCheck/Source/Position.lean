import ProcCheck.Text

/-!
# Places in a source text

Lines and columns count from 1 and only a line feed ends a line. They are integers and not
natural numbers because a place may also be given from outside, where line 0 stands for the
program as a whole and nothing forbids a negative number.
-/

namespace ProcCheck

/-- A line and a column, both counted from 1. -/
structure Position where
  line : Int
  col : Int
  deriving DecidableEq, Repr, Inhabited

namespace Position

/-- The first place of a text. -/
def origin : Position := ⟨1, 1⟩

/-- The place after the unit `u` that stands at `p`. -/
def next (p : Position) (u : CodeUnit) : Position :=
  if u = CodeUnit.lineFeed then ⟨p.line + 1, 1⟩ else ⟨p.line, p.col + 1⟩

/-- The place after a text that starts at `p`. -/
def after (p : Position) (t : Text) : Position := t.foldl next p

@[simp] theorem after_nil (p : Position) : p.after [] = p := rfl

@[simp] theorem after_cons (p : Position) (u : CodeUnit) (t : Text) :
    p.after (u :: t) = (p.next u).after t := rfl

end Position

/-- The place of a first and the place behind a last unit. -/
structure Span where
  start : Position
  stop : Position
  deriving DecidableEq, Repr, Inhabited

namespace Span

/-- From the start of one span to the end of another. -/
instance : Append Span := ⟨fun a b => ⟨a.start, b.stop⟩⟩

@[simp] theorem start_append (a b : Span) : (a ++ b).start = a.start := rfl

@[simp] theorem stop_append (a b : Span) : (a ++ b).stop = b.stop := rfl

/-- The line that a construct is reported at. -/
def line (s : Span) : Int := s.start.line

end Span

/-- A stretch of source: the spellings of its tokens without the space between them, and
where it stands. -/
structure Excerpt where
  text : Text
  span : Span
  deriving DecidableEq, Repr, Inhabited

namespace Excerpt

instance : Append Excerpt := ⟨fun a b => ⟨a.text ++ b.text, a.span ++ b.span⟩⟩

@[simp] theorem text_append (a b : Excerpt) : (a ++ b).text = a.text ++ b.text := rfl

@[simp] theorem span_append (a b : Excerpt) : (a ++ b).span = a.span ++ b.span := rfl

theorem append_assoc (a b c : Excerpt) : a ++ b ++ c = a ++ (b ++ c) := by
  change Excerpt.mk _ _ = Excerpt.mk _ _
  simp only [text_append, span_append, List.append_assoc]
  rfl

end Excerpt

/-- The place of a fault: a line, a column and, where known, how many units it covers. -/
structure Location where
  line : Int
  col : Int
  len : Option Int := none
  deriving DecidableEq, Repr, Inhabited

end ProcCheck
