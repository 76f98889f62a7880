import ProcCheck.Text

/-!
# Styled texts

A report names the styles of its texts, and a `Styling` says how texts are shown in them. With
colours off a text stays as it is. On a terminal it is put between control sequences that set and
reset how it is shown; a styled text never carries its style over a line break: the style is closed
before the break and opened again behind it. `Text.unstyled` takes all control sequences out again.
-/

namespace ProcCheck

/-- A property of shown text. -/
inductive Attribute where
  | bold
  | underline
  | red
  | green
  | yellow
  | blue
  | white
  | gray
  deriving DecidableEq, Repr

/-- Attributes that hold together, the outermost first. -/
abbrev Style := List Attribute

namespace Style

def bold : Style := [.bold]
def underline : Style := [.underline]
def red : Style := [.red]
def green : Style := [.green]
def yellow : Style := [.yellow]
def blue : Style := [.blue]
def white : Style := [.white]
def gray : Style := [.gray]

/-- Red and, inside it, bold. -/
def redBold : Style := red ++ bold

end Style

/-- How texts are shown in styles. -/
structure Styling where
  apply : Style → Text → Text

/-- Without colours a text stays as it is. -/
def Styling.plain : Styling := ⟨fun _ t => t⟩

/-! ## Terminals -/

/-- The control sequence of a number: escape, bracket, the number, `m`. -/
def controlSequence (n : Nat) : Text := 0x1B :: '[' :: (Text.ofNat n ++ "m")

/-- The control sequences of some numbers, one after the other. -/
def controlSequences (ns : List Nat) : Text := ns.flatMap controlSequence

namespace Attribute

/-- The number that switches an attribute on. -/
def on : Attribute → Nat
  | bold => 1
  | underline => 4
  | red => 31
  | green => 32
  | yellow => 33
  | blue => 34
  | white => 37
  | gray => 90

/-- The number that switches an attribute off; all colours have the same. -/
def off : Attribute → Nat
  | bold => 22
  | underline => 24
  | red | green | yellow | blue | white | gray => 39

end Attribute

namespace Style

/-- The sequences that switch a style on, from the outside in. -/
def opening (style : Style) : Text := controlSequences (style.map Attribute.on)

/-- The sequences that switch a style off, from the inside out. -/
def closing (style : Style) : Text := controlSequences (style.reverse.map Attribute.off)

/-- A text whose line breaks interrupt the style. A carriage return before the line feed
belongs to the break. -/
def acrossLines (style : Style) : Text → Text
  | [] => []
  | [u] => if u = .lineFeed then style.closing ++ u :: style.opening else [u]
  | u :: v :: rest =>
    if u = .lineFeed then style.closing ++ u :: style.opening ++ acrossLines style (v :: rest)
    else if u = 0x0D ∧ v = .lineFeed then
      style.closing ++ u :: v :: style.opening ++ acrossLines style rest
    else u :: acrossLines style (v :: rest)

end Style

namespace Styling

/-- On a terminal a text stands between the sequences of its style; an empty text needs none. A
text is taken to have no sequences of its own: one that switches the style off does so. -/
def terminal : Styling where
  apply style t := if t.isEmpty then t else style.opening ++ style.acrossLines t ++ style.closing

/-- Colours are on, as on a terminal, or off. -/
instance : Coe Bool Styling where
  coe colours := if colours then terminal else plain

end Styling

namespace Text

/-- The units between the bracket and the letter of a control sequence. -/
def isParameter (u : CodeUnit) : Bool := u.isDigit || u == ';'

/-- How many units the control sequence at the start of a text has after its first, if there
is one: an escape, a bracket, numbers with semicolons, and a letter. -/
def sequenceTail? (u : CodeUnit) (rest : Text) : Option Nat :=
  if u = 0x1B ∧ rest.startsWith '[' then
    let parameters := ((rest.drop 1).takeWhile isParameter).length
    match (rest.drop (parameters + 1)).head? with
    | some last => if last.isLetter then some (parameters + 2) else none
    | none => none
  else none

/-- The text without its control sequences. What is left is not looked at again. -/
def unstyled (t : Text) : Text :=
  match t with
  | [] => []
  | u :: rest =>
    match sequenceTail? u rest with
    | some more => unstyled (rest.drop more)
    | none => u :: unstyled rest
termination_by t.length
decreasing_by all_goals simp only [List.length_drop, List.length_cons]; omega

end Text

end ProcCheck
