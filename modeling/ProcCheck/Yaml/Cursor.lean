import ProcCheck.Yaml.Value

/-!
# A place in a document

A `Cursor` is the text from a place on, with what the layout of the document needs to know of
that place: its line, its column and how far its line is indented.
-/

namespace ProcCheck.Yaml

/-- The space, the only unit that indents. -/
def isIndent (u : CodeUnit) : Bool := u == ' '

/-- Spaces and tabs. -/
def isSpace (u : CodeUnit) : Bool := isIndent u || u == 0x09

/-- The units that end a line. -/
def isBreak (u : CodeUnit) : Bool := u == 0x0A || u == 0x0D

/-- Spaces, tabs and the ends of lines. -/
def isSeparator (u : CodeUnit) : Bool := isSpace u || isBreak u

/-- The punctuation of collections in brackets. -/
def isFlowSign (u : CodeUnit) : Bool :=
  u == ',' || u == '[' || u == ']' || u == 0x7B || u == 0x7D

/-- A place in a document. -/
structure Cursor where
  rest : Text
  line : Nat := 0
  column : Nat := 0
  /-- How many spaces the line starts with. -/
  indent : Nat := 0
  /-- Whether a tab has been skipped on this line. -/
  tabbed : Bool := false

namespace Cursor

/-- The unit at the cursor. -/
def head? (c : Cursor) : Option CodeUnit := c.rest.head?

/-- Whether the unit `u` is at the cursor. -/
def isAt (c : Cursor) (u : CodeUnit) : Bool := c.rest.startsWith u

/-- Whether the unit `u` is at the cursor and stands alone: blank space or the end of the line
comes next. -/
def isAtSign (c : Cursor) (u : CodeUnit) : Bool :=
  c.isAt u && ((c.rest.drop 1).head?.any isSeparator)

/-- Whether nothing but spaces and tabs stands before the next line break. -/
def atLineEnd (c : Cursor) : Bool := (c.rest.dropWhile isSpace).head?.any isBreak

/-- Whether all has been read. -/
def atEnd (c : Cursor) : Bool := c.rest.isEmpty

/-- The cursor `n` units further on the same line. -/
def skip (c : Cursor) (n : Nat) : Cursor :=
  { c with rest := c.rest.drop n, column := c.column + n }

/-- The cursor behind the spaces and tabs that it is at. -/
def skipSpaces (c : Cursor) : Cursor :=
  let spaces := c.rest.takeWhile isSpace
  { c.skip spaces.length with tabbed := c.tabbed || spaces.contains 0x09 }

/-- The cursor behind the comment that it is at. -/
def skipComment (c : Cursor) : Cursor :=
  if c.isAt '#' then c.skip (c.rest.takeWhile (!isBreak ·)).length else c

/-- How many units the break at the start of a text has. -/
def breakLength : Text → Nat
  | u :: v :: _ => if u = 0x0D ∧ v = 0x0A then 2 else 1
  | _ => 1

/-- The cursor behind the line break that it is at and the spaces that the next line starts
with. -/
def nextLine (c : Cursor) : Cursor :=
  let rest := c.rest.drop (breakLength c.rest)
  let indent := (rest.takeWhile isIndent).length
  ⟨rest.drop indent, c.line + 1, indent, indent, false⟩

/-- Skips blank space, line breaks and, where they are allowed, comments, over at most `bound`
lines; counts the breaks. -/
def separationWithin (comments : Bool) : Nat → Cursor → Nat × Cursor
  | 0, c => (0, c)
  | bound + 1, c =>
    let c := c.skipSpaces
    let c := if comments then c.skipComment else c
    if c.head?.any isBreak then
      let (breaks, c) := separationWithin comments bound c.nextLine
      (breaks + 1, c)
    else (0, c)

/-- Skips blank space, line breaks and, where they are allowed, comments; counts the breaks. -/
def separation (comments : Bool) (c : Cursor) : Nat × Cursor :=
  separationWithin comments (c.rest.length + 1) c

/-- Whether the cursor is at a line of three hyphens or three points. -/
def atDocumentMark (c : Cursor) : Bool :=
  let mark := c.rest.take 3
  c.column == 0 && (mark == Text.ofString "---" || mark == Text.ofString "...") &&
    (c.rest.drop 3).head?.all isSeparator

end Cursor

/-- What `breaks` line breaks inside a scalar stand for: one is a space, and of more all but
the first are kept. -/
def foldedBreaks (breaks : Nat) : Text :=
  if breaks = 1 then " " else Text.repeated .lineFeed (breaks - 1)

/-- A reader of a document. -/
abbrev Reader := StateT Cursor (Except Fault)

/-- Skips blank space, comments and line breaks; counts the breaks. -/
def skipSeparation : Reader Nat := fun c => .ok (c.separation true)

end ProcCheck.Yaml
