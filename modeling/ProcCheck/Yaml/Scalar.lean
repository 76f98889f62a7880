import ProcCheck.Yaml.Cursor
import ProcCheck.Number.Base

/-!
# Scalars

Scalars in single quotes, in double quotes and without quotes. A scalar may go on over several
lines, whose breaks are folded; the spaces and tabs around a break belong to it.
-/

namespace ProcCheck.Yaml

/-- The quote in which nothing but itself is escaped. -/
def singleQuote : CodeUnit := 0x27

/-- Whether a quoted scalar may hold the unit: control characters are not allowed. -/
def isQuotable (u : CodeUnit) : Bool := u == 0x09 || 0x20 ≤ u

/-- The content of a scalar from behind its opening quote on, of at most `bound` units. -/
def singleQuoted : Nat → Cursor → Except Fault (Text × Cursor)
  | 0, _ => .error .unclosedQuote
  | bound + 1, c =>
    match c.rest with
    | [] => .error .unclosedQuote
    | u :: rest =>
      if u = singleQuote then
        if Text.startsWith rest singleQuote then do
          let (t, c) ← singleQuoted bound (c.skip 2)
          return (u :: t, c)
        else .ok ([], c.skip 1)
      else if c.atLineEnd then do
        let (breaks, c) := c.separation false
        let (t, c) ← singleQuoted bound c
        return (foldedBreaks breaks ++ t, c)
      else if c.atDocumentMark then .error .unclosedQuote
      else if !isQuotable u then .error .controlCharacter
      else do
        let (t, c) ← singleQuoted bound (c.skip 1)
        return (u :: t, c)

/-- What an escaped unit stands for. -/
def escapes : List (CodeUnit × CodeUnit) :=
  [('0', 0x00), ('a', 0x07), ('b', 0x08), ('t', 0x09), (0x09, 0x09), ('n', 0x0A), ('v', 0x0B),
    ('f', 0x0C), ('r', 0x0D), ('e', 0x1B), (' ', ' '), (.quote, .quote), ('/', '/'),
    (0x5C, 0x5C), ('N', 0x85), ('_', 0xA0), ('L', 0x2028), ('P', 0x2029)]

/-- How many hexadecimal digits follow an escaped unit. -/
def hexLengths : List (CodeUnit × Nat) := [('x', 2), ('u', 4), ('U', 8)]

/-- The value of hexadecimal digits, as many as `n`. -/
def hexOf? (n : Nat) (t : Text) : Option Nat :=
  if n ≤ t.length then Text.natOf? 16 (t.take n) else none

/-- The text of an escaped code. It is read as a signed number of 32 bits, and of a negative
one the low 16 bits count. -/
def ofCode (code : Nat) : Text :=
  if code < 0x80000000 then CodeUnit.ofCodePoint code else [code.toUInt16]

/-- What an escape stands for, given the text behind the backslash, and how many units of that
text belong to it. -/
def escape? : Text → Option (Text × Nat)
  | [] => none
  | u :: rest =>
    match escapes.lookup u with
    | some v => some ([v], 1)
    | none => do
      let n ← hexLengths.lookup u
      let code ← hexOf? n rest
      return (ofCode code, n + 1)

/-- The content of a scalar from behind its opening double quote on, of at most `bound`
units. -/
def doubleQuoted : Nat → Cursor → Except Fault (Text × Cursor)
  | 0, _ => .error .unclosedQuote
  | bound + 1, c =>
    match c.rest with
    | [] => .error .unclosedQuote
    | u :: rest =>
      if u = .quote then .ok ([], c.skip 1)
      else if u = 0x5C then
        if rest.head?.any isBreak then doubleQuoted bound ((c.skip 1).separation false).2
        else match escape? rest with
          | none => .error .unknownEscape
          | some (content, length) => do
            let (t, c) ← doubleQuoted bound (c.skip (length + 1))
            return (content ++ t, c)
      else if c.atLineEnd then do
        let (breaks, c) := c.separation false
        let (t, c) ← doubleQuoted bound c
        return (foldedBreaks breaks ++ t, c)
      else if c.atDocumentMark then .error .unclosedQuote
      else if !isQuotable u then .error .controlCharacter
      else do
        let (t, c) ← doubleQuoted bound (c.skip 1)
        return (u :: t, c)

/-- The signs that no plain scalar starts with: the one of a comment, those of properties,
aliases, tags and block scalars, the quotes, and three reserved ones. -/
def reservedSigns : List CodeUnit :=
  ['#', '&', '*', '!', '|', '>', singleQuote, .quote, '%', '@', 0x60]

/-- The units that no plain scalar starts with. -/
def cannotStartPlain (u : CodeUnit) : Bool :=
  isSeparator u || isFlowSign u || reservedSigns.contains u

/-- The part of a plain scalar that stands on one line: up to a colon or a comment sign that
stands alone, the end of the line or, in brackets, their punctuation. `prev` is the unit
before. -/
def plainRun (inFlow : Bool) (prev : CodeUnit) : Text → Text
  | [] => []
  | u :: rest =>
    let next := rest.headD .lineFeed
    if isBreak u || (u = ':' && (isSeparator next || inFlow && isFlowSign next)) ||
        (u = '#' && isSeparator prev) || (inFlow && isFlowSign u) then []
    else u :: plainRun inFlow u rest

/-- A text without the spaces and tabs at its end. -/
def trimSpaces (t : Text) : Text := (t.reverse.dropWhile isSpace).reverse

/-- Whether a plain scalar may hold the unit. -/
def isPrintable (u : CodeUnit) : Bool :=
  (u == 0x09 || 0x20 ≤ u) && !(0x7F ≤ u && u ≤ 0x9F && u != 0x85) && u < 0xFFFE

/-- The lines of a plain scalar, at most `bound`. A further line belongs to it if it is
indented by `indent` or more. -/
def plainLines (indent : Int) (inFlow : Bool) : Nat → Cursor → Except Fault (Text × Cursor)
  | 0, c => .ok ([], c)
  | bound + 1, c =>
    let run := plainRun inFlow .lineFeed c.rest
    let content := trimSpaces run
    let stop := c.skip run.length
    if !content.all isPrintable then .error .controlCharacter
    else if !stop.head?.any isBreak then .ok (content, stop)
    else
      let (breaks, next) := stop.separation false
      if indent ≤ next.indent then
        if next.atDocumentMark || (plainRun inFlow .lineFeed next.rest).isEmpty then
          .ok (content, next)
        else do
          let (t, c) ← plainLines indent inFlow bound next
          return (content ++ foldedBreaks breaks ++ t, c)
      else .ok (content, c.skip content.length)

/-- Whether a plain scalar starts at the cursor. A question mark or a hyphen that stands alone
starts none. -/
def startsPlain (inFlow : Bool) (c : Cursor) : Bool :=
  match c.rest with
  | [] => false
  | u :: rest =>
    let next := rest.headD .lineFeed
    let standsAlone := isSeparator next || (inFlow && isFlowSign next)
    !cannotStartPlain u && !((u = '?' || u = '-') && standsAlone) && !c.atDocumentMark &&
      !(plainRun inFlow 'x' c.rest).isEmpty

end ProcCheck.Yaml
