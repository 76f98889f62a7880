import ProcCheck.Report.Style
import ProcCheck.SyntaxError
import ProcCheck.Symbol

/-!
# Excerpts of source under a message

A message is shown with the source line that it is about and carets under the columns it
covers. A line of 0 or less has no excerpt, only the message.
-/

namespace ProcCheck

/-- A message about a place in a source. -/
structure Snippet where
  header : Text
  message : Text
  location : Location
  source : Text := []
  hint : Text := []

namespace Snippet

/-- The content of a line, counted from 1; nothing if there is no such line. -/
def lineContent (source : Text) (line : Int) : Text :=
  if line ≤ 0 then [] else (source.lines[line.toNat - 1]?).getD []

/-- The lines of an excerpt, below its message. -/
def excerpt (s : Snippet) (styling : Styling) : List Text :=
  let number := Text.ofInt s.location.line
  let blue (t : Text) : Text := styling.apply .blue t
  let margin := blue (Text.spaces number.length)
  let carets := Text.repeated '^' (max 1 (s.location.len.getD 1)).toNat
  let pointer := Text.spaces (s.location.col - 1).toNat ++ styling.apply .redBold carets
  [margin ++ " " ++ blue "-->" ++ " line " ++ number ++ ":" ++ Text.ofInt s.location.col,
    margin ++ " " ++ blue "|",
    blue number ++ " " ++ blue "|" ++ " " ++ lineContent s.source s.location.line,
    margin ++ " " ++ blue "|" ++ " " ++ pointer,
    margin ++ " " ++ blue "|"] ++
  if s.hint.isEmpty then [] else [margin ++ " " ++ blue "=" ++ " " ++ s.hint]

/-- The message and, if it is about a line, the excerpt. -/
def render (s : Snippet) (styling : Styling) : Text :=
  let title := styling.apply .redBold s.header ++ " " ++ styling.apply .bold s.message
  if s.location.line ≤ 0 then title
  else Text.join [.lineFeed] (title :: s.excerpt styling)

end Snippet

/-- A message about the syntax of a source, on a line of its own. -/
def renderError (styling : Styling) (source message : Text) (location : Location)
    (hint : Text := []) : Text :=
  .lineFeed :: Snippet.render ⟨"Error:", message, location, source, hint⟩ styling

/-- A syntax error over its source line. -/
def SyntaxError.render (e : SyntaxError) (styling : Styling) (source : Text) : Text :=
  renderError styling source e.message e.location

/-- The columns of a line from its first to its last unit that is not blank. -/
def contentLocation (source : Text) (line : Int) : Location :=
  let content := Snippet.lineContent source line
  let indent := content.length - content.trimStart.length
  ⟨line, indent + 1, some content.trim.length⟩

/-- A diagnostic over its source line. It knows no column, so the whole line is marked. -/
def Diagnostic.render (d : Diagnostic) (styling : Styling) (source : Text) : Text :=
  Snippet.render ⟨"Semantic error:", d.message, contentLocation source d.line, source, []⟩ styling

end ProcCheck
