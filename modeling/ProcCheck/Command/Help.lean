import ProcCheck.Text

/-!
# Help

What a user is shown who asks how the program is called: its usage, and tables of what may be
given. A table has two columns, and a note that ends at the right margin.
-/

namespace ProcCheck

/-- The name that the program is called by. -/
def programName : Text := "basil"

/-- The version of the program. -/
def programVersion : Text := "0.1.0"

namespace Help

/-- The width of a page. -/
def pageWidth : Nat := 80

/-- A line of a table: what may be given, what it is for, and a note on its values. -/
structure Entry where
  label : Text
  purpose : Text
  note : Text := []

/-- A table with its title. -/
structure Table where
  title : Text
  entries : List Entry

namespace Entry

/-- A label, filled up to the width of its column, and the purpose. -/
def description (columnWidth : Nat) (e : Entry) : Text :=
  "  " ++ e.label ++ Text.spaces (columnWidth - e.label.length) ++ "  " ++ e.purpose

/-- The lines of an entry. The note has one of its own where it does not fit. -/
def lines (columnWidth : Nat) (e : Entry) : List Text :=
  let described := e.description columnWidth
  if e.note.isEmpty then [described]
  else
    let margin := pageWidth - e.note.length
    if described.length ≤ margin then
      [described ++ Text.spaces (margin - described.length) ++ e.note]
    else [described, Text.spaces margin ++ e.note]

end Entry

namespace Table

/-- The width of the column of labels: that of the longest one. -/
def columnWidth (t : Table) : Nat := t.entries.foldr (fun e n => max e.label.length n) 0

/-- The lines of a table. -/
def lines (t : Table) : List Text := t.title :: t.entries.flatMap (·.lines t.columnWidth)

end Table

/-- A page: its paragraphs, then its tables, with blank lines between them. -/
def page (paragraphs : List Text) (tables : List Table) : Text :=
  Text.join [.lineFeed, .lineFeed]
    (paragraphs ++ tables.map fun t => Text.join [.lineFeed] t.lines)

/-- How a command is called, what it does, what it takes, and its own options. -/
structure Topic where
  usage : Text
  purpose : Text
  positionals : List Entry
  options : List Entry := []

/-- The options that every command has. -/
def commonOptions : List Entry :=
  [⟨"--version", "Show version number", "[boolean]"⟩, ⟨"--help", "Show help", "[boolean]"⟩]

/-- The option that tells where the settings are. -/
def configEntry : Entry :=
  ⟨"--config", "Directory containing basil.yml", "[string] [default: \".\"]"⟩

/-- Checking files. -/
def check : Topic where
  usage := "check [files..]"
  purpose := "Check Basil source files for semantic errors"
  positionals :=
    [⟨"files", "Files to check (defaults to 'sources' in basil.yml)", "[array] [default: []]"⟩]
  options := [configEntry,
    ⟨"--json", "Print symbol tables and diagnostics as JSON", "[boolean] [default: false]"⟩]

/-- Showing symbols. -/
def symbols : Topic where
  usage := "symbols <file>"
  purpose := "Print the symbol tables of a Basil source file"
  positionals := [⟨"file", "File to analyze", "[string] [required]"⟩]
  options := [configEntry]

/-- Starting a project. -/
def init : Topic where
  usage := "init <name>"
  purpose := "Initialize a new Basil project"
  positionals := [⟨"name", "Name of the new project directory", "[string] [required]"⟩]

/-- How a command is called, the program's name included. -/
def Topic.call (t : Topic) : Text := programName ++ " " ++ t.usage

/-- The page on a command. -/
def Topic.text (t : Topic) : Text :=
  page [t.call, t.purpose]
    [⟨"Positionals:", t.positionals⟩, ⟨"Options:", commonOptions ++ t.options⟩]

/-- The page on the program. -/
def overview : Text :=
  page [programName ++ " <cmd> [args]"]
    [⟨"Commands:", [check, symbols, init].map fun t => ⟨t.call, t.purpose, []⟩⟩,
      ⟨"Options:", commonOptions⟩]

end Help

end ProcCheck
