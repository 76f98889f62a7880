import ProcCheck.Text

/-!
# Paths

A path is written as names with slashes between them. Normalising it goes by the names alone:
a point stands for the same directory, two points take back the name before them.
-/

namespace ProcCheck

/-- The names from the root to a file or a directory. -/
abbrev Path := List Text

namespace Path

/-- The names of a written path, without empty ones. -/
def names (text : Text) : List Text :=
  (text.splitOn ('/' : CodeUnit)).filter (!·.isEmpty)

/-- Whether a written path starts at the root. -/
def isAbsolute (text : Text) : Bool := text.startsWith '/'

/-- The names so far with one more. With `climbing`, two points that have nothing to take back
are kept. -/
def step (climbing : Bool) (path : List Text) (name : Text) : List Text :=
  if name = "." then path
  else if name = ".." then
    if path.getLast?.any (· ≠ Text.ofString "..") then path.dropLast
    else if climbing then path ++ [name]
    else []
  else path ++ [name]

/-- The path that a text names, seen from the directory `base`. -/
def resolve (base : Path) (text : Text) : Path :=
  (names text).foldl (step false) (if isAbsolute text then [] else base)

/-- How a path is written, from the root on. -/
def text (path : Path) : Text := '/' :: Text.join "/" path

/-- The written path of the file `name` in the directory that a text names, without detours. -/
def join (dir name : Text) : Text :=
  let path := (names dir ++ names name).foldl (step (!isAbsolute dir)) []
  if isAbsolute dir then text path else Text.join "/" path

end Path

end ProcCheck
