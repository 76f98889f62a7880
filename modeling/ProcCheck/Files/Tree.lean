import ProcCheck.Files.Path
import ProcCheck.Text.Utf8

/-!
# Trees of files

A tree lists its files and directories by their paths. Operations fail like those of a file
system; a `FileError` tells why, in which call and for which path.
-/

namespace ProcCheck

/-- Why an operation on files fails. -/
inductive FileFault where
  | notFound
  | alreadyExists
  | notDirectory
  | isDirectory
  deriving DecidableEq, Repr

/-- The short name of a fault. -/
def FileFault.code : FileFault → Text
  | notFound => "ENOENT"
  | alreadyExists => "EEXIST"
  | notDirectory => "ENOTDIR"
  | isDirectory => "EISDIR"

/-- The wording of a fault. -/
def FileFault.description : FileFault → Text
  | notFound => "no such file or directory"
  | alreadyExists => "file already exists"
  | notDirectory => "not a directory"
  | isDirectory => "illegal operation on a directory"

/-- The calls that can fail. -/
inductive FileCall where
  | openFile
  | read
  | makeDir
  deriving DecidableEq, Repr

/-- The name of a call. -/
def FileCall.name : FileCall → Text
  | openFile => "open"
  | read => "read"
  | makeDir => "mkdir"

/-- A fault, the call that met it and the path that it was given; reading has no path. -/
structure FileError where
  fault : FileFault
  call : FileCall
  path? : Option Text
  deriving DecidableEq, Repr

/-- The wording of a failure. -/
def FileError.message (e : FileError) : Text :=
  e.fault.code ++ ": " ++ e.fault.description ++ ", " ++ e.call.name ++
    match e.path? with
    | some path => " '" ++ path ++ "'"
    | none => []

/-- What a path leads to. -/
inductive FileEntry where
  | directory
  | file (content : Bytes)
  deriving DecidableEq, Repr

/-- Files and directories by their paths. The root is a directory without being listed. -/
structure FileTree where
  entries : List (Path × FileEntry) := []
  deriving DecidableEq, Repr

namespace FileTree

/-- What a path leads to. -/
def find? (t : FileTree) (path : Path) : Option FileEntry :=
  if path = [] then some .directory else t.entries.lookup path

/-- The tree with `entry` at a path. -/
def put (t : FileTree) (path : Path) (entry : FileEntry) : FileTree :=
  ⟨t.entries.filter (·.1 ≠ path) ++ [(path, entry)]⟩

/-- Leaving out the entries of a path takes away what it leads to, and nothing else. -/
theorem lookup_filter_ne (entries : List (Path × FileEntry)) (path other : Path) :
    (entries.filter (·.1 ≠ path)).lookup other =
      if other = path then none else entries.lookup other := by
  induction entries with
  | nil => split <;> rfl
  | cons e rest ih =>
    obtain ⟨p, entry⟩ := e
    rw [List.filter_cons]
    by_cases hp : p = path
    · rw [if_neg (by simp [hp]), ih]
      by_cases ho : other = path
      · rw [if_pos ho, if_pos ho]
      · rw [if_neg ho, if_neg ho, List.lookup_cons,
          beq_eq_false_iff_ne.2 fun h => ho (h.trans hp)]
    · rw [if_pos (by simp [hp]), List.lookup_cons, List.lookup_cons]
      by_cases h : other = p
      · simp [h, hp]
      · rw [beq_eq_false_iff_ne.2 h]
        exact ih

/-- Putting an entry changes what its own path leads to, and nothing else. -/
theorem find?_put (t : FileTree) {path : Path} (entry : FileEntry) (h : path ≠ []) (other : Path) :
    (t.put path entry).find? other = if other = path then some entry else t.find? other := by
  by_cases ho : other = path
  · rw [if_pos ho, find?, if_neg (ho ▸ h), put, List.lookup_append, lookup_filter_ne, if_pos ho]
    simp [ho]
  · rw [if_neg ho, find?, find?, put, List.lookup_append, lookup_filter_ne, if_neg ho,
      List.lookup_cons, beq_eq_false_iff_ne.2 ho, List.lookup_nil, Option.or_none]

/-- The tree without a path and all that is under it. -/
def remove (t : FileTree) (path : Path) : FileTree :=
  ⟨t.entries.filter fun e => !path.isPrefixOf e.1⟩

/-- Follows names from a directory, one after the other. -/
def walk (t : FileTree) (path : Path) : List Text → Except FileFault Path
  | [] => .ok path
  | name :: rest =>
    match t.find? path with
    | none => .error .notFound
    | some (.file _) => .error .notDirectory
    | some .directory =>
      if name = "." then walk t path rest
      else if name = ".." then walk t path.dropLast rest
      else walk t (path ++ [name]) rest

/-- The path that a text leads to from the directory `base`. A slash at the end asks for a
directory, and no text at all leads nowhere. -/
def locate (t : FileTree) (base : Path) (text : Text) : Except FileFault Path :=
  if text.isEmpty then .error .notFound
  else
    let names := Path.names text ++ if text.endsWith '/' then [Text.ofString "."] else []
    t.walk (if Path.isAbsolute text then [] else base) names

/-- The content of the file that a text leads to. -/
def read (t : FileTree) (base : Path) (text : Text) : Except FileError Bytes :=
  match t.locate base text with
  | .error fault => .error ⟨fault, .openFile, some text⟩
  | .ok path =>
    match t.find? path with
    | none => .error ⟨.notFound, .openFile, some text⟩
    | some .directory => .error ⟨.isDirectory, .read, none⟩
    | some (.file content) => .ok content

/-- The tree with `content` in the file that a text leads to. -/
def write (t : FileTree) (base : Path) (text : Text) (content : Bytes) :
    Except FileError FileTree :=
  match t.locate base text with
  | .error fault => .error ⟨fault, .openFile, some text⟩
  | .ok path =>
    match t.find? path with
    | some .directory => .error ⟨.isDirectory, .openFile, some text⟩
    | _ => .ok (t.put path (.file content))

/-- The tree with the directories from `path` through `names`, those that are there already
included. -/
def makeDirs (t : FileTree) (path : Path) : List Text → Except FileFault FileTree
  | [] => .ok t
  | name :: rest =>
    let next := path ++ [name]
    match t.find? next with
    | some .directory => makeDirs t next rest
    | some (.file _) => .error (if rest.isEmpty then .alreadyExists else .notDirectory)
    | none => makeDirs (t.put next .directory) next rest

/-- The tree with the directory that a text names and all above it. -/
def makeDir (t : FileTree) (base : Path) (text : Text) : Except FileError FileTree :=
  (t.makeDirs [] (Path.resolve base text)).mapError fun fault => ⟨fault, .makeDir, some text⟩

/-- What is listed under a path, by the names from there on. -/
def under (t : FileTree) (path : Path) : List (Path × FileEntry) :=
  t.entries.filterMap fun e =>
    if path.isPrefixOf e.1 ∧ path ≠ e.1 then some (e.1.drop path.length, e.2) else none

end FileTree

end ProcCheck
