import ProcCheck.Files.Tree
import ProcCheck.Proofs.Files.Path

/-!
# What operations on files change

Making a directory adds the missing ones on the way to it and changes nothing else. In it a file can
be written, unless there is a directory of its name, and then only that file changes.
-/

namespace ProcCheck.FileTree

/-! ## Making directories -/

/-- What was there stays, and what is new is a directory on the way. -/
theorem find?_makeDirs {t t' : FileTree} {path names : List Text}
    (made : t.makeDirs path names = .ok t') (other : Path) :
    t'.find? other = t.find? other ∨
      t.find? other = none ∧ t'.find? other = some .directory ∧ other <+: path ++ names := by
  induction names generalizing t path with
  | nil =>
    cases made
    exact .inl rfl
  | cons name rest ih =>
    have further : path ++ [name] ++ rest = path ++ name :: rest := by simp
    rw [makeDirs] at made
    split at made
    next found => exact further ▸ ih made
    next content found => split at made <;> cases made
    next missing =>
      have below : path ++ [name] ≠ [] := by simp
      have change := t.find?_put .directory below other
      by_cases next : other = path ++ [name]
      · -- The new directory itself: making the others on the way does not change it again.
        rw [if_pos next] at change
        have kept := (ih made).resolve_right fun new => by simp [change] at new
        exact .inr ⟨next ▸ missing, kept.trans change, next ▸ ⟨rest, further⟩⟩
      · rw [if_neg next] at change
        rw [← change, ← further]
        exact ih made

theorem makeDirs_keeps {t t' : FileTree} {path names : List Text}
    (made : t.makeDirs path names = .ok t') {other : Path} {entry : FileEntry}
    (found : t.find? other = some entry) : t'.find? other = some entry := by
  rcases find?_makeDirs made other with same | ⟨missing, -⟩
  · rw [same, found]
  · rw [found] at missing
    cases missing

/-- All paths on the way lead to directories then. -/
theorem isDirectory_makeDirs {t t' : FileTree} {path names : List Text}
    (made : t.makeDirs path names = .ok t') (start : t.find? path = some .directory)
    {way : List Text} (onTheWay : way <+: names) :
    t'.find? (path ++ way) = some .directory := by
  induction names generalizing t path way with
  | nil =>
    cases made
    rw [List.prefix_nil.1 onTheWay, List.append_nil, start]
  | cons name rest ih =>
    cases way with
    | nil =>
      rw [List.append_nil]
      exact makeDirs_keeps made start
    | cons name' way =>
      obtain ⟨rfl, later⟩ := List.cons_prefix_cons.1 onTheWay
      rw [List.append_cons]
      rw [makeDirs] at made
      split at made
      next found => exact ih made found later
      next content found => split at made <;> cases made
      next missing =>
        refine ih made ?_ later
        rw [find?_put _ _ (by simp), if_pos rfl]

/-! ## Following names -/

theorem walk_normal {t : FileTree} {path names : List Text} (normal : Path.IsNormal names)
    (directories : ∀ way, way <+: names → way ≠ names → t.find? (path ++ way) = some .directory) :
    t.walk path names = .ok (path ++ names) := by
  induction names generalizing path with
  | nil => rw [walk, List.append_nil]
  | cons name rest ih =>
    obtain ⟨isName, later⟩ := List.forall_mem_cons.1 normal
    have here := directories [] (List.nil_prefix ..) (by simp)
    rw [List.append_nil] at here
    rw [walk, here]
    simp only [isName.notPoint, isName.notPoints, if_false]
    have further : path ++ name :: rest = path ++ [name] ++ rest := by simp
    rw [further]
    refine ih later fun way onTheWay proper => ?_
    have there := directories (name :: way) (List.cons_prefix_cons.2 ⟨rfl, onTheWay⟩)
      (by simpa using proper)
    rwa [List.append_cons] at there

/-- The text of a file in a directory leads to that file, if there is such a directory. -/
theorem locate_text {t : FileTree} {dir : Path} {name : Text} (normal : Path.IsNormal dir)
    (isName : Path.IsName name) (directories : ∀ way, way <+: dir → t.find? way = some .directory)
    (base : Path) : t.locate base (Path.text (dir ++ [name])) = .ok (dir ++ [name]) := by
  have some : (Path.text (dir ++ [name])).isEmpty = false := rfl
  rw [locate, some, Path.isAbsolute_text, Path.names_text (normal.concat isName),
    Path.endsWith_text dir isName]
  simp only [Bool.false_eq_true, if_false, if_true, List.append_nil]
  refine walk_normal (normal.concat isName) fun way onTheWay proper => ?_
  have inner := (List.prefix_concat_iff.1 onTheWay).resolve_left proper
  exact directories way inner

/-! ## A file in a directory -/

/-- All that differs between two trees is a file, which may be new, and directories above it that
were missing. -/
structure ChangesOnly (t t' : FileTree) (file : Path) : Prop where
  kept : ∀ path ≠ file, t.find? path ≠ none → t'.find? path = t.find? path
  added : ∀ path ≠ file, t.find? path = none →
    t'.find? path = none ∨ t'.find? path = some .directory ∧ path <+: file
  file : t'.find? file = t.find? file ∨
    t.find? file ≠ some .directory ∧ ∃ content, t'.find? file = some (.file content)

theorem ChangesOnly.refl (t : FileTree) (file : Path) : ChangesOnly t t file :=
  ⟨fun _ _ _ => rfl, fun _ _ missing => .inl missing, .inl rfl⟩

variable {t t' : FileTree} {dir : Path} {name : Text}

theorem changesOnly_makeDirs (made : t.makeDirs [] dir = .ok t') (name : Text) :
    ChangesOnly t t' (dir ++ [name]) := by
  have above : dir <+: dir ++ [name] := List.prefix_append ..
  refine ⟨fun path _ present => ?_, fun path _ missing => ?_, ?_⟩
  · exact (find?_makeDirs made path).resolve_right fun new => present new.1
  · rcases find?_makeDirs made path with same | ⟨-, directory, onTheWay⟩
    · exact .inl (same.trans missing)
    · exact .inr ⟨directory, onTheWay.trans above⟩
  · refine .inl ((find?_makeDirs made _).resolve_right fun ⟨_, _, onTheWay⟩ => ?_)
    have short : dir.length + 1 ≤ dir.length := by simpa using onTheWay.length_le
    omega

/-- A file takes its content, unless there is a directory in its place. -/
theorem write_text (normal : Path.IsNormal dir) (isName : Path.IsName name)
    (directories : ∀ way, way <+: dir → t.find? way = some .directory) (base : Path)
    (content : Bytes) :
    t.write base (Path.join (Path.text dir) name) content =
      if t.find? (dir ++ [name]) = some .directory then
        .error ⟨.isDirectory, .openFile, some (Path.text (dir ++ [name]))⟩
      else .ok (t.put (dir ++ [name]) (.file content)) := by
  rw [Path.join_text normal isName, write, locate_text normal isName directories]
  simp only
  split
  next found => rw [if_pos found]
  next other => rw [if_neg other]

/-- A file that is written into a directory that was made before is all that has changed, with the
directory. -/
theorem ChangesOnly.put (change : ChangesOnly t t' (dir ++ [name])) (content : Bytes)
    (free : t'.find? (dir ++ [name]) ≠ some .directory) :
    ChangesOnly t (t'.put (dir ++ [name]) (.file content)) (dir ++ [name]) := by
  have below : dir ++ [name] ≠ [] := by simp
  have put := t'.find?_put (.file content) below
  refine ⟨fun path other present => ?_, fun path other missing => ?_, .inr ⟨fun directory => ?_, ?_⟩⟩
  · rw [put, if_neg other, change.kept path other present]
  · rw [put, if_neg other]
    exact change.added path other missing
  · rcases change.file with same | ⟨other, -⟩
    · exact free (same.trans directory)
    · exact other directory
  · exact ⟨content, by rw [put, if_pos rfl]⟩

end ProcCheck.FileTree
