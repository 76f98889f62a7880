import Mathlib.Data.List.Basic
import ProcCheck.Files.Path

/-!
# Normal paths

Resolving a text gives a normal path, one without empty names, slashes in names or detours. A normal
path is read back from its text, whatever the directory is that the text is seen from.
-/

namespace ProcCheck.Path

/-- A piece of a written path. -/
structure IsPiece (name : Text) : Prop where
  nonempty : name ≠ []
  unbroken : ('/' : CodeUnit) ∉ name

/-- The name of a file or a directory: a piece that is no detour. -/
structure IsName (name : Text) : Prop extends IsPiece name where
  notPoint : name ≠ "."
  notPoints : name ≠ ".."

/-- A path of names only. -/
def IsNormal (path : Path) : Prop := ∀ name ∈ path, IsName name

theorem isNormal_nil : IsNormal [] := nofun

theorem IsNormal.concat {path : Path} (normal : IsNormal path) {name : Text}
    (isName : IsName name) : IsNormal (path ++ [name]) := by
  intro n member
  rcases List.mem_append.1 member with before | last
  · exact normal n before
  · rwa [List.mem_singleton.1 last]

/-! ## Written paths -/

theorem not_mem_of_mem_splitOn {u : CodeUnit} {piece text : Text}
    (member : piece ∈ text.splitOn u) : u ∉ piece := by
  induction text generalizing piece with
  | nil =>
    rw [List.splitOn_nil, List.mem_singleton] at member
    simp [member]
  | cons v text ih =>
    rw [List.splitOn_cons_eq_if_modifyHead] at member
    split at member
    · rcases List.mem_cons.1 member with rfl | later
      · exact List.not_mem_nil
      · exact ih later
    next other =>
      cases pieces : text.splitOn u with
      | nil => exact absurd pieces (List.splitOn_ne_nil u text)
      | cons first pieces' =>
        rw [pieces, List.modifyHead_cons] at member
        rcases List.mem_cons.1 member with rfl | later
        · have inFirst : u ∉ first := ih (by simp [pieces])
          intro inside
          rcases List.mem_cons.1 inside with rfl | inside
          · simp at other
          · exact inFirst inside
        · exact ih (by simp [pieces, later])

theorem isPiece_of_mem_names {name text : Text} (member : name ∈ names text) : IsPiece name := by
  obtain ⟨piece, some⟩ := List.mem_filter.1 member
  exact ⟨by simpa using some, not_mem_of_mem_splitOn piece⟩

theorem names_text {path : Path} (normal : IsNormal path) : names (text path) = path := by
  have pieces : (path.filter fun name => !name.isEmpty) = path :=
    List.filter_eq_self.2 fun name member => by simpa using (normal name member).nonempty
  have slash : (Text.ofString "/") = [('/' : CodeUnit)] := rfl
  rw [names, text, Text.join, slash, List.splitOn_cons_eq_if_modifyHead, if_pos (by simp)]
  cases path with
  | nil => rfl
  | cons name path =>
    rw [List.splitOn_intercalate _ (fun name member => (normal name member).unbroken)
      (List.cons_ne_nil _ _)]
    exact pieces

theorem names_of_isName {name : Text} (isName : IsName name) : names name = [name] := by
  rw [names, List.splitOn_eq_singleton isName.unbroken]
  simpa using isName.nonempty

theorem isAbsolute_text (path : Path) : isAbsolute (text path) = true := by
  simp [isAbsolute, text, Text.startsWith]

/-! ## Resolving -/

theorem step_of_isName {name : Text} (isName : IsName name) (climbing : Bool) (path : Path) :
    step climbing path name = path ++ [name] := by
  rw [step, if_neg isName.notPoint, if_neg isName.notPoints]

theorem foldl_step {path' : Path} (normal : IsNormal path') (climbing : Bool) (path : Path) :
    path'.foldl (step climbing) path = path ++ path' := by
  induction path' generalizing path with
  | nil => simp
  | cons name path' ih =>
    obtain ⟨isName, later⟩ := List.forall_mem_cons.1 normal
    rw [List.foldl_cons, step_of_isName isName, ih later, List.append_assoc,
      List.singleton_append]

theorem IsNormal.step {path : Path} (normal : IsNormal path) {name : Text}
    (piece : IsPiece name) : IsNormal (step false path name) := by
  unfold Path.step
  split
  · exact normal
  next notPoint =>
    split
    · split
      · exact fun name member => normal name (List.dropLast_subset path member)
      · exact isNormal_nil
    next notPoints => exact normal.concat ⟨piece, notPoint, notPoints⟩

/-- What a text names from a normal directory is normal. -/
theorem IsNormal.resolve {base : Path} (normal : IsNormal base) (text : Text) :
    IsNormal (resolve base text) := by
  have start : IsNormal (if isAbsolute text then [] else base) := by
    split
    · exact isNormal_nil
    · exact normal
  unfold Path.resolve
  have pieces : ∀ name ∈ names text, IsPiece name := fun name => isPiece_of_mem_names
  generalize (if isAbsolute text then [] else base) = path at start
  generalize names text = later at pieces
  induction later generalizing path with
  | nil => exact start
  | cons name later ih =>
    obtain ⟨piece, pieces⟩ := List.forall_mem_cons.1 pieces
    exact ih _ (start.step piece) pieces

/-- A normal path is read back from its text. -/
theorem resolve_text {path : Path} (normal : IsNormal path) (base : Path) :
    resolve base (text path) = path := by
  rw [resolve, names_text normal, if_pos (isAbsolute_text path), foldl_step normal,
    List.nil_append]

theorem join_text {path : Path} (normal : IsNormal path) {name : Text} (isName : IsName name) :
    join (text path) name = text (path ++ [name]) := by
  rw [join, names_text normal, names_of_isName isName, foldl_step (normal.concat isName)]
  simp [isAbsolute_text]

theorem join_concat (separator : Text) (path : Path) (name : Text) :
    ∃ before, Text.join separator (path ++ [name]) = before ++ name := by
  induction path with
  | nil => exact ⟨[], by simp [Text.join]⟩
  | cons first path ih =>
    obtain ⟨before, whole⟩ := ih
    rw [Text.join] at whole ⊢
    rw [List.cons_append, List.intercalate_cons_of_ne_nil (by simp), whole]
    exact ⟨first ++ separator ++ before, (List.append_assoc ..).symm⟩

/-- The text of a file asks for no directory. -/
theorem endsWith_text (path : Path) {name : Text} (isName : IsName name) :
    (text (path ++ [name])).endsWith '/' = false := by
  obtain ⟨before, whole⟩ := join_concat "/" path name
  rw [text, whole, ← List.cons_append, Text.endsWith, beq_eq_false_iff_ne,
    List.getLast?_append_of_ne_nil _ isName.nonempty]
  intro last
  exact isName.unbroken (List.mem_of_getLast? last)

end ProcCheck.Path
