import ProcCheck.Proofs.Analysis.Recast
import ProcCheck.Proofs.Tree.Moved

/-!
# Scanning trees that are moved

A scan stores the lines of what it meets and never looks at them. So moving a tree along with its
lines keeps what a scan looks at, and what is recorded of the moved tree is what is recorded of the
tree, with all lines moved.
-/

namespace ProcCheck

variable {lines : Int → Position}

/-! ## Tables -/

/-- A variable that is moved along with its line. -/
def Variable.moved (lines : Int → Position) (v : Variable) : Variable :=
  { v with line := (lines v.line).line }

/-- A control structure that is moved along with its lines. -/
def ControlStructure.moved (lines : Int → Position) (c : ControlStructure) : ControlStructure :=
  { c with startLine := (lines c.startLine).line, endLine := (lines c.endLine).line }

/-- A function that is moved along with its lines. -/
def Function.moved (lines : Int → Position) (f : Function) : Function :=
  { f with
    line := (lines f.line).line
    parameters := f.parameters.map (Variable.moved lines)
    locals := f.locals.map (Variable.moved lines)
    controls := f.controls.map (ControlStructure.moved lines) }

/-- A diagnostic that is moved along with its line. -/
def Diagnostic.moved (lines : Int → Position) (d : Diagnostic) : Diagnostic :=
  { d with line := (lines d.line).line }

/-- Tables that are moved along with their lines. -/
def Symbols.moved (lines : Int → Position) (s : Symbols) : Symbols :=
  ⟨s.globals.map (Variable.moved lines), s.functions.map (Function.moved lines),
    s.diagnostics.map (Diagnostic.moved lines)⟩

/-! ## Likeness -/

/-- What is recorded of a tree that is moved: names, conditions and initial values stay. -/
def Likeness.moved (lines : Int → Position) : Likeness where
  name := id
  text := id
  line l := (lines l).line
  initial := Eq

theorem Recast.moved_keeps : (Recast.moved lines).Keeps (.moved lines) where
  injective := Function.injective_id
  name _ := rfl
  noName := rfl
  text _ := rfl
  noText := rfl
  compound _ := rfl
  exprLine _ := rfl
  line _ := rfl
  noInitial := rfl
  literal _ _ _ := rfl

/-- Where related elements are images, a list is the image of the list it is related to. -/
theorem forall₂_image {α β : Type} {R : α → β → Prop} {f : α → β} {l : List α} {m : List β}
    (related : List.Forall₂ R l m) (image : ∀ a b, R a b → b = f a) : m = l.map f := by
  induction related with
  | nil => rfl
  | cons head _ ih => rw [List.map_cons, image _ _ head, ih]

theorem Variable.Like.eq_moved {v w : Variable} (like : v.Like (.moved lines) w) :
    w = v.moved lines := by
  obtain ⟨name, type, isGlobal, line, initial⟩ := w
  obtain ⟨rfl, rfl, rfl, rfl, rfl⟩ := like
  rfl

theorem Function.Like.eq_moved {f g : Function} (like : f.Like (.moved lines) g) :
    g = f.moved lines := by
  have parameters := forall₂_image like.parameters fun _ _ like => like.eq_moved
  have locals := forall₂_image like.locals fun _ _ like => like.eq_moved
  obtain ⟨name, returnType, line, role, -, -, controls⟩ := like
  obtain ⟨_, _, _, _, _, _, _⟩ := g
  subst name returnType line role controls parameters locals
  rfl

theorem Diagnostic.image_moved (d : Diagnostic) :
    d.image (.moved lines) = d.moved lines := by
  cases d with
  | mk line problem => cases problem <;> rfl

theorem Symbols.Like.eq_moved {s t : Symbols} (like : s.Like (.moved lines) t) :
    t = s.moved lines := by
  have globals := forall₂_image like.globals fun _ _ like => like.eq_moved
  have functions := forall₂_image like.functions fun _ _ like => like.eq_moved
  have diagnostics := like.diagnostics
  rw [funext Diagnostic.image_moved] at diagnostics
  obtain ⟨_, _, _⟩ := t
  subst globals functions diagnostics
  rfl

/-! ## Programs -/

@[simp] theorem Symbols.missingEntry_moved (entry : Text) (s : Symbols) :
    (s.moved lines).missingEntry entry = s.missingEntry entry := by
  have roles : (s.moved lines).functions.any (·.classification = .entry) =
      s.functions.any (·.classification = .entry) := by
    rw [moved, List.any_map]
    rfl
  rw [missingEntry, roles, missingEntry]

/-- Wherever a program is moved its tables are the same, moved along with its lines. -/
theorem Program.symbols_moved {p : Program} {entry : Text} {symbols : Symbols}
    (returned : (p.moved lines).symbols entry = .ok symbols) : ∃ tables : Symbols, ∀ lines,
      (p.moved lines).symbols entry =
        .ok ((tables.moved lines).report (tables.missingEntry entry)) := by
  have ends (lines : Int → Position) : Scan.EndLike (.moved lines) Eq
      (Scan.exec (p.declarations.forM (Scan.topLevel entry)) {})
      (Scan.exec ((p.moved lines).declarations.forM (Scan.topLevel entry)) {}) := by
    rw [moved, ← funext TopLevel.recast_moved]
    exact Scan.nodes_like Recast.moved_keeps (fun _ => rfl) p.declarations
  obtain ⟨t, run, -⟩ := symbols_eq_ok.1 returned
  -- A scan that is cut short at one place is cut short everywhere, so the program itself is scanned.
  rcases unmoved : Scan.exec (p.declarations.forM (Scan.topLevel entry)) {} with ⟨abort | ⟨⟩, s⟩
  · have cut := ends lines
    rw [unmoved, run] at cut
    cases cut
  · refine ⟨s.symbols, fun lines => ?_⟩
    obtain ⟨t, run, like⟩ := (ends lines).of_ok unmoved
    refine symbols_eq_ok.2 ⟨t, run, ?_⟩
    rw [like.symbols.eq_moved, ← s.symbols.missingEntry_moved entry]
    rfl

end ProcCheck
