import ProcCheck.Proofs.Report.Plain
import ProcCheck.Proofs.Report.Styling
import ProcCheck.Report.Snippet
import ProcCheck.Report.Table

/-!
# Reports in colours

Without its control sequences a report in colours is the report without colours, for every styling
that keeps its texts. A style only stands around a part of a line, and behind it the line ends or
goes on with a unit that is in no control sequence.
-/

namespace ProcCheck

open Text

@[simp] theorem Styling.plain_apply (style : Style) (t : Text) : plain.apply style t = t := rfl

variable {styling : Styling}

/-! ## Excerpts -/

namespace Snippet

/-- A message whose texts are plain. -/
structure IsPlain (s : Snippet) : Prop where
  header : Text.IsPlain s.header
  message : Text.IsPlain s.message
  source : Text.IsPlain s.source
  hint : Text.IsPlain s.hint

variable (s : Snippet)

theorem unstyled_excerpt (keeps : styling.Keeps) :
    (s.excerpt styling).map unstyled = (s.excerpt .plain).map unstyled := by
  have place {styling : Styling} (keeps : styling.Keeps) (rest : Text) :
      unstyled (styling.apply .blue (ofString "-->") ++ (ofString " line " ++ rest)) =
        unstyled (ofString "-->") ++ unstyled (ofString " line " ++ rest) :=
    keeps _ _ (isApart_cons (by decide) _)
  have pointer {styling : Styling} (keeps : styling.Keeps) (n : Nat) (carets : Text) :
      unstyled (spaces n ++ styling.apply .redBold carets) = spaces n ++ unstyled carets := by
    rw [unstyled_append_of_plain (isPlain_spaces n), keeps.unstyled_apply]
  have plain := Styling.plain_keeps
  unfold excerpt
  simp only [List.map_append, List.map_cons, List.map_nil, List.append_assoc,
    keeps.unstyled_apply_space, keeps.unstyled_apply, place keeps, pointer keeps,
    plain.unstyled_apply_space, plain.unstyled_apply, place plain, pointer plain]
  by_cases none : s.hint.isEmpty = true
  · simp only [if_pos none, List.map_nil]
  · simp only [if_neg none, List.map_cons, List.map_nil, keeps.unstyled_apply_space,
      plain.unstyled_apply_space]

/-- Colours change nothing but control sequences. -/
theorem unstyled_render (keeps : styling.Keeps) :
    (s.render styling).unstyled = (s.render .plain).unstyled := by
  have title {styling : Styling} (keeps : styling.Keeps) :
      (styling.apply .redBold s.header ++ ofString " " ++ styling.apply .bold s.message).unstyled =
        s.header.unstyled ++ (ofString " " ++ s.message.unstyled) := by
    rw [List.append_assoc, keeps.unstyled_apply_space, keeps.unstyled_apply]
  have titles := (title keeps).trans (title Styling.plain_keeps).symm
  unfold render
  simp only
  split
  · exact titles
  · rw [unstyled_join, unstyled_join, List.map_cons, List.map_cons, titles,
      s.unstyled_excerpt keeps]

theorem isPlain_lineContent {source : Text} (plain : Text.IsPlain source) (line : Int) :
    Text.IsPlain (lineContent source line) := by
  unfold lineContent
  split
  · exact isPlain_nil
  · cases found : source.lines[line.toNat - 1]? with
    | none => exact isPlain_nil
    | some content => exact plain.of_subset (subset_of_mem_lines (List.mem_of_getElem? found))

theorem IsPlain.excerpt {s : Snippet} (plain : s.IsPlain) :
    ∀ line ∈ s.excerpt .plain, Text.IsPlain line := by
  have spaces := isPlain_spaces
  have number := isPlain_ofInt
  have carets (n : Nat) : Text.IsPlain (repeated (CodeUnit.ofChar '^') n) :=
    isPlain_repeated (by decide) n
  have content := isPlain_lineContent plain.source s.location.line
  unfold Snippet.excerpt
  refine List.forall_mem_append.2 ⟨?_, ?_⟩
  · simp +decide [spaces, number, carets, content]
  · split
    · exact nofun
    · simp +decide [spaces, plain.hint]

theorem IsPlain.render {s : Snippet} (plain : s.IsPlain) : Text.IsPlain (s.render .plain) := by
  have title : Text.IsPlain (s.header ++ ofString " " ++ s.message) := by
    simp +decide [plain.header, plain.message]
  unfold Snippet.render
  split
  · exact title
  · exact isPlain_join (by decide) (List.forall_mem_cons.2 ⟨title, plain.excerpt⟩)

/-- Without colours a plain message has no control sequences. -/
theorem unstyled_render_plain {s : Snippet} (plain : s.IsPlain) (keeps : styling.Keeps) :
    (s.render styling).unstyled = s.render .plain := by
  rw [s.unstyled_render keeps, unstyled_of_plain plain.render]

end Snippet

section Messages

variable {source message hint : Text} (location : Location)

theorem unstyled_renderError (keeps : styling.Keeps) (source message hint : Text) :
    (renderError styling source message location hint).unstyled =
      (renderError .plain source message location hint).unstyled := by
  unfold renderError
  rw [unstyled_cons (by decide), unstyled_cons (by decide), Snippet.unstyled_render _ keeps]

theorem unstyled_renderError_plain (source' : IsPlain source) (message' : IsPlain message)
    (hint' : IsPlain hint) (keeps : styling.Keeps) :
    (renderError styling source message location hint).unstyled =
      renderError .plain source message location hint := by
  have header : IsPlain (ofString "Error:") := by decide
  have plain : Snippet.IsPlain ⟨"Error:", message, location, source, hint⟩ :=
    ⟨header, message', source', hint'⟩
  unfold renderError
  rw [unstyled_cons (by decide), Snippet.unstyled_render_plain plain keeps]

end Messages

theorem Diagnostic.unstyled_render (d : Diagnostic) (keeps : styling.Keeps) (source : Text) :
    (d.render styling source).unstyled = (d.render .plain source).unstyled :=
  Snippet.unstyled_render _ keeps

theorem Diagnostic.unstyled_render_plain {d : Diagnostic} {source : Text}
    (message : IsPlain d.message) (plain : IsPlain source) (keeps : styling.Keeps) :
    (d.render styling source).unstyled = d.render .plain source := by
  have header : IsPlain (ofString "Semantic error:") := by decide
  exact Snippet.unstyled_render_plain ⟨header, message, plain, isPlain_nil⟩ keeps

/-! ## Tables -/

/-- A variable whose name is plain. An initial value is a number or stands between quotes. -/
def Variable.IsPlain (v : Variable) : Prop := Text.IsPlain v.name

/-- A control structure whose condition is plain. -/
def ControlStructure.IsPlain (c : ControlStructure) : Prop := Text.IsPlain c.condition

/-- A function all of whose texts are plain. -/
structure Function.IsPlain (f : Function) : Prop where
  name : Text.IsPlain f.name
  parameters : ∀ v ∈ f.parameters, v.IsPlain
  locals : ∀ v ∈ f.locals, v.IsPlain
  controls : ∀ c ∈ f.controls, c.IsPlain

/-- Symbols all of whose texts are plain. -/
structure Symbols.IsPlain (s : Symbols) : Prop where
  globals : ∀ v ∈ s.globals, v.IsPlain
  functions : ∀ f ∈ s.functions, f.IsPlain

theorem Variable.IsPlain.signature {v : Variable} (plain : v.IsPlain) :
    Text.IsPlain v.signature := by
  have type : Text.IsPlain v.type.name := by
    cases v.type <;> decide
  have name : Text.IsPlain v.name := plain
  unfold Variable.signature
  simp +decide [name, type]

theorem Variable.IsPlain.row {v : Variable} (plain : v.IsPlain) : Text.IsPlain v.row := by
  unfold Variable.row
  cases v.initial with
  | none => exact plain.signature
  | some value =>
    have shown : Text.IsPlain value.text := by
      cases value with
      | number x => exact Number.isPlain_text x
      | string t => exact isPlain_quoted t
    simp +decide [plain.signature, shown]

theorem ControlStructure.IsPlain.row {c : ControlStructure} (plain : c.IsPlain) :
    Text.IsPlain c.row := by
  have kind : Text.IsPlain c.kind.name := by
    cases c.kind <;> decide
  have condition : Text.IsPlain c.condition := plain
  unfold ControlStructure.row
  simp +decide [kind, condition, isPlain_spaces, isPlain_ofInt]

theorem map_unstyled_of_plain {lines : List Text} (plain : ∀ line ∈ lines, IsPlain line) :
    lines.map unstyled = lines :=
  (List.map_congr_left fun line member => unstyled_of_plain (plain line member)).trans
    (List.map_id _)

namespace Function.IsPlain

variable {f : Function} (plain : f.IsPlain) (keeps : styling.Keeps)

include plain keeps

theorem unstyled_heading : (f.heading styling).unstyled = f.heading .plain := by
  have parameters : Text.IsPlain (Text.join (ofString ", ") (f.parameters.map Variable.signature)) :=
    isPlain_join (by decide) fun t member => by
      obtain ⟨v, isParameter, rfl⟩ := List.mem_map.1 member
      exact (plain.parameters v isParameter).signature
  have type : Text.IsPlain f.returnType.name := by
    cases f.returnType <;> decide
  have role : Text.IsPlain f.classification.name := by
    cases f.classification <;> decide
  have line : Text.IsPlain (ofString "(line " ++ ofInt f.line ++ ofString ")") := by
    simp +decide [isPlain_ofInt]
  unfold Function.heading
  rw [unstyled_append_of_plain (by simp +decide [plain.name, parameters, type, role]),
    keeps.unstyled_apply, unstyled_of_plain line, Styling.plain_apply]

theorem unstyled_rows : (f.rows styling).map unstyled = f.rows .plain := by
  have locals : ∀ line ∈ f.locals.map fun v => ofString "    local " ++ v.row, Text.IsPlain line := by
    intro line member
    obtain ⟨v, isLocal, rfl⟩ := List.mem_map.1 member
    simp +decide [(plain.locals v isLocal).row]
  have controls : ∀ line ∈ f.controls.map ControlStructure.row, Text.IsPlain line := by
    intro line member
    obtain ⟨c, isControl, rfl⟩ := List.mem_map.1 member
    exact (plain.controls c isControl).row
  unfold Function.rows
  rw [List.map_append, List.map_cons, plain.unstyled_heading keeps, map_unstyled_of_plain locals,
    map_unstyled_of_plain controls]

end Function.IsPlain

theorem unstyled_listing {heading : Text} (plain : IsPlain heading) (keeps : styling.Keeps)
    (rows : List Text) : (listing styling heading rows).map unstyled =
      listing .plain heading (rows.map unstyled) := by
  have none : unstyled (ofString "  (none)") = ofString "  (none)" := unstyled_of_plain (by decide)
  unfold listing
  rw [List.map_cons, keeps.unstyled_apply, unstyled_of_plain plain, Styling.plain_apply,
    List.isEmpty_map]
  split
  · rw [List.map_singleton, none]
  · rfl

/-- Without colours the table of plain symbols has no control sequences. -/
theorem Symbols.IsPlain.unstyled_table {s : Symbols} (plain : s.IsPlain)
    (keeps : styling.Keeps) : (s.table styling).map unstyled = s.table .plain := by
  have globals : ∀ line ∈ s.globals.map fun v => ofString "  " ++ v.row, Text.IsPlain line := by
    intro line member
    obtain ⟨v, isGlobal, rfl⟩ := List.mem_map.1 member
    simp +decide [(plain.globals v isGlobal).row]
  have functions : (s.functions.flatMap (·.rows styling)).map unstyled =
      s.functions.flatMap (·.rows .plain) := by
    rw [List.map_flatMap]
    exact List.flatMap_congr fun f isFunction => (plain.functions f isFunction).unstyled_rows keeps
  unfold Symbols.table
  rw [List.map_append, unstyled_listing (by decide) keeps, unstyled_listing (by decide) keeps,
    map_unstyled_of_plain globals, functions]

end ProcCheck
