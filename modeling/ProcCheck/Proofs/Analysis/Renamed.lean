import Mathlib.Logic.Equiv.Basic
import ProcCheck.Proofs.Analysis.Recast
import ProcCheck.Proofs.Analysis.Safety
import ProcCheck.Proofs.Grammar.Renamed

/-!
# Names are opaque

An analysis looks at names in two ways only: it asks whether two of them are equal, and whether one
is the name of the entry function. So where the identifiers of a source are replaced by others, no
two by one and those that name the entry by such, the tables are the same but for the names, and but
for the conditions and the diagnostics that hold them.
-/

namespace ProcCheck

namespace Renaming

variable (r : Renaming)

/-- What is recorded of a renamed program: names are renamed, also in conditions, and lines stay.
Nothing is said of initial values. -/
def likeness : Likeness where
  name := r.name
  text := Text.renamed r
  line := id
  initial _ _ := True

theorem keeps : r.byText.Keeps r.likeness where
  injective := r.name_injective
  name _ := rfl
  noName := r.name_nil
  text _ := rfl
  noText := Text.renamed_nil r
  compound := Text.isCompound_renamed r
  exprLine _ := rfl
  line _ := rfl
  noInitial := trivial
  literal _ _ _ := trivial

/-- An identifier names the entry function if and only if what it is replaced by does, in any case
of letters. -/
def Respects (entry : Text) : Prop :=
  ∀ name, TokenKind.identifier.spells name →
    (Text.toLower name = entry.toLower ↔ Text.toLower (r.map name) = entry.toLower)

variable {r} in
theorem Respects.isEntryName {entry : Text} (respects : r.Respects entry) (name : Text) :
    Scan.isEntryName entry (r.name name) = Scan.isEntryName entry name := by
  by_cases isName : TokenKind.identifier.spells name
  · rw [r.name_of_spells isName, Scan.isEntryName, Scan.isEntryName,
      decide_eq_decide.2 (respects name isName)]
  · rw [r.name_of_not_spells isName]

/-- That the entry function is missing is said of the renamed program in the same words. -/
theorem map_missingEntry (entry : Text) (s : Symbols) :
    (s.missingEntry entry).map (Diagnostic.image r.likeness) = s.missingEntry entry := by
  rw [Symbols.missingEntry]
  split
  · rfl
  · rfl

end Renaming

/-- Of tables that are alike, those with the diagnostic of a missing entry function are alike. -/
theorem Symbols.Like.report_missingEntry {r : Renaming} {s t : Symbols}
    (like : s.Like r.likeness t) (entry : Text) :
    Symbols.Like r.likeness (s.report (s.missingEntry entry)) (t.report (s.missingEntry entry)) where
  globals := like.globals
  functions := like.functions
  diagnostics := by
    simp only [Symbols.report, List.map_append, r.map_missingEntry, like.diagnostics]

/-- Names are opaque. Where the identifiers in a source that spells a program are replaced, no two
by one and those that name the entry function by such, the tokens spell a program whose tables are
the same but for names: as many entries in the same order, of the same types, lines, roles and
depths, with conditions renamed, and the same diagnostics in the same order and at the same lines,
about the renamed names. -/
theorem Text.names_opaque {source entry : Text} {tokens : List Token} {p : Program} (r : Renaming)
    (split : source.tokens = .ok tokens) (read : source.program = .ok p)
    (respects : r.Respects entry) :
    ∃ p' symbols symbols', Program.ofTokens (tokens.map r.token) = .ok p' ∧
      source.symbols entry = .ok symbols ∧ p'.symbols entry = .ok symbols' ∧
      symbols.Like r.likeness symbols' := by
  obtain ⟨symbols, returned⟩ :=
    Program.symbols_returns (canonical_of_program read).isKnown entry
  obtain ⟨span, spelt⟩ := ofTokens_renamed r split ((program_eq_ofTokens split).symm.trans read)
  obtain ⟨tables, tables', like, rfl, returned'⟩ :=
    Program.symbols_recast r.keeps respects.isEntryName returned
  exact ⟨_, _, _, spelt, symbols_eq_ok read returned, returned' span, like.report_missingEntry entry⟩

/-- A function that calls itself. -/
def Text.factorial : Text :=
  "int f(int count) \x7b if (count < 2) \x7b return 1; \x7d return count * f(count - 1); \x7d"

/-- The names `f` and `count` in each other's place. -/
def Renaming.exchange : Renaming where
  map := Equiv.swap ("f" : Text) ("count" : Text)
  spells {name} isName := by
    by_cases isF : name = "f"
    · rw [isF, Equiv.swap_apply_left]
      decide
    by_cases isCount : name = "count"
    · rw [isCount, Equiv.swap_apply_right]
      decide
    · rwa [Equiv.swap_apply_of_ne_of_ne isF isCount]
  injective _ _ same := (Equiv.injective _) same

/-- Neither name is the name of the entry function. -/
theorem Renaming.exchange_respects : exchange.Respects "main" := by
  have f : Text.toLower "f" ≠ Text.toLower "main" := by decide +kernel
  have count : Text.toLower "count" ≠ Text.toLower "main" := by decide +kernel
  intro name _
  by_cases isF : name = "f"
  · have same : exchange.map name = "count" := by
      rw [isF]
      exact Equiv.swap_apply_left _ _
    rw [same, isF]
    exact iff_of_false f count
  by_cases isCount : name = "count"
  · have same : exchange.map name = "f" := by
      rw [isCount]
      exact Equiv.swap_apply_right _ _
    rw [same, isCount]
    exact iff_of_false count f
  · have same : exchange.map name = name := Equiv.swap_apply_of_ne_of_ne isF isCount
    rw [same]

theorem Text.factorial_exchanged : ∃ tokens p, Text.factorial.tokens = .ok tokens ∧
    Text.factorial.program = .ok p ∧ Renaming.exchange.Respects "main" ∧
    ∃ p' symbols symbols', Program.ofTokens (tokens.map Renaming.exchange.token) = .ok p' ∧
      Text.factorial.symbols "main" = .ok symbols ∧ p'.symbols "main" = .ok symbols' ∧
      symbols.Like Renaming.exchange.likeness symbols' := by
  have found : Text.factorial.program.toOption.isSome = true := by decide +kernel
  cases read : Text.factorial.program with
  | error e =>
    rw [read] at found
    cases found
  | ok p =>
    obtain ⟨tokens, split, -⟩ := Text.program_eq_ok.1 read
    have respects := Renaming.exchange_respects
    exact ⟨tokens, p, split, rfl, respects, Text.names_opaque _ split read respects⟩

end ProcCheck
