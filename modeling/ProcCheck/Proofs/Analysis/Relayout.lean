import Mathlib.Data.List.Forall2
import ProcCheck.Proofs.Analysis.Safety

/-!
# Layout does not matter

Two sources with the same lexemes differ in space, line ends and comments only. What one of them is
analysed to is what the other is, but for lines, and two lines in the same place of the results are
those of the token with the same index.
-/

namespace ProcCheck

/-! ## Results that differ in lines -/

section Alike

variable (R : Int → Int → Prop)

/-- Variables that are equal but for their lines, which `R` relates. -/
structure Variable.Alike (v w : Variable) : Prop where
  name : v.name = w.name
  type : v.type = w.type
  isGlobal : v.isGlobal = w.isGlobal
  initial : v.initial = w.initial
  line : R v.line w.line

/-- Control structures that are equal but for their lines, which `R` relates. -/
structure ControlStructure.Alike (c d : ControlStructure) : Prop where
  kind : c.kind = d.kind
  condition : c.condition = d.condition
  depth : c.depth = d.depth
  startLine : R c.startLine d.startLine
  endLine : R c.endLine d.endLine

/-- Functions that are equal but for their lines, which `R` relates. -/
structure Function.Alike (f g : Function) : Prop where
  name : f.name = g.name
  returnType : f.returnType = g.returnType
  classification : f.classification = g.classification
  line : R f.line g.line
  parameters : List.Forall₂ (Variable.Alike R) f.parameters g.parameters
  locals : List.Forall₂ (Variable.Alike R) f.locals g.locals
  controls : List.Forall₂ (ControlStructure.Alike R) f.controls g.controls

/-- Diagnostics that are equal but for their lines, which `R` relates. -/
structure Diagnostic.Alike (d e : Diagnostic) : Prop where
  problem : d.problem = e.problem
  line : R d.line e.line

/-- Tables that are equal but for their lines, which `R` relates. That the entry function is missing
is reported at no line. -/
structure Symbols.Alike (entry : Text) (s t : Symbols) : Prop where
  globals : List.Forall₂ (Variable.Alike R) s.globals t.globals
  functions : List.Forall₂ (Function.Alike R) s.functions t.functions
  diagnostics : ∃ found found', s.diagnostics = found ++ s.missingEntry entry ∧
    t.diagnostics = found' ++ s.missingEntry entry ∧ List.Forall₂ (Diagnostic.Alike R) found found'

end Alike

/-- Two faults with one wording and one length, at the tokens with the same index. -/
structure SyntaxError.Alike (tokens tokens' : List Token) (e e' : SyntaxError) : Prop where
  message : e.message = e'.message
  len : e.location.len = e'.location.len
  place : ∃ (i : Nat) (t t' : Token), tokens[i]? = some t ∧ tokens'[i]? = some t' ∧
    (⟨e.location.line, e.location.col⟩ : Position) = t.pos ∧
    (⟨e'.location.line, e'.location.col⟩ : Position) = t'.pos

/-! ## Moved results -/

section Moved

variable {R : Int → Int → Prop} {lines lines' : Int → Position}

theorem forall₂_map_map {α β : Type} {S : β → β → Prop} {f g : α → β} (each : ∀ a, S (f a) (g a))
    (l : List α) : List.Forall₂ S (l.map f) (l.map g) := by
  rw [List.forall₂_map_left_iff, List.forall₂_map_right_iff]
  exact List.forall₂_same.2 fun a _ => each a

variable (related : ∀ l, R (lines l).line (lines' l).line)

include related

theorem Variable.alike_moved (v : Variable) : Alike R (v.moved lines) (v.moved lines') :=
  ⟨rfl, rfl, rfl, rfl, related _⟩

theorem ControlStructure.alike_moved (c : ControlStructure) :
    Alike R (c.moved lines) (c.moved lines') :=
  ⟨rfl, rfl, rfl, related _, related _⟩

theorem Function.alike_moved (f : Function) : Alike R (f.moved lines) (f.moved lines') where
  name := rfl
  returnType := rfl
  classification := rfl
  line := related _
  parameters := forall₂_map_map (Variable.alike_moved related) f.parameters
  locals := forall₂_map_map (Variable.alike_moved related) f.locals
  controls := forall₂_map_map (ControlStructure.alike_moved related) f.controls

theorem Diagnostic.alike_moved (d : Diagnostic) : Alike R (d.moved lines) (d.moved lines') :=
  ⟨rfl, related _⟩

/-- The tables of one scan at two places. -/
theorem Symbols.alike_moved (entry : Text) (s : Symbols) :
    Alike R entry ((s.moved lines).report (s.missingEntry entry))
      ((s.moved lines').report (s.missingEntry entry)) where
  globals := forall₂_map_map (Variable.alike_moved related) s.globals
  functions := forall₂_map_map (Function.alike_moved related) s.functions
  diagnostics := by
    rw [missingEntry_report, missingEntry_moved]
    exact ⟨_, _, rfl, rfl, forall₂_map_map (Diagnostic.alike_moved related) s.diagnostics⟩

end Moved

/-! ## Faults -/

/-- The wording of an expectation tells the kind and the spelling of a token, and not its place. -/
theorem Expectation.message_congr {t t' : Token} (same : t.lexeme = t'.lexeme)
    (expected : Expectation) : expected.message t = expected.message t' := by
  obtain ⟨kind, spelling⟩ : t.kind = t'.kind ∧ t.spelling = t'.spelling := by
    simpa [Token.lexeme] using same
  cases expected <;> simp [message, Token.isEnd, kind, spelling]

/-- One expectation is unmet at the tokens with an index alike. -/
theorem SyntaxError.unmet_alike {tokens tokens' : List Token}
    (same : tokens.map Token.lexeme = tokens'.map Token.lexeme) {i : Nat} {t t' : Token}
    (found : tokens[i]? = some t) (found' : tokens'[i]? = some t') (expected : Expectation) :
    Alike tokens tokens' (unmet expected t) (unmet expected t') := by
  have lexeme : t.lexeme = t'.lexeme := by
    have entry := congrArg (·[i]?) same
    simpa [found, found'] using entry
  have spelling : t.spelling = t'.spelling := congrArg Lexeme.spelling lexeme
  refine ⟨expected.message_congr lexeme, ?_, i, t, t', found, found', rfl, rfl⟩
  simp only [unmet, spelling]

/-! ## Sources -/

/-- Layout does not matter. Two sources with the same lexemes are both refused, for one reason and
at the tokens with the same index, or both spell a program, the same but for places, and have the
same symbols but for lines, which are those of the tokens with the same index. -/
theorem Text.layout_free {source source' : Text} {tokens tokens' : List Token}
    (split : source.tokens = .ok tokens) (split' : source'.tokens = .ok tokens')
    (same : tokens.map Token.lexeme = tokens'.map Token.lexeme) (entry : Text) :
    (∃ e e', source.program = .error e ∧ source'.program = .error e' ∧
      SyntaxError.Alike tokens tokens' e e') ∨
    ∃ p p' symbols symbols', source.program = .ok p ∧ source'.program = .ok p' ∧
      p.unplaced = p'.unplaced ∧ source.symbols entry = .ok symbols ∧
      source'.symbols entry = .ok symbols' ∧
      Symbols.Alike (Token.SameLine tokens tokens') entry symbols symbols' := by
  rw [program_eq_ofTokens split, program_eq_ofTokens split']
  obtain ⟨expected, i, refused⟩ | ⟨p, tables, read⟩ := symbols_placeAt split entry
  · obtain ⟨t, found, unmet⟩ := refused tokens rfl
    obtain ⟨t', found', unmet'⟩ := refused tokens' same.symm
    exact .inl ⟨_, _, unmet, unmet', SyntaxError.unmet_alike same found found' expected⟩
  · obtain ⟨spelt, returned⟩ := read tokens rfl
    obtain ⟨spelt', returned'⟩ := read tokens' same.symm
    have length : tokens.length = tokens'.length := by
      simpa using congrArg List.length same
    refine .inr ⟨_, _, _, _, spelt, spelt', ?_,
      symbols_eq_ok ((program_eq_ofTokens split).trans spelt) returned,
      symbols_eq_ok ((program_eq_ofTokens split').trans spelt') returned', ?_⟩
    · rw [Program.unplaced_moved, Program.unplaced_moved]
    · exact Symbols.alike_moved (Token.sameLine_placeAt (tokens_ne_nil split) length) entry tables

/-- A function on one line, with as little space as can be. -/
def Text.tight : Text := "int f()\x7breturn x;\x7d"

/-- The lexemes of `Text.tight` on four lines, with comments. -/
def Text.loose : Text := "int f ( ) // f\n\x7b\n  return /* x */ x ;\n\x7d"

theorem Text.tight_loose : ∃ tokens tokens', Text.tight.tokens = .ok tokens ∧
    Text.loose.tokens = .ok tokens' ∧ tokens.map Token.lexeme = tokens'.map Token.lexeme ∧
    ((∃ e e', Text.tight.program = .error e ∧ Text.loose.program = .error e' ∧
      SyntaxError.Alike tokens tokens' e e') ∨
    ∃ p p' symbols symbols', Text.tight.program = .ok p ∧ Text.loose.program = .ok p' ∧
      p.unplaced = p'.unplaced ∧ Text.tight.symbols "main" = .ok symbols ∧
      Text.loose.symbols "main" = .ok symbols' ∧
      Symbols.Alike (Token.SameLine tokens tokens') "main" symbols symbols') := by
  have found : Text.tight.tokens.toOption.any (fun tokens =>
      Text.loose.tokens.toOption.any fun tokens' =>
        tokens.map Token.lexeme = tokens'.map Token.lexeme) = true := by
    decide +kernel
  obtain ⟨tokens, split, found⟩ := (Option.any_eq_true _ _).1 found
  obtain ⟨tokens', split', same⟩ := (Option.any_eq_true _ _).1 found
  have read {source : Text} {ts : List Token} (split : source.tokens.toOption = some ts) :
      source.tokens = .ok ts := by
    cases result : source.tokens with
    | error e =>
      rw [result] at split
      cases split
    | ok other =>
      rw [result] at split
      exact congrArg Except.ok (Option.some.inj split)
  have same := of_decide_eq_true same
  exact ⟨tokens, tokens', read split, read split', same,
    layout_free (read split) (read split') same "main"⟩

end ProcCheck
