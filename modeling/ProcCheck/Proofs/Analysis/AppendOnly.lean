import ProcCheck.Proofs.Analysis.Walks

/-!
# Analysis is append-only

Nothing that is in a table is changed or taken out again. A function that is being read is not in
the table yet: the frame of the scan holds it by itself, and it is copied into the table when it is
complete. So what is recorded and reported for a program stands at the beginning of what is for a
longer one.
-/

namespace ProcCheck

/-- Later tables of a session hold the earlier ones. -/
theorem Session.spans_growsTo : Spans fun s t => s.symbols.GrowsTo t.symbols where
  refl s := .refl s.symbols
  trans := .trans
  scan grows := grows.symbols
  opening _ s := .refl s.symbols
  closing register s := by
    rcases s with ⟨symbols, current, _ | ⟨next, outer⟩, opened, entries, shown⟩
    · exact .refl symbols
    · exact ⟨List.prefix_refl _, List.prefix_append _ _, List.prefix_refl _⟩
  note _ _ s := .refl s.symbols
  track inside := inside

namespace Program

variable {entry : Text} {p q : List TopLevel} {place place' : Span} {one whole : Symbols}

/-- The tables behind the first nodes of a program hold those of the nodes alone, but for the
diagnostic of a missing entry function. -/
theorem symbols_growsTo (returned : symbols ⟨p, place⟩ entry = .ok one)
    (returned' : symbols ⟨p ++ q, place'⟩ entry = .ok whole) :
    ∃ tables : Symbols, one = tables.report (tables.missingEntry entry) ∧
      tables.GrowsTo whole := by
  obtain ⟨s, run, rfl⟩ := symbols_eq_ok.1 returned
  obtain ⟨t, run', rfl⟩ := symbols_eq_ok.1 returned'
  rw [Scan.forM_append] at run'
  obtain ⟨⟨⟩, mid, first, rest⟩ := Scan.exec_bind_returns.1 run'
  obtain ⟨-, rfl⟩ := Prod.mk.inj (run.symm.trans first)
  obtain ⟨more, added, -⟩ := Scan.exec_topLevels_alike (.refl s) rest
  refine ⟨s.symbols, rfl, ?_⟩
  rw [added, Symbols.append_report]
  exact (Symbols.GrowsTo.append _ more).trans (.append _ _)

/-- An analysis only appends. Whatever step a session takes in whatever state, and whether the step
returns or is cut short, the former lists of globals, functions and diagnostics stand unchanged at
the beginning of the new ones. So the tables of `p ++ q` extend those of `p`, and its diagnostics
those of `p` without the diagnostic of a missing entry function. -/
theorem analysis_appends (entry : Text) :
    (∀ (step : Step) (s : Session),
      s.symbols.GrowsTo (Session.exec (Session.take entry step) s).2.symbols) ∧
    ∀ (p q : List TopLevel) (place place' : Span) (one whole : Symbols),
      symbols ⟨p, place⟩ entry = .ok one → symbols ⟨p ++ q, place'⟩ entry = .ok whole →
      one.globals <+: whole.globals ∧ one.functions <+: whole.functions ∧
        ∃ found, one.diagnostics = found ++ one.missingEntry entry ∧
          found <+: whole.diagnostics := by
  constructor
  · intro step s
    exact Session.spans_growsTo.take entry step s
  · intro p q place place' one whole returned returned'
    obtain ⟨tables, rfl, grows⟩ := symbols_growsTo returned returned'
    rw [Symbols.missingEntry_report]
    exact ⟨grows.globals, grows.functions, tables.diagnostics, rfl, grows.diagnostics⟩

/-- `int g; void f() { h; }` alone, and with `int g; void main() { f(1); }` behind. -/
theorem analysis_appends_main :
    let place (line : Int) : Span := ⟨⟨line, 1⟩, ⟨line, 1⟩⟩
    let expr (line : Int) (e : Expr) : Block Stmt := ⟨[.expr e (place line)], place line⟩
    let p : List TopLevel := [.global ⟨"int", "g", none, place 1⟩,
      .function ⟨"void", some "f", none, none, expr 2 (.identifier ⟨"h", place 2⟩ "h"), place 2⟩]
    let q : List TopLevel := [.global ⟨"int", "g", none, place 3⟩,
      .function ⟨"void", none, some "main", none,
        expr 4 (.call ⟨"f(1)", place 4⟩ "f" [.intLiteral ⟨"1", place 4⟩ 1]), place 4⟩]
    ∃ one whole, symbols ⟨p, place 1⟩ "main" = .ok one ∧
      symbols ⟨p ++ q, place 1⟩ "main" = .ok whole ∧
      one.globals <+: whole.globals ∧ one.functions <+: whole.functions ∧
      one.diagnostics = [⟨2, .undeclaredVariable "h"⟩, ⟨0, .missingEntry "main"⟩] ∧
      whole.diagnostics = [⟨2, .undeclaredVariable "h"⟩, ⟨3, .duplicateGlobal "g"⟩,
        ⟨4, .wrongArgumentCount "f" 0 1⟩] := by
  intro place expr p q
  obtain ⟨one, returned⟩ : ∃ one, symbols ⟨p, place 1⟩ "main" = .ok one := ⟨_, rfl⟩
  obtain ⟨whole, returned'⟩ : ∃ whole, symbols ⟨p ++ q, place 1⟩ "main" = .ok whole := ⟨_, rfl⟩
  obtain ⟨globals, functions, -⟩ :=
    (analysis_appends "main").2 p q (place 1) (place 1) one whole returned returned'
  have found : (symbols ⟨p, place 1⟩ "main").toOption.map (·.diagnostics) =
      some [⟨2, .undeclaredVariable "h"⟩, ⟨0, .missingEntry "main"⟩] := by decide +kernel
  have found' : (symbols ⟨p ++ q, place 1⟩ "main").toOption.map (·.diagnostics) =
      some [⟨2, .undeclaredVariable "h"⟩, ⟨3, .duplicateGlobal "g"⟩,
        ⟨4, .wrongArgumentCount "f" 0 1⟩] := by decide +kernel
  rw [returned] at found
  rw [returned'] at found'
  exact ⟨one, whole, returned, returned', globals, functions, Option.some.inj found,
    Option.some.inj found'⟩

end Program

end ProcCheck
