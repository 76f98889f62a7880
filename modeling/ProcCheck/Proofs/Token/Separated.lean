import ProcCheck.Proofs.Token.Continued

/-!
# Lexemes with separators between them

Between two lexemes a blank unit is enough to keep them apart, and any blank space and comments may
follow it. A text that is printed so splits into the lexemes that were printed, whatever their
spellings and the comments have in them.
-/

namespace ProcCheck

namespace Text

/-- Blank units, block comments that are closed by the first `*/` in them, and line comments with the
line feed that ends them. -/
inductive Filler : Text → Prop
  | nil : Filler []
  | blank {u : CodeUnit} {t : Text} (isBlank : u.isBlank) (more : Filler t) : Filler (u :: t)
  | lineComment {body t : Text} (inside : CodeUnit.lineFeed ∉ body) (more : Filler t) :
      Filler ('/' :: '/' :: (body ++ .lineFeed :: t))
  | blockComment {body t : Text} (inside : ¬ commentEnd <:+: body) (more : Filler t) :
      Filler ('/' :: '*' :: (body ++ commentEnd ++ t))

/-- A blank unit and a filler. -/
inductive Separator : Text → Prop
  | blank {u : CodeUnit} {t : Text} (isBlank : u.isBlank) (more : Filler t) : Separator (u :: t)

variable {source before after t : Text} {found : List Token}

theorem Separator.filler (separator : Separator t) : Filler t := by
  obtain ⟨isBlank, more⟩ := separator
  exact .blank isBlank more

/-- A star behind a text closes no comment. -/
theorem commentEnd_infix_concat {body : Text} :
    commentEnd <:+: body ++ [('*' : CodeUnit)] ↔ commentEnd <:+: body := by
  refine List.infix_concat_iff.trans (or_iff_right fun closed => ?_)
  have last := closed.getLast (by simp [commentEnd])
  rw [List.getLast_concat] at last
  exact absurd last (by decide)

/-! ## Steps of the split -/

theorem Splits.filler {filler : Text} (isFiller : Filler filler)
    (split : source.Splits before found (filler ++ after)) :
    source.Splits (before ++ filler) found after := by
  induction isFiller generalizing before with
  | nil => rwa [List.append_nil]
  | @blank u t isBlank _ ih =>
    have next := ih (split.blank isBlank)
    rwa [List.append_assoc] at next
  | @lineComment body t inside _ ih =>
    have comment : source.Splits (before ++ ('/' : CodeUnit) :: '/' :: body) found
        (.lineFeed :: (t ++ after)) :=
      Splits.skip (by simpa using split) (.lineComment inside (by simp))
    have next := ih (comment.blank (by decide))
    simpa using next
  | @blockComment body t inside _ ih =>
    have comment : source.Splits (before ++ ('/' : CodeUnit) :: '*' :: (body ++ commentEnd)) found
        (t ++ after) :=
      Splits.skip (by simpa using split) (.blockComment (commentEnd_infix_concat.not.2 inside))
    have next := ih comment
    simpa using next

/-- A lexeme that stands in front of a text adds its token to the split. -/
theorem Splits.lexeme {l : Lexeme} (split : source.Splits before found (l.spelling ++ after))
    (stands : Piece.Stands (some l.kind) l.spelling after) :
    source.Splits (before ++ l.spelling) (found ++ [⟨l.kind, l.spelling, .behind before⟩]) after := by
  obtain ⟨kind, spelling⟩ := l
  obtain ⟨u, taken, rfl⟩ := TokenKind.spells_nonempty stands.1 stands.2.1
  exact split.step (Piece.atHead_of_stands stands)

/-! ## Printed texts -/

/-- Lexemes, each with the text in front of it. -/
def separated (ps : List (Text × Lexeme)) : Text := ps.flatMap fun p => p.1 ++ p.2.spelling

/-- The texts between lexemes are separators; what stands before the first and behind the last may
be empty too. -/
structure Apart (ps : List (Text × Lexeme)) (rear : Text) : Prop where
  front : ∀ p ∈ ps.head?, p.1 = [] ∨ Separator p.1
  between : ∀ p ∈ ps.tail, Separator p.1
  rear : rear = [] ∨ Separator rear

variable {ps : List (Text × Lexeme)} {p : Text × Lexeme} {rear : Text}

theorem separated_cons : separated (p :: ps) = p.1 ++ (p.2.spelling ++ separated ps) := by
  simp [separated]

/-- Behind a lexeme there is a separator, or nothing. -/
theorem Apart.endsAt (apart : Apart (p :: ps) rear) (kind : TokenKind) :
    kind.endsAt (separated ps ++ rear) := by
  cases ps with
  | nil =>
    obtain rfl | ⟨isBlank, -⟩ := apart.rear
    · exact TokenKind.endsAt_nil kind
    · exact TokenKind.endsAt_blank isBlank kind _
  | cons q ps =>
    have separator := apart.between q List.mem_cons_self
    rw [separated_cons]
    obtain ⟨gap, l⟩ := q
    obtain ⟨isBlank, -⟩ := separator
    exact TokenKind.endsAt_blank isBlank kind _

theorem Apart.tail (apart : Apart (p :: ps) rear) : Apart ps rear where
  front q member := .inr (apart.between q (List.mem_of_mem_head? member))
  between q member := apart.between q (List.mem_of_mem_tail member)
  rear := apart.rear

/-- Lexemes with separators between them are found one after the other. -/
theorem Splits.separated (spelt : ∀ p ∈ ps, p.2.kind ≠ .endOfInput ∧ p.2.kind.spells p.2.spelling)
    (apart : Apart ps rear) (split : source.Splits before found (separated ps ++ rear)) :
    ∃ tokens, source.Splits source (found ++ tokens) [] ∧
      tokens.map Token.lexeme = ps.map (·.2) := by
  have filler {gap : Text} (blank : gap = [] ∨ Separator gap) : Filler gap :=
    blank.elim (fun empty => empty ▸ .nil) Separator.filler
  induction ps generalizing before found with
  | nil =>
    have ended : source.Splits (before ++ rear) found [] :=
      Splits.filler (filler apart.rear) (by simpa [Text.separated] using split)
    obtain rfl : source = before ++ rear := by simpa using ended.whole
    exact ⟨[], by simpa using ended, rfl⟩
  | cons p ps ih =>
    obtain ⟨noEnd, spells⟩ := spelt p List.mem_cons_self
    rw [separated_cons, List.append_assoc, List.append_assoc] at split
    have next := (split.filler (filler (apart.front p rfl))).lexeme
      ⟨noEnd, spells, apart.endsAt p.2.kind⟩
    obtain ⟨tokens, whole, same⟩ := ih (fun q member => spelt q (List.mem_cons_of_mem _ member))
      apart.tail next
    rw [List.append_assoc] at whole
    exact ⟨_, whole, by simp [Token.lexeme, same]⟩

/-- Lexemes that are spelt as their kinds are, printed with separators between them, split into
tokens with just these kinds and spellings, and an end token behind them. -/
theorem tokens_separated (spelt : ∀ p ∈ ps, p.2.kind ≠ .endOfInput ∧ p.2.kind.spells p.2.spelling)
    (apart : Apart ps rear) :
    ∃ tokens, Text.tokens (Text.separated ps ++ rear) =
        .ok (tokens ++ [⟨.endOfInput, [], .behind (Text.separated ps ++ rear)⟩]) ∧
      tokens.map Token.lexeme = ps.map (·.2) := by
  obtain ⟨tokens, whole, same⟩ := Splits.separated spelt apart .start
  exact ⟨tokens, whole.tokens_eq, same⟩

/-- A word that a reserved word begins, between comments with quotes and a string with the opening
of a comment. -/
def separatedLexemes : List (Text × Lexeme) :=
  [([], ⟨.ifWord, "if"⟩), (" /* \" */", ⟨.identifier, "iffy"⟩),
    ("\t// \"x\n", ⟨.stringLiteral, "\"/*\""⟩), (" ", ⟨.assign, "="⟩)]

theorem tokens_separatedLexemes :
    (∀ p ∈ separatedLexemes, p.2.kind ≠ .endOfInput ∧ p.2.kind.spells p.2.spelling) ∧
    Apart separatedLexemes " //\n" ∧
    ∃ tokens, Text.tokens "if /* \" */iffy\t// \"x\n\"/*\" = //\n" =
        .ok (tokens ++ [⟨.endOfInput, [], ⟨3, 1⟩⟩]) ∧
      tokens.map Token.lexeme =
        [⟨.ifWord, "if"⟩, ⟨.identifier, "iffy"⟩, ⟨.stringLiteral, "\"/*\""⟩, ⟨.assign, "="⟩] := by
  have spelt : ∀ p ∈ separatedLexemes, p.2.kind ≠ .endOfInput ∧ p.2.kind.spells p.2.spelling := by
    decide
  have apart : Apart separatedLexemes " //\n" := by
    have remark : Filler "/* \" */" := .blockComment (show ¬ commentEnd <:+: " \" " by decide) .nil
    have line : Filler "// \"x\n" :=
      .lineComment (show CodeUnit.lineFeed ∉ Text.ofString " \"x" by decide) .nil
    have last : Filler "//\n" := .lineComment (show CodeUnit.lineFeed ∉ [] by decide) .nil
    refine ⟨by simp [separatedLexemes], ?_, .inr (.blank (by decide) last)⟩
    simp only [separatedLexemes, List.tail_cons, List.forall_mem_cons]
    exact ⟨.blank (by decide) remark, .blank (by decide) line, .blank (by decide) .nil, by simp⟩
  exact ⟨spelt, apart, tokens_separated spelt apart⟩

end Text

end ProcCheck
