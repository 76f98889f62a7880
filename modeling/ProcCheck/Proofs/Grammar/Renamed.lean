import ProcCheck.Proofs.Grammar.Recast
import ProcCheck.Proofs.Grammar.Snapshot
import ProcCheck.Proofs.Token.Renamed

/-!
# Reading renamed tokens

Renamed tokens spell the renamed tree. Of an expression the readers know the tokens and not the
text, so what they return is first said with the texts made from renamed lexemes. In a canonical
tree no two lexemes run into each other, and the texts made so are the renamed texts.
-/

namespace ProcCheck

open Grammar

theorem Excerpt.eq_of {a b : Excerpt} (text : a.text = b.text)
    (start : a.span.start = b.span.start) (stop : a.span.stop = b.span.stop) : a = b := by
  obtain ⟨_, _, _⟩ := a
  obtain ⟨_, _, _⟩ := b
  simp_all

namespace Renaming

variable (r : Renaming)

/-! ## Renamed trees -/

/-- Behind a name on the same line: as much further on as the name gets longer. -/
def behind (name : Text) (place : Position) : Position :=
  ⟨place.line, place.col + (r.name name).length - name.length⟩

/-- Where a renamed expression stops. Only an expression that ends with a name stops elsewhere. -/
def stop : Expr → Position
  | .identifier src name => r.behind name src.span.stop
  | .assign _ _ value => stop value
  | .binary _ _ _ right => stop right
  | .prefixed _ _ operand => stop operand
  | e => e.span.stop

/-- The recasting that renames a tree, with `texts` for the texts of expressions. -/
def recast (texts : Expr → Text) : Recast where
  name := r.name
  place := id
  behind := r.behind
  src e := ⟨texts e, ⟨e.span.start, r.stop e⟩⟩

/-- The text of an expression out of its lexemes, renamed. -/
def lexemesText (e : Expr) : Text := Lexeme.joined (e.lexemes.map r.lexeme)

/-- The recasting that renames, with the texts out of lexemes. -/
def byLexemes : Recast := r.recast r.lexemesText

/-- The recasting that renames, with the texts renamed. -/
def byText : Recast := r.recast fun e => e.text.renamed r

theorem text_byLexemes (e : Expr) : (r.byLexemes.src e).text = r.lexemesText e := rfl

/-- Identifiers in the class of their kind, with their spellings replaced. -/
def respelling : Respelling where
  token := r.token
  known t := t.isSpelt
  kind _ := rfl

/-! ## Single tokens -/

theorem token_of_ne {t : Token} (other : t.kind ≠ .identifier) : r.token t = t := by
  rw [token, r.spelling_of_ne other]

/-- A token that is no identifier is spelt as before. -/
theorem token_of_closed {t : Token} {kind : TokenKind} (spelt : t.isSpelt) (same : t.kind = kind)
    (closed : kind.isOpen = false) : r.token t = t ∧ t.spelling = kind.spelling := by
  have other : t.kind ≠ .identifier := by
    intro isName
    rw [← same, isName] at closed
    cases closed
  exact ⟨r.token_of_ne other, congrArg Lexeme.spelling (Token.lexeme_fixed spelt same closed)⟩

theorem behind_token {t : Token} (spelt : t.isSpelt) (isName : t.kind = .identifier) :
    (r.token t).span.stop = r.behind t.spelling t.span.stop := by
  have name := r.spelling_callable spelt (by rw [isName]; rfl)
  change Position.mk _ (_ + ((r.token t).spelling.length : Int)) =
    Position.mk _ (t.pos.col + t.spelling.length + (r.name t.spelling).length - t.spelling.length)
  rw [name]
  congr 1
  simp only [token]
  omega

/-! ## Expressions -/

@[simp] theorem stop_attach (left right : Expr) (op : BinaryOp) (sign : Excerpt) :
    r.stop (left.attach op sign right) = r.stop right := by
  induction left using Expr.attach.induct op with
  | case1 src outer l rest below ih => simp [Expr.attach, below, stop, ih]
  | case2 src outer l rest above => simp [Expr.attach, above, stop]
  | case3 left other => simp [Expr.attach, stop]

/-- The text of further arguments out of their lexemes, renamed. -/
theorem joined_moreLexemes {more : List (Token × Expr)}
    (commas : Follows.Commas r.respelling more) :
    Lexeme.joined ((Expr.lexemes.moreLexemes (more.map (·.2))).map r.lexeme) =
      (Follows.tail r.respelling (Expr.recast r.byLexemes) more).flatMap fun next =>
        next.1.spelling ++ next.2.src.text := by
  induction more with
  | nil => rfl
  | cons next more ih =>
    obtain ⟨⟨spelt, isComma⟩, others⟩ := List.forall_mem_cons.1 commas
    obtain ⟨same, comma⟩ := r.token_of_closed spelt isComma rfl
    have src : (next.2.recast r.byLexemes).src.text = r.lexemesText next.2 := by
      rw [Expr.src_recast]
      rfl
    have head : (r.respelling.token next.1).spelling = TokenKind.comma.spelling := by
      rw [← comma]
      exact congrArg Token.spelling same
    simp only [List.map_cons, Expr.lexemes.moreLexemes, Follows.tail, List.flatMap_cons, Prod.map,
      src, head] at ih ⊢
    rw [← ih others, lexemesText]
    simp [Lexeme.fixed, lexeme, spelling]

section Tokens

variable {callee opening closing target sign : Token}

theorem lexemesText_leaf {t : Token} {e : Expr} (spelt : t.isSpelt) (isLeaf : leaf? t = some e) :
    r.lexemesText e = (r.token t).spelling ∧ r.stop e = (r.token t).span.stop := by
  simp only [leaf?] at isLeaf
  split at isLeaf
  case h_1 kind =>
    cases isLeaf
    have word := Token.lexeme_word spelt (.inl (by rw [kind]; rfl))
    exact ⟨by simp [lexemesText, Expr.lexemes, ← word], (r.behind_token spelt kind).symm⟩
  case h_5 => cases isLeaf
  all_goals
    next kind =>
      cases isLeaf
      have same := r.token_of_ne (t := t) (by rw [kind]; decide)
      rw [same]
      exact ⟨by simp [lexemesText, Expr.lexemes, lexeme, spelling], rfl⟩

theorem lexemesText_call {src : Excerpt} {args : List Expr}
    (spelt : callee.isSpelt ∧ opening.isSpelt ∧ closing.isSpelt) (callable : callee.kind.isCallable)
    (opens : opening.kind = .openParen) (closes : closing.kind = .closeParen) :
    r.lexemesText (.call src callee.spelling args) =
      (r.token callee).spelling ++ (r.token opening).spelling ++
        Lexeme.joined ((Expr.lexemes.argLexemes args).map r.lexeme) ++
          (r.token closing).spelling := by
  have word := Token.lexeme_word spelt.1 (.inl callable)
  have opens := Token.lexeme_fixed spelt.2.1 opens rfl
  have closes := Token.lexeme_fixed spelt.2.2 closes rfl
  simp [lexemesText, Expr.lexemes, ← word, ← opens, ← closes]

theorem lexemesText_assign {src : Excerpt} {value : Expr} (spelt : target.isSpelt ∧ sign.isSpelt)
    (isName : target.kind = .identifier) (isSign : sign.kind = .assign) :
    r.lexemesText (.assign src target.spelling value) =
      (r.token target).spelling ++ (r.token sign).spelling ++ r.lexemesText value := by
  have word := Token.lexeme_word spelt.1 (.inl (by rw [isName]; rfl))
  have isSign := Token.lexeme_fixed spelt.2 isSign rfl
  simp [lexemesText, Expr.lexemes, ← word, ← isSign]

theorem lexemesText_attach {left right : Expr} {op : BinaryOp} (spelt : sign.isSpelt)
    (isSign : sign.kind = .operator op) :
    r.lexemesText (left.attach op sign.excerpt right) =
      r.lexemesText left ++ (r.token sign).spelling ++ r.lexemesText right := by
  have isSign := Token.lexeme_fixed spelt isSign rfl
  simp [lexemesText, ← isSign]

theorem lexemesText_prefixed {src : Excerpt} {op : PrefixOp} {operand : Expr}
    (spelt : sign.isSpelt) (isSign : sign.kind = op.kind) :
    r.lexemesText (.prefixed src op operand) =
      (r.token sign).spelling ++ r.lexemesText operand := by
  have closed : op.kind.isOpen = false := by cases op <;> rfl
  have isSign := Token.lexeme_fixed spelt isSign closed
  simp [lexemesText, Expr.lexemes, ← isSign]

theorem lexemesText_group {src : Excerpt} {inner : Expr} (spelt : opening.isSpelt ∧ closing.isSpelt)
    (opens : opening.kind = .openParen) (closes : closing.kind = .closeParen) :
    r.lexemesText (.group src inner) =
      (r.token opening).spelling ++ r.lexemesText inner ++ (r.token closing).spelling := by
  have opens := Token.lexeme_fixed spelt.1 opens rfl
  have closes := Token.lexeme_fixed spelt.2 closes rfl
  simp [lexemesText, Expr.lexemes, ← opens, ← closes]

end Tokens

/-- Renamed tokens fit the renaming of trees. -/
theorem fits : r.byLexemes.Fits r.respelling where
  spelling spelt other := r.spelling_of_ne other _
  name := r.spelling_callable
  start _ := rfl
  stop spelt other := congrArg (·.span.stop) (r.token_of_ne other)
  behind := r.behind_token
  exprStart _ := rfl
  leaf := by
    intro t e spelt isLeaf
    obtain ⟨text, stop⟩ := r.lexemesText_leaf spelt isLeaf
    have start : e.span.start = (r.token t).excerpt.span.start := by
      simp only [leaf?] at isLeaf
      split at isLeaf <;> cases isLeaf <;> rfl
    exact Excerpt.eq_of text start stop
  callEmpty := by
    intro callee opening closing spelt callable opens closes
    have last := (r.token_of_closed spelt.2.2 closes rfl).1
    apply Excerpt.eq_of
    · rw [r.text_byLexemes, r.lexemesText_call spelt callable opens closes,
        Expr.lexemes.argLexemes, List.map_nil, Lexeme.joined_nil, List.append_nil]
      rfl
    · rfl
    · exact congrArg (·.span.stop) last.symm
  callArgs := by
    intro callee opening closing first more spelt callable opens closes commas
    have last := (r.token_of_closed spelt.2.2 closes rfl).1
    apply Excerpt.eq_of
    · rw [r.text_byLexemes, r.lexemesText_call spelt callable opens closes,
        Expr.lexemes.argLexemes, List.map_append, Lexeme.joined_append, r.joined_moreLexemes commas,
        Excerpt.text_append, argsExcerpt_text, Excerpt.text_append, r.text_byLexemes, lexemesText,
        ← List.append_assoc]
      rfl
    · rw [Excerpt.span_append, Span.start_append, argsExcerpt_start]
      change (argsExcerpt _ more).span.start = _
      rw [argsExcerpt_start]
      rfl
    · exact congrArg (·.span.stop) last.symm
  assign := by
    intro target sign value spelt isName isSign
    apply Excerpt.eq_of
    · rw [r.text_byLexemes, r.lexemesText_assign spelt isName isSign]
      rfl
    · rfl
    · rfl
  attach := by
    intro left right op sign spelt isSign
    apply Excerpt.eq_of
    · exact r.lexemesText_attach spelt isSign
    · change (left.attach op sign.excerpt right).src.span.start = _
      rw [Expr.attach_src]
      rfl
    · exact r.stop_attach left right op _
  prefixed := by
    intro op sign operand spelt isSign
    apply Excerpt.eq_of
    · rw [r.text_byLexemes, r.lexemesText_prefixed spelt isSign]
      rfl
    · rfl
    · rfl
  group := by
    intro opening closing inner spelt opens closes
    have last := (r.token_of_closed spelt.2 closes rfl).1
    apply Excerpt.eq_of
    · rw [r.text_byLexemes, r.lexemesText_group spelt opens closes]
      rfl
    · rfl
    · exact congrArg (·.span.stop) last.symm

/-! ## Canonical trees -/

/-- In a canonical expression the text out of renamed lexemes is the renamed text. -/
theorem src_canonical {e : Expr} (canonical : e.Canonical) : r.byLexemes.src e = r.byText.src e := by
  have text : r.lexemesText e = e.text.renamed r := by
    rw [Expr.text, canonical.text_eq, Text.renamed_joined r (canonical.adjacent rfl)]
    rfl
  exact congrArg (Excerpt.mk · ⟨e.span.start, r.stop e⟩) text

theorem expr_canonical {e : Expr} (canonical : e.Canonical) :
    e.recast r.byLexemes = e.recast r.byText := by
  have src := r.src_canonical canonical
  induction canonical with
  | intLiteral | floatLiteral | stringLiteral => rw [Expr.recast, Expr.recast, src]
  | identifier =>
    rw [Expr.recast, Expr.recast, src]
    rfl
  | call name each text ih =>
    rw [Expr.recast, Expr.recast, src, Expr.recastAll_eq, Expr.recastAll_eq,
      List.map_congr_left fun a member => ih a member (r.src_canonical (each a member))]
    rfl
  | assign name canonical text ih =>
    rw [Expr.recast, Expr.recast, src, ih (r.src_canonical canonical)]
    rfl
  | binary left right leftRank rightRank text ihLeft ihRight =>
    rw [Expr.recast, Expr.recast, src, ihLeft (r.src_canonical left),
      ihRight (r.src_canonical right)]
  | prefixed canonical rank text ih | group canonical text ih =>
    rw [Expr.recast, Expr.recast, src, ih (r.src_canonical canonical)]

theorem option_canonical {o : Option Expr} (canonical : ∀ e ∈ o, e.Canonical) :
    o.map (Expr.recast r.byLexemes) = o.map (Expr.recast r.byText) :=
  Option.map_congr fun e member => r.expr_canonical (canonical e member)

theorem varDecl_canonical {decl : VarDecl} (canonical : decl.Canonical) :
    decl.recast r.byLexemes = decl.recast r.byText := by
  rw [VarDecl.recast, VarDecl.recast, r.option_canonical canonical.init]
  rfl

theorem block_canonical {body : Block Stmt}
    (each : ∀ s ∈ body.statements, s.recast r.byLexemes = s.recast r.byText) :
    body.recast r.byLexemes = body.recast r.byText := by
  rw [Block.recast, Block.recast, List.map_congr_left each]
  rfl

theorem stmt_canonical {s : Stmt} (canonical : s.Canonical) :
    s.recast r.byLexemes = s.recast r.byText := by
  induction canonical with
  | var canonical => rw [Stmt.recast, Stmt.recast, r.varDecl_canonical canonical]
  | block _ ih => simp only [Stmt.recast, Stmt.recastBlock_eq, r.block_canonical ih]
  | branch test _ _ ihThen ihElse =>
    have alternative := Option.map_congr fun body member => r.block_canonical (ihElse body member)
    simp only [Stmt.recast, Stmt.recastBlock_eq, Stmt.recastElse_eq, r.expr_canonical test,
      r.block_canonical ihThen, alternative]
    rfl
  | whileLoop test _ ih =>
    simp only [Stmt.recast, Stmt.recastBlock_eq, r.block_canonical ih, r.expr_canonical test]
    rfl
  | forLoop _ _ test last _ ihInit ih =>
    have first := Option.map_congr ihInit
    simp only [Stmt.recast, Stmt.recastBlock_eq, Stmt.recastInit_eq, first, r.block_canonical ih,
      r.option_canonical test, r.option_canonical last]
    rfl
  | expr canonical =>
    rw [Stmt.recast, Stmt.recast, r.expr_canonical canonical]
    rfl
  | ret canonical =>
    rw [Stmt.recast, Stmt.recast, r.option_canonical canonical]
    rfl

theorem topLevel_canonical {node : TopLevel} (canonical : node.Canonical) :
    node.recast r.byLexemes = node.recast r.byText := by
  cases canonical with
  | global canonical => rw [TopLevel.recast, TopLevel.recast, r.varDecl_canonical canonical]
  | function canonical =>
    have body := r.block_canonical fun s member => r.stmt_canonical (canonical.body s member)
    rw [TopLevel.recast, TopLevel.recast, FunctionDecl.recast, FunctionDecl.recast, body]
    rfl
  | statement _ canonical => rw [TopLevel.recast, TopLevel.recast, r.stmt_canonical canonical]

end Renaming

/-! ## Programs -/

/-- The nodes of a program are those that the tokens in front of the end token spell. -/
theorem Program.ofTokens_append {body : List Token} {last : Token}
    (inside : ∀ t ∈ body, t.kind ≠ .endOfInput) (ends : last.isEnd) {nodes : List TopLevel} :
    (∃ span, ofTokens (body ++ [last]) = .ok ⟨nodes, span⟩) ↔
      ∃ rest, Grammar.declarations body = .ok (nodes, rest) := by
  have parts : splitAtEnd (body ++ [last]) = (body, last) := splitAtEnd_append inside ends
  simp only [ofTokens, parts]
  cases Grammar.declarations body with
  | error refusal => simp
  | ok answer =>
    obtain ⟨others, rest⟩ := answer
    simp

/-- The renamed tokens of a source that spells a program spell the renamed program. -/
theorem Text.ofTokens_renamed {source : Text} {tokens : List Token} {p : Program} (r : Renaming)
    (split : source.tokens = .ok tokens) (read : Program.ofTokens tokens = .ok p) :
    ∃ span, Program.ofTokens (tokens.map r.token) =
      .ok ⟨p.declarations.map (TopLevel.recast r.byText), span⟩ := by
  have canonical := canonical_of_program ((program_eq_ofTokens split).trans read)
  have renamed := List.map_congr_left fun node member =>
    r.topLevel_canonical (canonical node member)
  obtain ⟨body, rfl, stand⟩ := tokens_stand split
  have inside : ∀ t ∈ body, t.kind ≠ .endOfInput := fun t member => (stand t member).1
  have inside' : ∀ t ∈ body.map r.token, t.kind ≠ .endOfInput := by simpa using inside
  obtain ⟨rest, run⟩ := (Program.ofTokens_append inside rfl).1 ⟨p.span, read⟩
  have again := (declarations_follow r.fits).run_ok (fun t member => (stand t member).2.1) run
  rw [← renamed, List.map_append]
  exact (Program.ofTokens_append inside' rfl).2 ⟨rest.map r.token, again⟩

end ProcCheck
