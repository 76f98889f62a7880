import ProcCheck.Proofs.Grammar.Precedence
import ProcCheck.Proofs.Grammar.Read
import ProcCheck.Proofs.Grammar.Spelling

/-!
# Soundness of the readers of expressions

What a reader of expressions returns is canonical and has exactly the lexemes of the tokens
that the reader took. `Expr.SpeltBy` says so, and how tightly the expression holds together at
least; each reader keeps it if the readers that it is made of do.
-/

namespace ProcCheck

@[simp] theorem Token.excerpt_text (t : Token) : t.excerpt.text = t.spelling := rfl

namespace Grammar

/-! ## Operands -/

/-- What a call covers up to its last argument, given what it covers up to its first. -/
abbrev argsExcerpt (src : Excerpt) (more : List (Token × Expr)) : Excerpt :=
  more.foldl (fun src next => src ++ next.1.excerpt ++ next.2.src) src

/-- The text of a call's arguments grows by each comma and the argument behind it. -/
theorem argsExcerpt_text (more : List (Token × Expr)) (src : Excerpt) :
    (argsExcerpt src more).text =
      src.text ++ more.flatMap fun next => next.1.spelling ++ next.2.src.text := by
  induction more generalizing src with
  | nil => simp
  | cons next rest ih =>
    rw [argsExcerpt, List.foldl_cons, ih]
    simp

/-- What a call covers starts where it did before its further arguments. -/
theorem argsExcerpt_start (more : List (Token × Expr)) (src : Excerpt) :
    (argsExcerpt src more).span.start = src.span.start := by
  induction more generalizing src with
  | nil => rfl
  | cons next more ih => exact ih (src ++ next.1.excerpt ++ next.2.src)

/-- Arguments behind commas are canonical, and their lexemes and texts are those of the tokens. -/
theorem commaTail_args {more : List (Token × Expr)} {tail : List Token}
    (read : CommaTail (Expr.SpeltBy 0) more tail) :
    (∀ a ∈ more.map (·.2), a.Canonical) ∧
      Expr.lexemes.moreLexemes (more.map (·.2)) = tail.map Token.lexeme ∧
      more.flatMap (fun next => next.1.spelling ++ next.2.src.text) =
        Lexeme.joined (tail.map Token.lexeme) := by
  induction more generalizing tail with
  | nil =>
    cases read
    simp [Expr.lexemes.moreLexemes]
  | cons next rest ih =>
    obtain ⟨used, tail, rfl, comma, spelt, further⟩ := read
    obtain ⟨each, lexemes, text⟩ := ih further
    refine ⟨List.forall_mem_cons.2 ⟨spelt.canonical, each⟩, ?_, ?_⟩
    · simp [Expr.lexemes.moreLexemes, comma, spelt.lexemes, lexemes]
    · have spelling : next.1.spelling = (Lexeme.fixed .comma).spelling := by
        rw [← comma, Token.lexeme]
      simp [spelling, comma, spelt.canonical.text_eq, spelt.lexemes, text]

theorem call_reads {inner : Parse Expr} (reads : Reads inner (Expr.SpeltBy 0)) {bound : Nat}
    {callee opening : Token} (calleeSpelt : callee.isSpelt) (callable : callee.kind.isCallable)
    (opens : opening.lexeme = .fixed .openParen) :
    Reads (call inner bound callee opening) fun e used =>
      e.SpeltBy 8 (callee :: opening :: used) := by
  intro ts e rest spelt run
  obtain ⟨args, mid, runArgs, runRest⟩ := bind_ok.1 run
  obtain ⟨closing, mid', runClosing, same⟩ := bind_ok.1 runRest
  obtain ⟨rfl, isClosing⟩ := expect_ok.1 runClosing
  have word : callee.lexeme = .word callee.spelling := Token.lexeme_word calleeSpelt (.inl callable)
  have name : TokenKind.spellsCallee callee.spelling := by
    rw [TokenKind.spellsCallee, Bool.or_eq_true]
    exact (Token.callable_cases calleeSpelt callable).imp And.right And.right
  rcases unlessNext_ok.1 runArgs with ⟨rfl, rfl, -⟩ | ⟨⟨first, more⟩, rfl, runList, -⟩
  · obtain ⟨rfl, rfl⟩ := pure_ok.1 same
    have close := Token.lexeme_fixed (allSpelt_cons.1 spelt).1 isClosing rfl
    have lexemes (src : Excerpt) : (Expr.call src callee.spelling []).lexemes =
        [callee, opening, closing].map Token.lexeme := by
      simp [Expr.lexemes, Expr.lexemes.argLexemes, word, opens, close]
    refine ⟨[closing], rfl, .call name (by simp) ?_, Nat.le_refl _, lexemes _⟩
    rw [lexemes]
    simp [Token.lexeme]
  · obtain ⟨rfl, rfl⟩ := pure_ok.1 same
    obtain ⟨used, rfl, firstUsed, tail, rfl, readFirst, readMore⟩ :=
      commaList_reads reads bound _ _ _ spelt runList
    obtain ⟨each, moreLexemes, moreText⟩ := commaTail_args readMore
    simp only [allSpelt_append, allSpelt_cons] at spelt
    have close := Token.lexeme_fixed spelt.2.1 isClosing rfl
    have lexemes (src : Excerpt) :
        (Expr.call src callee.spelling (first :: more.map (·.2))).lexemes =
          (callee :: opening :: (firstUsed ++ tail ++ [closing])).map Token.lexeme := by
      simp [Expr.lexemes, Expr.lexemes.argLexemes, word, opens, close, readFirst.lexemes,
        moreLexemes]
    refine ⟨firstUsed ++ tail ++ [closing], by simp, .call name ?_ ?_, Nat.le_refl _, lexemes _⟩
    · exact List.forall_mem_cons.2 ⟨readFirst.canonical, each⟩
    · rw [lexemes, Excerpt.text_append, argsExcerpt_text, moreText]
      simp [Token.lexeme, readFirst.canonical.text_eq, readFirst.lexemes]

theorem group_reads {inner : Parse Expr} (reads : Reads inner (Expr.SpeltBy 0)) {opening : Token}
    (opens : opening.lexeme = .fixed .openParen) :
    Reads (group inner opening) fun e used => e.SpeltBy 8 (opening :: used) := by
  intro ts e rest spelt run
  obtain ⟨body, mid, runInner, runRest⟩ := bind_ok.1 run
  obtain ⟨used, rfl, read⟩ := reads _ _ _ spelt runInner
  obtain ⟨closing, mid', runClosing, same⟩ := bind_ok.1 runRest
  obtain ⟨rfl, isClosing⟩ := expect_ok.1 runClosing
  obtain ⟨rfl, rfl⟩ := pure_ok.1 same
  simp only [allSpelt_append, allSpelt_cons] at spelt
  have close := Token.lexeme_fixed spelt.2.1 isClosing rfl
  have lexemes (src : Excerpt) :
      (Expr.group src body).lexemes = (opening :: (used ++ [closing])).map Token.lexeme := by
    simp [Expr.lexemes, opens, close, read.lexemes]
  refine ⟨used ++ [closing], by simp, .group read.canonical ?_, Nat.le_refl _, lexemes _⟩
  rw [lexemes]
  simp [Token.lexeme, read.canonical.text_eq, read.lexemes]

theorem simple_reads {inner : Parse Expr} (reads : Reads inner (Expr.SpeltBy 0)) {t : Token}
    (spelt : t.isSpelt) :
    Reads (primary.simple inner t) fun e used => e.SpeltBy 8 (t :: used) := by
  intro ts e rest restSpelt run
  simp only [primary.simple] at run
  split at run
  case h_1 kind =>
    cases run
    have inClass := Token.spells_of_kind spelt kind
    have word := Token.lexeme_word spelt (.inl (by simp [kind, TokenKind.isCallable]))
    exact ⟨[], rfl, .identifier inClass, Nat.le_refl _, by simp [Expr.lexemes, word]⟩
  case h_2 kind =>
    cases run
    have inClass := Token.spells_of_kind spelt kind
    exact ⟨[], rfl, .intLiteral inClass, Nat.le_refl _, by simp [Expr.lexemes, Token.lexeme, kind]⟩
  case h_3 kind =>
    cases run
    have inClass := Token.spells_of_kind spelt kind
    exact ⟨[], rfl, .floatLiteral inClass, Nat.le_refl _, by simp [Expr.lexemes, Token.lexeme, kind]⟩
  case h_4 kind =>
    cases run
    have inClass := Token.spells_of_kind spelt kind
    exact ⟨[], rfl, .stringLiteral inClass, Nat.le_refl _, by simp [Expr.lexemes, Token.lexeme, kind]⟩
  case h_5 kind =>
    exact group_reads reads (Token.lexeme_fixed spelt kind rfl) ts e rest restSpelt run
  case h_6 => exact absurd run refuse_ok

theorem primary_reads {inner : Parse Expr} (reads : Reads inner (Expr.SpeltBy 0)) (bound : Nat) :
    Reads (primary inner bound) (Expr.SpeltBy 8) := by
  intro ts e rest spelt run
  cases ts with
  | nil => exact absurd run refuse_ok
  | cons t more =>
    obtain ⟨headSpelt, moreSpelt⟩ := allSpelt_cons.1 spelt
    have simple : primary.simple inner t more = .ok (e, rest) →
        ∃ used, t :: more = used ++ rest ∧ e.SpeltBy 8 used := by
      intro runSimple
      obtain ⟨used, rfl, read⟩ := simple_reads reads headSpelt _ _ _ moreSpelt runSimple
      exact ⟨t :: used, rfl, read⟩
    cases more with
    | nil => exact simple run
    | cons paren more =>
      simp only [primary] at run
      split at run
      next starts =>
        obtain ⟨parenSpelt, argsSpelt⟩ := allSpelt_cons.1 moreSpelt
        have opens := Token.lexeme_fixed parenSpelt starts.2 rfl
        obtain ⟨used, rfl, read⟩ := call_reads reads headSpelt starts.1 opens _ _ _ argsSpelt run
        exact ⟨t :: paren :: used, rfl, read⟩
      next => exact simple run

theorem prefixOp?_eq_some {kind : TokenKind} {op : PrefixOp} :
    kind.prefixOp? = some op ↔ kind = op.kind := by
  cases kind with
  | operator binary => cases binary <;> cases op <;> simp [TokenKind.prefixOp?, PrefixOp.kind]
  | _ => cases op <;> simp [TokenKind.prefixOp?, PrefixOp.kind]

theorem prefixed_reads {primary : Parse Expr} (reads : Reads primary (Expr.SpeltBy 8))
    (bound : Nat) : Reads (prefixed primary bound) (Expr.SpeltBy 7) := by
  have looser : Reads primary (Expr.SpeltBy 7) :=
    reads.mono fun e used read => ⟨read.canonical, Nat.le_of_succ_le read.rank, read.lexemes⟩
  induction bound with
  | zero => exact looser
  | succ bound ih =>
    intro ts e rest spelt run
    obtain ⟨taken, mid, runTake, runRest⟩ := bind_ok.1 run
    rcases take?_ok.1 runTake with ⟨op, sign, rfl, rfl, isOp⟩ | ⟨rfl, rfl, -⟩
    · obtain ⟨operand, mid', runOperand, same⟩ := bind_ok.1 runRest
      obtain ⟨rfl, rfl⟩ := pure_ok.1 same
      obtain ⟨signSpelt, restSpelt⟩ := allSpelt_cons.1 spelt
      obtain ⟨used, rfl, read⟩ := ih _ _ _ restSpelt runOperand
      have closed : op.kind.isOpen = false := by cases op <;> rfl
      have signLexeme := Token.lexeme_fixed signSpelt (prefixOp?_eq_some.1 isOp) closed
      have lexemes (src : Excerpt) :
          (Expr.prefixed src op operand).lexemes = (sign :: used).map Token.lexeme := by
        simp [Expr.lexemes, signLexeme, read.lexemes]
      refine ⟨sign :: used, rfl, .prefixed read.canonical read.rank ?_, Nat.le_refl _, lexemes _⟩
      rw [lexemes]
      simp [Token.lexeme, read.canonical.text_eq, read.lexemes]
    · exact looser _ _ _ spelt runRest

/-! ## Chains and assignments -/

theorem binaryOp?_eq_some {kind : TokenKind} {op : BinaryOp} :
    kind.binaryOp? = some op ↔ kind = .operator op := by
  cases kind <;> simp [TokenKind.binaryOp?]

/-- An operator and an operand that tokens spell go with the tokens of the tree before them. -/
theorem attach_spelt {left right : Expr} {before used : List Token} {op : BinaryOp} {sign : Token}
    (leftRead : left.SpeltBy 1 before) (signLexeme : sign.lexeme = .fixed (.operator op))
    (rightRead : right.SpeltBy 7 used) :
    (left.attach op sign.excerpt right).SpeltBy 1 (before ++ sign :: used) := by
  have signText : sign.excerpt.text = (TokenKind.operator op).spelling :=
    congrArg Lexeme.spelling signLexeme
  have leftRank := leftRead.rank
  have rank : min left.rank (op.level + 1) ≤ (left.attach op sign.excerpt right).rank :=
    Expr.le_rank_attach
  refine ⟨?_, by omega, by simp [signLexeme, leftRead.lexemes, rightRead.lexemes]⟩
  exact Expr.attach_canonical leftRead.canonical leftRank rightRead.canonical rightRead.rank
    signText

/-- Each round of the loop attaches one more operator to a tree that all tokens so far spell. -/
theorem operators_reads {operand : Parse Expr} (reads : Reads operand (Expr.SpeltBy 7))
    (bound : Nat) {left : Expr} {before : List Token} (leftRead : left.SpeltBy 1 before) :
    Reads (operators operand bound left) fun e used => e.SpeltBy 1 (before ++ used) := by
  induction bound generalizing left before with
  | zero =>
    intro ts e rest _ run
    obtain ⟨rfl, rfl⟩ := pure_ok.1 run
    exact ⟨[], rfl, by simpa using leftRead⟩
  | succ bound ih =>
    intro ts e rest spelt run
    obtain ⟨taken, mid, runTake, runRest⟩ := bind_ok.1 run
    rcases take?_ok.1 runTake with ⟨op, sign, rfl, rfl, isOp⟩ | ⟨rfl, rfl, -⟩
    · obtain ⟨right, mid', runOperand, runLoop⟩ := bind_ok.1 runRest
      obtain ⟨signSpelt, restSpelt⟩ := allSpelt_cons.1 spelt
      obtain ⟨used, rfl, rightRead⟩ := reads _ _ _ restSpelt runOperand
      have signLexeme := Token.lexeme_fixed signSpelt (binaryOp?_eq_some.1 isOp) rfl
      obtain ⟨more, rfl, read⟩ := ih (attach_spelt leftRead signLexeme rightRead) _ _ _
        (allSpelt_append.1 restSpelt).2 runLoop
      exact ⟨sign :: (used ++ more), by simp, by simpa using read⟩
    · obtain ⟨rfl, rfl⟩ := pure_ok.1 runRest
      exact ⟨[], rfl, by simpa using leftRead⟩

theorem assignmentStart?_ok {o : Option (Token × Token)} {ts rest : List Token} :
    assignmentStart? ts = .ok (o, rest) ↔
      (∃ target sign, o = some (target, sign) ∧ ts = target :: sign :: rest ∧
        target.kind = .identifier ∧ sign.kind = .assign) ∨
      o = none ∧ rest = ts ∧
        ∀ target sign more, ts = target :: sign :: more →
          ¬ (target.kind = .identifier ∧ sign.kind = .assign) := by
  match ts with
  | [] => simp [assignmentStart?, eq_comm]
  | [t] => simp [assignmentStart?, eq_comm]
  | target :: sign :: more =>
    simp only [assignmentStart?]
    split
    next starts =>
      constructor
      · intro same
        cases same
        exact .inl ⟨target, sign, rfl, rfl, starts⟩
      · rintro (⟨target, sign, rfl, same, -⟩ | ⟨-, -, other⟩)
        · cases same
          rfl
        · exact absurd starts (other _ _ _ rfl)
    next other =>
      constructor
      · intro same
        cases same
        exact .inr ⟨rfl, rfl, by rintro _ _ _ ⟨⟩; exact other⟩
      · rintro (⟨target, sign, rfl, same, starts⟩ | ⟨rfl, rfl, -⟩)
        · cases same
          exact absurd starts other
        · rfl

theorem expressionWithin_reads (bound : Nat) :
    Reads (expressionWithin bound) (Expr.SpeltBy 0) := by
  induction bound with
  | zero =>
    intro ts e rest _ run
    exact absurd run refuse_ok
  | succ bound ih =>
    intro ts e rest spelt run
    obtain ⟨start, mid, runStart, runRest⟩ := bind_ok.1 run
    rcases assignmentStart?_ok.1 runStart with
      ⟨target, sign, rfl, rfl, isName, isSign⟩ | ⟨rfl, rfl, -⟩
    · obtain ⟨value, mid', runValue, same⟩ := bind_ok.1 runRest
      obtain ⟨rfl, rfl⟩ := pure_ok.1 same
      simp only [allSpelt_cons] at spelt
      obtain ⟨used, rfl, read⟩ := ih _ _ _ spelt.2.2 runValue
      have word := Token.lexeme_word spelt.1 (.inl (by simp [isName, TokenKind.isCallable]))
      have name := Token.spells_of_kind spelt.1 isName
      have signLexeme := Token.lexeme_fixed spelt.2.1 isSign rfl
      have lexemes (src : Excerpt) : (Expr.assign src target.spelling value).lexemes =
          (target :: sign :: used).map Token.lexeme := by
        simp [Expr.lexemes, word, signLexeme, read.lexemes]
      refine ⟨target :: sign :: used, rfl, .assign name read.canonical ?_, Nat.zero_le _, lexemes _⟩
      rw [lexemes]
      simp [Token.lexeme, read.canonical.text_eq, read.lexemes]
    · obtain ⟨first, mid', runFirst, runLoop⟩ := bind_ok.1 runRest
      have operand := prefixed_reads (primary_reads ih (bound + 1)) (bound + 1)
      obtain ⟨used, rfl, read⟩ := operand _ _ _ spelt runFirst
      have firstRead : first.SpeltBy 1 used :=
        ⟨read.canonical, by have := read.rank; omega, read.lexemes⟩
      obtain ⟨more, rfl, whole⟩ :=
        operators_reads operand (bound + 1) firstRead _ _ _ (allSpelt_append.1 spelt).2 runLoop
      exact ⟨used ++ more, by simp, whole.canonical, Nat.zero_le _, whole.lexemes⟩

theorem expression_reads : Reads expression (Expr.SpeltBy 0) := by
  intro ts e rest spelt run
  exact expressionWithin_reads _ ts e rest spelt run

end Grammar

end ProcCheck
