import ProcCheck.Proofs.Grammar.ExpressionSoundness

/-!
# Completeness of the readers of expressions

On tokens that spell a canonical expression each reader takes exactly those tokens and returns
that expression, provided that what follows can follow it. Readers decide by one or two tokens,
so the first tokens of what is spelt and the token behind it settle every choice. The loop over
operators attaches the links of the chain one after the other, which rebuilds the tree.
-/

namespace ProcCheck.Grammar

open Slot

variable {rest : List Token}

/-! ## Tokens of known lexemes -/

theorem lexemes_cons {used : List Token} {l : Lexeme} {ls : List Lexeme}
    (same : used.map Token.lexeme = l :: ls) : ∃ t tail, used = t :: tail ∧ t.kind = l.kind ∧
      t.spelling = l.spelling ∧ tail.map Token.lexeme = ls := by
  obtain ⟨t, tail, rfl, head, more⟩ := List.map_eq_cons_iff.1 same
  exact ⟨t, tail, rfl, congrArg Lexeme.kind head, congrArg Lexeme.spelling head, more⟩

theorem lexemes_single {used : List Token} {l : Lexeme} (same : used.map Token.lexeme = [l]) :
    ∃ t, used = [t] ∧ t.kind = l.kind ∧ t.spelling = l.spelling := by
  obtain ⟨t, tail, rfl, kind, spelling, none⟩ := lexemes_cons same
  obtain rfl := List.map_eq_nil_iff.1 none
  exact ⟨t, rfl, kind, spelling⟩

theorem lexemes_concat {used : List Token} {l : Lexeme} {ls : List Lexeme}
    (same : used.map Token.lexeme = ls ++ [l]) : ∃ body t, used = body ++ [t] ∧
      body.map Token.lexeme = ls ∧ t.kind = l.kind := by
  obtain ⟨body, tail, rfl, front, back⟩ := List.map_eq_append_iff.1 same
  obtain ⟨t, rfl, kind, -⟩ := lexemes_single back
  exact ⟨body, t, rfl, front, kind⟩

/-- The tokens of items behind commas, taken apart. -/
theorem commaTail_of_spell {α : Type} {C : α → Prop} {slots : α → List Slot} {items : List α}
    {ts : List Token} (each : ∀ a ∈ items, C a)
    (spell : Spell (items.flatMap fun a => .fixed .comma :: slots a) ts) :
    ∃ more : List (Token × α), more.map (·.2) = items ∧
      CommaTail (fun a used => C a ∧ Spell (slots a) used) more ts := by
  induction items generalizing ts with
  | nil => exact ⟨[], rfl, spell_nil.1 spell⟩
  | cons a items ih =>
    obtain ⟨canonical, others⟩ := List.forall_mem_cons.1 each
    obtain ⟨comma, tail, rfl, isComma, behind⟩ := spell_lexeme.1 spell
    obtain ⟨used, tail, rfl, spellItem, spellTail⟩ := spell_append.1 behind
    obtain ⟨more, rfl, commas⟩ := ih others spellTail
    exact ⟨(comma, a) :: more, rfl, used, tail, rfl, isComma, ⟨canonical, spellItem⟩, commas⟩

theorem commaTail_of_lexemes {args : List Expr} {ts : List Token} (each : ∀ a ∈ args, a.Canonical)
    (same : ts.map Token.lexeme = args.flatMap fun e => .fixed .comma :: e.lexemes) :
    ∃ more, more.map (·.2) = args ∧ CommaTail (Expr.SpeltBy 0) more ts := by
  have slots : (args.flatMap fun e => Slot.fixed .comma :: e.slots) =
      ofLexemes (args.flatMap fun e => .fixed .comma :: e.lexemes) := by
    simp only [ofLexemes, List.map_flatMap]
    rfl
  have spell : Spell (args.flatMap fun e => Slot.fixed .comma :: e.slots) ts := by
    rw [slots]
    exact spell_ofLexemes.2 same
  obtain ⟨more, rfl, commas⟩ := commaTail_of_spell each spell
  exact ⟨more, rfl, commas.mono fun e used related _ => .of_spell related.1 related.2⟩

/-- The text of an expression is that of the tokens that spell it. -/
theorem spelt_text {least : Nat} {e : Expr} {used : List Token} (spelt : e.SpeltBy least used) :
    e.src.text = used.flatMap Token.spelling := by
  rw [spelt.canonical.text_eq, spelt.lexemes, Lexeme.joined, List.flatMap_map]
  rfl

/-- Expressions that are the same but for places have the same text. -/
theorem text_of_unplaced {a b : Expr} (same : a.unplaced = b.unplaced) :
    a.src.text = b.src.text := by
  rw [← Excerpt.unplaced_text, ← Expr.unplaced_src, same, Expr.unplaced_src,
    Excerpt.unplaced_text]

/-- Arguments that are the same but for places have the same texts. -/
theorem argTexts_of_unplaced {list more : List (Token × Expr)}
    (same : list.map (fun next => (next.1, next.2.unplaced)) =
      more.map fun next => (next.1, next.2.unplaced)) :
    (list.flatMap fun next => next.1.spelling ++ next.2.src.text) =
      more.flatMap fun next => next.1.spelling ++ next.2.src.text := by
  have byPlaces (args : List (Token × Expr)) :
      (args.flatMap fun next => next.1.spelling ++ next.2.src.text) =
        (args.map fun next => (next.1, next.2.unplaced)).flatMap fun next =>
          next.1.spelling ++ next.2.src.text := by
    simp [List.flatMap_map]
  rw [byPlaces list, same, ← byPlaces more]

/-! ## Operands -/

section Operand

variable {inner : Parse Expr} {bound n : Nat} {t : Token}

theorem primary_simple (other : t.kind.isCallable → ∀ p ∈ rest.head?, p.kind ≠ .openParen) :
    primary inner bound (t :: rest) = primary.simple inner t rest := by
  cases rest with
  | nil => rfl
  | cons paren more =>
    have noCall : ¬ (t.kind.isCallable ∧ paren.kind = .openParen) := fun ⟨callable, opens⟩ =>
      other callable paren rfl opens
    rw [primary, if_neg noCall]

/-- The reader of what stands in parentheses is complete for fewer than `n` tokens. -/
def CompleteBelow (n : Nat) (inner : Parse Expr) : Prop :=
  Completes inner (fun e used => e.SpeltBy 0 used ∧ used.length < n) Expr.unplaced
    (TokenKind.endsExpr ·)

theorem group_completes (completes : CompleteBelow n inner) {src : Excerpt} {body : Expr}
    {used : List Token} (spelt : (Expr.group src body).SpeltBy 8 used) (fits : used.length ≤ n) :
    ∃ e, primary inner bound (used ++ rest) = .ok (e, rest) ∧
      e.unplaced = (Expr.group src body).unplaced := by
  have text := spelt_text spelt
  simp only [Expr.src] at text
  cases spelt.canonical with
  | group canonical _ =>
    obtain ⟨opening, tail, rfl, opens, -, inside⟩ := lexemes_cons spelt.lexemes.symm
    obtain ⟨bodyUsed, closing, rfl, bodyLexemes, closes⟩ := lexemes_concat inside
    have bodySpelt : body.SpeltBy 0 bodyUsed := ⟨canonical, Nat.zero_le _, bodyLexemes.symm⟩
    have less : bodyUsed.length < n := by
      simp only [List.length_cons, List.length_append] at fits
      omega
    have follow : ∀ t ∈ (closing :: rest).head?, t.kind.endsExpr := by
      simp [closes, TokenKind.endsExpr]
    obtain ⟨e, run, same⟩ := completes body bodyUsed (closing :: rest) ⟨bodySpelt, less⟩ follow
    refine ⟨.group (opening.excerpt ++ e.src ++ closing.excerpt) e, ?_, ?_⟩
    · have simple : primary inner bound (opening :: (bodyUsed ++ [closing]) ++ rest) =
          group inner opening (bodyUsed ++ closing :: rest) := by
        rw [List.cons_append, primary_simple (by simp [opens, TokenKind.isCallable])]
        simp [primary.simple, opens]
      rw [simple]
      refine bind_ok.2 ⟨e, _, run, ?_⟩
      exact bind_ok.2 ⟨closing, rest, expect_ok.2 ⟨rfl, closes⟩, pure_ok.2 ⟨rfl, rfl⟩⟩
    · have srcSame : (opening.excerpt ++ e.src ++ closing.excerpt).unplaced = src.unplaced := by
        rw [Excerpt.unplaced_eq_iff, text]
        simp [text_of_unplaced same, spelt_text bodySpelt]
      simp only [Expr.unplaced, same, srcSame]

/-- The arguments of a call are read up to its closing parenthesis. -/
theorem args_completes (completes : CompleteBelow n inner) (le : n ≤ bound) {arg : Expr}
    {args : List Expr} (each : ∀ a ∈ arg :: args, a.Canonical) {used : List Token}
    (lexemes : used.map Token.lexeme = Expr.lexemes.argLexemes (arg :: args))
    (fits : used.length < n) {closing : Token} (closes : closing.kind = .closeParen) :
    ∃ e list, unlessNext .closeParen (commaList inner bound) (used ++ closing :: rest) =
        .ok (some (e, list), closing :: rest) ∧
      (e :: list.map (·.2)).map Expr.unplaced = (arg :: args).map Expr.unplaced ∧
      ∀ src : Excerpt, (argsExcerpt (src ++ e.src) list).text =
        src.text ++ used.flatMap Token.spelling := by
  obtain ⟨canonical, others⟩ := List.forall_mem_cons.1 each
  simp only [Expr.lexemes.argLexemes, Expr.moreLexemes_eq] at lexemes
  obtain ⟨argUsed, tail, rfl, argLexemes, moreLexemes⟩ := List.map_eq_append_iff.1 lexemes
  obtain ⟨more, rfl, commas⟩ := commaTail_of_lexemes others moreLexemes
  have argSpelt : arg.SpeltBy 0 argUsed := ⟨canonical, Nat.zero_le _, argLexemes.symm⟩
  simp only [List.length_append] at fits
  have bounded := commas.mono fun e used related less =>
    (⟨related, by omega⟩ : e.SpeltBy 0 used ∧ used.length < n)
  have items : Completes inner (fun e used => e.SpeltBy 0 used ∧ used.length < n)
      Expr.unplaced fun kind => kind = .comma ∨ kind = .closeParen := by
    intro e used after related follow
    refine completes e used after related fun t member => ?_
    rcases follow t member with same | same <;> simp [same, TokenKind.endsExpr]
  have moreFits : more.length ≤ bound := by
    have := commas.length_le
    omega
  have closed : ∀ t ∈ (closing :: rest).head?, t.kind = .closeParen := by simp [closes]
  obtain ⟨e, list, run, same, sameMore⟩ :=
    commaList_completes items ⟨argSpelt, by omega⟩ bounded moreFits closed
  refine ⟨e, list, ?_, ?_, fun src => ?_⟩
  · obtain ⟨head, others, rfl, starts⟩ := argSpelt.starts
    refine unlessNext_ok.2 (.inr ⟨(e, list), rfl, by simpa using run, ?_⟩)
    intro t member stops
    obtain rfl : head = t := by simpa using member
    simp [stops, TokenKind.startsExpr] at starts
  · have others : list.map (·.2.unplaced) = more.map (·.2.unplaced) := by
      simpa [Function.comp_def] using congrArg (List.map Prod.snd) sameMore
    simpa [same, Function.comp_def] using others
  · rw [argsExcerpt_text, argTexts_of_unplaced sameMore, (commaTail_args commas).2.2]
    simp [text_of_unplaced same, spelt_text argSpelt, Lexeme.joined, List.flatMap_map]
    rfl

theorem call_completes (completes : CompleteBelow n inner) (le : n ≤ bound) {src : Excerpt}
    {callee : Text} {args : List Expr} {used : List Token}
    (spelt : (Expr.call src callee args).SpeltBy 8 used) (fits : used.length ≤ n) :
    ∃ e, primary inner bound (used ++ rest) = .ok (e, rest) ∧
      e.unplaced = (Expr.call src callee args).unplaced := by
  have text := spelt_text spelt
  simp only [Expr.src] at text
  cases spelt.canonical with
  | call name each _ =>
    obtain ⟨first, tail, rfl, word, spelling, behind⟩ := lexemes_cons spelt.lexemes.symm
    obtain ⟨opening, tail, rfl, opens, -, inside⟩ := lexemes_cons behind
    obtain ⟨argsUsed, closing, rfl, argsLexemes, closes⟩ := lexemes_concat inside
    have callable : first.kind.isCallable := word ▸ TokenKind.ofWord_isCallable name
    have start : primary inner bound (first :: opening :: (argsUsed ++ [closing]) ++ rest) =
        call inner bound first opening (argsUsed ++ closing :: rest) := by
      simp only [List.cons_append, List.append_assoc, List.nil_append, primary]
      rw [if_pos ⟨callable, opens⟩]
    have runClosing : expect .closeParen .argumentsEnd (closing :: rest) = .ok (closing, rest) :=
      expect_ok.2 ⟨rfl, closes⟩
    rw [start]
    cases args with
    | nil =>
      obtain rfl := List.map_eq_nil_iff.1 argsLexemes
      refine ⟨.call (first.excerpt ++ opening.excerpt ++ closing.excerpt) first.spelling [], ?_, ?_⟩
      · refine bind_ok.2 ⟨none, _, unlessNext_ok.2 (.inl ⟨rfl, rfl, closing, rfl, closes⟩), ?_⟩
        exact bind_ok.2 ⟨closing, rest, runClosing, pure_ok.2 ⟨rfl, rfl⟩⟩
      · have srcSame : (first.excerpt ++ opening.excerpt ++ closing.excerpt).unplaced =
            src.unplaced := by
          rw [Excerpt.unplaced_eq_iff, text]
          simp
        simp only [Expr.unplaced, srcSame, spelling, Lexeme.word]
    | cons arg args =>
      simp only [List.length_cons, List.length_append] at fits
      obtain ⟨e, list, runArgs, sameArgs, argsText⟩ :=
        args_completes completes le each argsLexemes (by omega) closes
      refine ⟨.call (argsExcerpt (first.excerpt ++ opening.excerpt ++ e.src) list ++
        closing.excerpt) first.spelling (e :: list.map (·.2)), ?_, ?_⟩
      · refine bind_ok.2 ⟨some (e, list), closing :: rest, runArgs, ?_⟩
        exact bind_ok.2 ⟨closing, rest, runClosing, pure_ok.2 ⟨rfl, rfl⟩⟩
      · have srcSame : (argsExcerpt (first.excerpt ++ opening.excerpt ++ e.src) list ++
            closing.excerpt).unplaced = src.unplaced := by
          rw [Excerpt.unplaced_eq_iff, Excerpt.text_append, argsText, text]
          simp
        simp only [Expr.unplaced, srcSame, spelling, Lexeme.word, Expr.unplacedAll_eq, sameArgs]

theorem simple_completes {e : Expr} {used : List Token} (spelt : e.SpeltBy 8 used)
    (noCall : ∀ src callee args, e ≠ .call src callee args)
    (noGroup : ∀ src body, e ≠ .group src body)
    (follow : ∀ t ∈ rest.head?, t.kind ≠ .openParen) :
    ∃ e', primary inner bound (used ++ rest) = .ok (e', rest) ∧ e'.unplaced = e.unplaced := by
  have rank := spelt.rank
  have simple (t : Token) : primary inner bound ([t] ++ rest) = primary.simple inner t rest :=
    primary_simple fun _ => follow
  cases spelt.canonical with
  | intLiteral =>
    obtain ⟨t, rfl, kind, spelling⟩ := lexemes_single spelt.lexemes.symm
    refine ⟨.intLiteral t.excerpt t.spelling.toFloat, by rw [simple, primary.simple, kind], ?_⟩
    simp [Expr.unplaced, Excerpt.unplaced, spelling]
  | floatLiteral =>
    obtain ⟨t, rfl, kind, spelling⟩ := lexemes_single spelt.lexemes.symm
    refine ⟨.floatLiteral t.excerpt t.spelling.toFloat, by rw [simple, primary.simple, kind], ?_⟩
    simp [Expr.unplaced, Excerpt.unplaced, spelling]
  | stringLiteral =>
    obtain ⟨t, rfl, kind, spelling⟩ := lexemes_single spelt.lexemes.symm
    refine ⟨.stringLiteral t.excerpt (unquoted t.spelling), by rw [simple, primary.simple, kind], ?_⟩
    simp [Expr.unplaced, Excerpt.unplaced, spelling]
  | identifier name =>
    obtain ⟨t, rfl, kind, spelling⟩ := lexemes_single spelt.lexemes.symm
    have own : t.kind = .identifier := kind.trans (TokenKind.ofWord_eq_identifier name)
    refine ⟨.identifier t.excerpt t.spelling, by rw [simple, primary.simple, own], ?_⟩
    simp [Expr.unplaced, Excerpt.unplaced, spelling]
  | call => exact absurd rfl (noCall _ _ _)
  | group => exact absurd rfl (noGroup _ _)
  | assign => simp [Expr.rank] at rank
  | binary => exact absurd (Nat.le_of_succ_le rank) (Nat.not_le.2 Expr.rank_binary_lt)
  | prefixed => simp [Expr.rank] at rank

/-- What can follow an operand is neither a parenthesis nor the sign of an assignment. -/
theorem endsOperand_other {kind : TokenKind} (ends : kind.endsOperand) :
    kind ≠ .openParen ∧ kind ≠ .assign ∧ kind ≠ .elseWord := by
  cases kind <;> simp_all [TokenKind.endsOperand, TokenKind.endsExpr]

theorem primary_completes (completes : CompleteBelow n inner) (le : n ≤ bound) :
    Completes (primary inner bound) (fun e used => e.SpeltBy 8 used ∧ used.length ≤ n)
      Expr.unplaced (TokenKind.endsOperand ·) := by
  rintro e used rest ⟨spelt, fits⟩ follow
  by_cases call : ∃ src callee args, e = .call src callee args
  · obtain ⟨src, callee, args, rfl⟩ := call
    exact call_completes completes le spelt fits
  by_cases group : ∃ src body, e = .group src body
  · obtain ⟨src, body, rfl⟩ := group
    exact group_completes completes spelt fits
  refine simple_completes spelt ?_ ?_ fun t member => (endsOperand_other (follow t member)).1
  · exact fun src callee args same => call ⟨src, callee, args, same⟩
  · exact fun src body same => group ⟨src, body, same⟩

/-- An operand that no prefix operator stands before does not start like one. -/
theorem primary_starts {e : Expr} {used : List Token} (spelt : e.SpeltBy 8 used) :
    ∃ t tail, used = t :: tail ∧ t.kind.prefixOp? = none := by
  have rank := spelt.rank
  cases spelt.canonical with
  | intLiteral | floatLiteral | stringLiteral | group =>
    obtain ⟨t, tail, rfl, kind, -⟩ := lexemes_cons spelt.lexemes.symm
    exact ⟨t, tail, rfl, kind ▸ rfl⟩
  | identifier name =>
    obtain ⟨t, tail, rfl, kind, -⟩ := lexemes_cons spelt.lexemes.symm
    refine ⟨t, tail, rfl, ?_⟩
    rw [kind, Lexeme.word, TokenKind.ofWord_eq_identifier name]
    rfl
  | call name =>
    obtain ⟨t, tail, rfl, kind, -⟩ := lexemes_cons spelt.lexemes.symm
    refine ⟨t, tail, rfl, ?_⟩
    have callable : t.kind.isCallable := kind ▸ TokenKind.ofWord_isCallable name
    revert callable
    cases t.kind <;> simp [TokenKind.isCallable, TokenKind.prefixOp?]
  | assign => simp [Expr.rank] at rank
  | binary => exact absurd (Nat.le_of_succ_le rank) (Nat.not_le.2 Expr.rank_binary_lt)
  | prefixed => simp [Expr.rank] at rank

theorem prefixed_completes {primary : Parse Expr} {follow : TokenKind → Prop}
    (completes : Completes primary (fun e used => e.SpeltBy 8 used ∧ used.length ≤ n)
      Expr.unplaced follow) (bound : Nat) :
    Completes (prefixed primary bound)
      (fun e used => e.SpeltBy 7 used ∧ used.length ≤ n ∧ used.length ≤ bound) Expr.unplaced
      follow := by
  induction bound with
  | zero =>
    rintro e used rest ⟨spelt, -, fits⟩ -
    obtain ⟨t, tail, rfl, -⟩ := spelt.starts
    simp at fits
  | succ bound ih =>
    rintro e used rest ⟨spelt, fits, fitsBound⟩ follows
    by_cases simple : 8 ≤ e.rank
    · have tight : e.SpeltBy 8 used := ⟨spelt.canonical, simple, spelt.lexemes⟩
      obtain ⟨e', run, same⟩ := completes e used rest ⟨tight, fits⟩ follows
      obtain ⟨t, tail, rfl, noOp⟩ := primary_starts tight
      refine ⟨e', bind_ok.2 ⟨none, t :: tail ++ rest, ?_, run⟩, same⟩
      exact take?_ok.2 (.inr ⟨rfl, rfl, by simpa using noOp⟩)
    · have text := spelt_text spelt
      have rank := spelt.rank
      cases spelt.canonical with
      | @prefixed src op operand canonical operandRank _ =>
        obtain ⟨sign, tail, rfl, kind, -, lexemes⟩ := lexemes_cons spelt.lexemes.symm
        have operandSpelt : operand.SpeltBy 7 tail := ⟨canonical, operandRank, lexemes.symm⟩
        simp only [List.length_cons] at fits fitsBound
        obtain ⟨e', run, same⟩ :=
          ih operand tail rest ⟨operandSpelt, by omega, by omega⟩ follows
        refine ⟨.prefixed (sign.excerpt ++ e'.src) op e', ?_, ?_⟩
        · refine bind_ok.2 ⟨some (op, sign), tail ++ rest, ?_, ?_⟩
          · exact take?_ok.2 (.inl ⟨op, sign, rfl, rfl, prefixOp?_eq_some.2 kind⟩)
          · exact bind_ok.2 ⟨e', rest, run, pure_ok.2 ⟨rfl, rfl⟩⟩
        · have srcSame : (sign.excerpt ++ e'.src).unplaced = src.unplaced := by
            simp only [Expr.src] at text
            rw [Excerpt.unplaced_eq_iff, text]
            simp [text_of_unplaced same, spelt_text operandSpelt]
          simp only [Expr.unplaced, same, srcSame]
      | assign => simp [Expr.rank] at rank
      | binary => exact absurd rank (Nat.not_le.2 Expr.rank_binary_lt)
      | _ => simp [Expr.rank] at simple

end Operand

/-! ## Chains and assignments -/

/-- What follows an operand of a chain is an operator, or what follows the chain. -/
theorem chain_follow {links : List (BinaryOp × Expr)} {used : List Token}
    (same : used.map Token.lexeme = Expr.chainLexemes links)
    (follow : ∀ t ∈ rest.head?, t.kind.endsExpr) :
    ∀ t ∈ (used ++ rest).head?, t.kind.endsOperand := by
  cases links with
  | nil =>
    obtain rfl := List.map_eq_nil_iff.1 same
    intro t member
    have ends := follow t member
    revert ends
    cases t.kind <;> simp [TokenKind.endsExpr, TokenKind.endsOperand]
  | cons link more =>
    obtain ⟨sign, tail, rfl, kind, -⟩ := lexemes_cons same
    simp [kind, TokenKind.endsOperand]

/-- The loop attaches the links that it reads to the tree so far, one after the other. -/
theorem operators_completes {operand : Parse Expr} {n : Nat}
    (completes : Completes operand (fun e used => e.SpeltBy 7 used ∧ used.length ≤ n)
      Expr.unplaced (TokenKind.endsOperand ·))
    {links : List (BinaryOp × Expr)} (each : ∀ link ∈ links, link.2.Canonical ∧ 7 ≤ link.2.rank)
    {bound : Nat} {left : Expr} {used : List Token}
    (same : used.map Token.lexeme = Expr.chainLexemes links) (fits : used.length ≤ n)
    (fitsBound : used.length ≤ bound) (follow : ∀ t ∈ rest.head?, t.kind.endsExpr) :
    ∃ e, operators operand bound left (used ++ rest) = .ok (e, rest) ∧
      e.unplaced = left.unplaced.rebuilt links := by
  induction links generalizing bound left used with
  | nil =>
    obtain rfl := List.map_eq_nil_iff.1 same
    cases bound with
    | zero => exact ⟨left, pure_ok.2 ⟨rfl, rfl⟩, rfl⟩
    | succ bound =>
      refine ⟨left, bind_ok.2 ⟨none, rest, take?_ok.2 (.inr ⟨rfl, rfl, ?_⟩), pure_ok.2 ⟨rfl, rfl⟩⟩, rfl⟩
      intro t member
      have ends := follow t member
      revert ends
      cases t.kind <;> simp [TokenKind.endsExpr, TokenKind.binaryOp?]
  | cons link more ih =>
    obtain ⟨op, right⟩ := link
    obtain ⟨⟨canonical, rank⟩, others⟩ := List.forall_mem_cons.1 each
    obtain ⟨sign, tail, rfl, kind, spelling, behind⟩ := lexemes_cons same
    obtain ⟨rightUsed, moreUsed, rfl, rightLexemes, moreLexemes⟩ := List.map_eq_append_iff.1 behind
    simp only [List.length_cons, List.length_append] at fits fitsBound
    obtain ⟨bound, rfl⟩ : ∃ n, bound = n + 1 := ⟨bound - 1, by omega⟩
    have rightSpelt : right.SpeltBy 7 rightUsed := ⟨canonical, rank, rightLexemes.symm⟩
    obtain ⟨right', runRight, sameRight⟩ := completes right rightUsed (moreUsed ++ rest)
      ⟨rightSpelt, by omega⟩ (chain_follow moreLexemes follow)
    have loop : ∃ e, operators operand bound (left.attach op sign.excerpt right')
        (moreUsed ++ rest) = .ok (e, rest) ∧
          e.unplaced = (left.attach op sign.excerpt right').unplaced.rebuilt more :=
      ih others moreLexemes (by omega) (by omega)
    obtain ⟨e, run, rebuilt⟩ := loop
    refine ⟨e, ?_, ?_⟩
    · refine bind_ok.2 ⟨some (op, sign), rightUsed ++ (moreUsed ++ rest), ?_, ?_⟩
      · exact take?_ok.2 (.inl ⟨op, sign, rfl, by simp, binaryOp?_eq_some.2 kind⟩)
      · exact bind_ok.2 ⟨right', moreUsed ++ rest, runRight, run⟩
    · have signSame : sign.excerpt.unplaced = ⟨(TokenKind.operator op).spelling, default⟩ := by
        rw [Excerpt.unplaced, Token.excerpt_text, spelling, Lexeme.fixed]
      rw [rebuilt, Expr.attach_unplaced, signSame, sameRight]
      rfl

/-- An operand does not start like an assignment. -/
theorem operand_no_assignment {e : Expr} {used : List Token} (spelt : e.SpeltBy 7 used)
    (follow : ∀ t ∈ rest.head?, t.kind ≠ .assign) {target sign : Token} {more : List Token}
    (front : used ++ rest = target :: sign :: more) :
    ¬ (target.kind = .identifier ∧ sign.kind = .assign) := by
  rintro ⟨isName, isSign⟩
  have rank := spelt.rank
  have first {l : Lexeme} {ls : List Lexeme} (same : e.lexemes = l :: ls) :
      l.kind = .identifier := by
    obtain ⟨t, tail, rfl, kind, -⟩ := lexemes_cons (spelt.lexemes.symm.trans same)
    obtain ⟨rfl, -⟩ := List.cons.inj front
    rw [← kind, isName]
  cases spelt.canonical with
  | intLiteral | floatLiteral | stringLiteral | group => exact absurd (first rfl) (by simp)
  | prefixed => exact absurd (first rfl) (by rename_i op _ _ _ _; cases op <;> simp [PrefixOp.kind])
  | identifier =>
    obtain ⟨t, rfl, -⟩ := lexemes_single spelt.lexemes.symm
    obtain ⟨-, rfl⟩ := List.cons.inj front
    exact follow sign rfl isSign
  | call =>
    obtain ⟨t, tail, rfl, -, -, behind⟩ := lexemes_cons spelt.lexemes.symm
    obtain ⟨paren, tail, rfl, opens, -⟩ := lexemes_cons behind
    obtain ⟨-, same⟩ := List.cons.inj front
    obtain ⟨rfl, -⟩ := List.cons.inj same
    rw [opens] at isSign
    cases isSign
  | assign => simp [Expr.rank] at rank
  | binary => exact absurd rank (Nat.not_le.2 Expr.rank_binary_lt)

/-- A chain is spelt by its first operand and then by its links. -/
theorem chain_front {e : Expr} {used : List Token} (spelt : e.SpeltBy 1 used) :
    ∃ first more, used = first ++ more ∧ e.firstOperand.SpeltBy 7 first ∧
      more.map Token.lexeme = Expr.chainLexemes e.chain := by
  obtain ⟨canonical, rank⟩ := spelt.canonical.firstOperand spelt.rank
  obtain ⟨first, more, rfl, firstLexemes, moreLexemes⟩ :=
    List.map_eq_append_iff.1 (spelt.lexemes.symm.trans e.lexemes_chain)
  exact ⟨first, more, rfl, ⟨canonical, rank, firstLexemes.symm⟩, moreLexemes⟩

/-- A chain does not start like an assignment. -/
theorem chain_no_assignment {e : Expr} {used : List Token} (spelt : e.SpeltBy 1 used)
    (follow : ∀ t ∈ rest.head?, t.kind.endsExpr) :
    assignmentStart? (used ++ rest) = .ok (none, used ++ rest) := by
  obtain ⟨first, more, rfl, firstSpelt, moreLexemes⟩ := chain_front spelt
  refine assignmentStart?_ok.2 (.inr ⟨rfl, rfl, fun target sign tail front => ?_⟩)
  rw [List.append_assoc] at front
  refine operand_no_assignment firstSpelt (fun t member => ?_) front
  exact (endsOperand_other (chain_follow moreLexemes follow t member)).2.1

theorem chain_completes {operand : Parse Expr} {n : Nat}
    (completes : Completes operand (fun e used => e.SpeltBy 7 used ∧ used.length ≤ n)
      Expr.unplaced (TokenKind.endsOperand ·))
    {e : Expr} {used : List Token} (spelt : e.SpeltBy 1 used) (fits : used.length ≤ n)
    (follow : ∀ t ∈ rest.head?, t.kind.endsExpr) :
    ∃ e', (do operators operand n (← operand)) (used ++ rest) = .ok (e', rest) ∧
      e'.unplaced = e.unplaced := by
  obtain ⟨firstUsed, moreUsed, rfl, firstSpelt, moreLexemes⟩ := chain_front spelt
  simp only [List.length_append] at fits
  obtain ⟨first, runFirst, sameFirst⟩ := completes e.firstOperand firstUsed (moreUsed ++ rest)
    ⟨firstSpelt, by omega⟩ (chain_follow moreLexemes follow)
  have links : ∀ link ∈ e.chain, link.2.Canonical ∧ 7 ≤ link.2.rank := by
    intro link member
    obtain ⟨canonical, rank, -⟩ := spelt.canonical.chain link member
    exact ⟨canonical, rank⟩
  have loop : ∃ e', operators operand n first (moreUsed ++ rest) = .ok (e', rest) ∧
      e'.unplaced = first.unplaced.rebuilt e.chain :=
    operators_completes completes links moreLexemes (by omega) (by omega) follow
  obtain ⟨e', run, same⟩ := loop
  refine ⟨e', ?_, by rw [same, sameFirst, Expr.rebuilt_chain spelt.canonical]⟩
  rw [List.append_assoc]
  exact bind_ok.2 ⟨first, moreUsed ++ rest, runFirst, run⟩

theorem expressionWithin_completes (bound : Nat) :
    Completes (expressionWithin bound) (fun e used => e.SpeltBy 0 used ∧ used.length ≤ bound)
      Expr.unplaced (TokenKind.endsExpr ·) := by
  induction bound with
  | zero =>
    rintro e used rest ⟨spelt, fits⟩ -
    obtain ⟨t, tail, rfl, -⟩ := spelt.starts
    simp at fits
  | succ bound ih =>
    rintro e used rest ⟨spelt, fits⟩ follow
    by_cases chain : 1 ≤ e.rank
    · have below : CompleteBelow (bound + 1) (expressionWithin bound) := by
        rintro a taken after ⟨aSpelt, less⟩ ends
        exact ih a taken after ⟨aSpelt, Nat.le_of_lt_succ less⟩ ends
      have operand : Completes (prefixed (primary (expressionWithin bound) (bound + 1)) (bound + 1))
          (fun e used => e.SpeltBy 7 used ∧ used.length ≤ bound + 1) Expr.unplaced
          (TokenKind.endsOperand ·) := by
        rintro a taken after ⟨aSpelt, aFits⟩ ends
        exact prefixed_completes (primary_completes below (Nat.le_refl _)) (bound + 1) a taken after
          ⟨aSpelt, aFits, aFits⟩ ends
      have chained : e.SpeltBy 1 used := ⟨spelt.canonical, chain, spelt.lexemes⟩
      obtain ⟨e', run, same⟩ := chain_completes operand chained fits follow
      exact ⟨e', bind_ok.2 ⟨none, _, chain_no_assignment chained follow, run⟩, same⟩
    · have text := spelt_text spelt
      cases spelt.canonical with
      | @assign src target value name canonical _ =>
        obtain ⟨first, tail, rfl, kind, spelling, behind⟩ := lexemes_cons spelt.lexemes.symm
        obtain ⟨sign, tail, rfl, isSign, -, valueLexemes⟩ := lexemes_cons behind
        have valueSpelt : value.SpeltBy 0 tail := ⟨canonical, Nat.zero_le _, valueLexemes.symm⟩
        simp only [List.length_cons] at fits
        obtain ⟨value', run, same⟩ := ih value tail rest ⟨valueSpelt, by omega⟩ follow
        refine ⟨.assign (first.excerpt ++ sign.excerpt ++ value'.src) first.spelling value', ?_, ?_⟩
        · have isName : first.kind = .identifier :=
            kind.trans (TokenKind.ofWord_eq_identifier name)
          have start : assignmentStart? (first :: sign :: tail ++ rest) =
              .ok (some (first, sign), tail ++ rest) :=
            assignmentStart?_ok.2 (.inl ⟨first, sign, rfl, rfl, isName, isSign⟩)
          refine bind_ok.2 ⟨some (first, sign), tail ++ rest, start, ?_⟩
          exact bind_ok.2 ⟨value', rest, run, pure_ok.2 ⟨rfl, rfl⟩⟩
        · have srcSame : (first.excerpt ++ sign.excerpt ++ value'.src).unplaced = src.unplaced := by
            simp only [Expr.src] at text
            rw [Excerpt.unplaced_eq_iff, text]
            simp [text_of_unplaced same, spelt_text valueSpelt]
          simp only [Expr.unplaced, same, srcSame, spelling, Lexeme.word]
      | _ => simp [Expr.rank] at chain

theorem expression_completes :
    Completes expression (Expr.SpeltBy 0) Expr.unplaced (TokenKind.endsExpr ·) := by
  intro e used rest spelt follow
  have fits : used.length ≤ (used ++ rest).length := by simp
  exact expressionWithin_completes _ e used rest ⟨spelt, fits⟩ follow

end ProcCheck.Grammar
