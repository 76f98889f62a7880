import ProcCheck.Proofs.Grammar.Mirrors

/-!
# Expressions by place

The readers of expressions that have a cursor mirror those that take tokens from the front of a list.
What a node covers is the text and the span that the list readers put together piece by piece.
-/

namespace ProcCheck

namespace Cursor

variable {tokens ts rest used : List Token} {last t : Token} {c n bound : Nat}

/-! ## Expressions -/

/-- The same expression, read from the tokens that it covers. -/
abbrev Covers (e a : Expr) (used : List Token) : Prop :=
  a = e ∧ used ≠ [] ∧ e.src = Token.excerpts used

/-- A node that covers the tokens that it is read from. -/
theorem Covers.node (make : Excerpt → Expr) (makes : ∀ src, (make src).src = src) {src : Excerpt}
    (moved : used ≠ []) (covers : src = Token.excerpts used) :
    Covers (make src) (make (Token.excerpts used)) used :=
  ⟨by rw [covers], moved, by rw [makes, covers]⟩

section Expressions

variable {operand chain : Grammar.Parse Expr} {operand' chain' : Cursor Expr}

/-- Each round of a level covers the tokens from the beginning of the chain on. -/
theorem levelLoop_matches {level rounds : Nat} (mirrors : Mirrors n Covers chain chain')
    {before : List Token} {left : Expr} (started : before ≠ [])
    (src : left.src = Token.excerpts before) (ahead : Ahead tokens last c (before ++ ts))
    (short : ts.length < n) (fits : ts.length ≤ bound) (enough : ts.length < rounds) :
    Matches last (fun e a used => Covers e a (before ++ used)) (c + before.length) ts
      (Grammar.levelLoop level chain bound left ts)
      (levelLoop c level chain' rounds left tokens (c + before.length)) := by
  induction rounds generalizing bound before left ts with
  | zero => exact absurd enough (Nat.not_lt_zero _)
  | succ rounds ih =>
    have next := ahead.after.peek
    obtain ⟨t, rest, op, rfl, takes⟩ | ends :=
        Grammar.value_cases ts (TokenKind.binaryOpOf? [level])
    · simp only [List.length_cons] at short fits enough
      obtain ⟨bound, rfl⟩ : ∃ less, bound = less + 1 := ⟨bound - 1, by omega⟩
      have operator : TokenKind.binaryOpOf? [level] ((t :: rest).head?.getD last).kind = some op :=
        takes
      rw [Grammar.levelLoop_take takes, levelLoop, bind_of_ok next, operator]
      refine .behind ahead.after ((mirrors ahead.after.step (by omega)).bind ?_)
      rintro _ right used rest split ⟨rfl, moved, rightSrc⟩
      have read : Ahead tokens last c (before ++ t :: used ++ rest) := by
        rw [List.append_assoc, List.cons_append, ← split]
        exact ahead
      have place : c + before.length + 1 + used.length = c + (before ++ t :: used).length := by
        simp only [List.length_append, List.length_cons]
        omega
      have covers : left.src ++ t.excerpt ++ right.src = Token.excerpts (before ++ t :: used) := by
        rw [Token.excerpts_append started (List.cons_ne_nil t used), Token.excerpts_cons moved, src,
          rightSrc, Excerpt.append_assoc]
      have shorter := congrArg List.length split
      rw [List.length_append] at shorter
      rw [place, bind_of_ok read.textFrom, bind_of_ok (read.spanFrom (by simp)), ← covers]
      have further := ih (by simp) (show (Expr.binary _ op left right).src = _ from covers) read
        (by omega) (show rest.length ≤ bound by omega) (by omega)
      exact further.mono fun e a more whole => by simpa using whole
    · have noOperator : TokenKind.binaryOpOf? [level] (ts.head?.getD last).kind = none := by
        cases ts with
        | nil => rw [List.head?_nil, Option.getD_none, of_decide_eq_true ahead.isEnd]; rfl
        | cons t rest => exact ends t rfl
      rw [Grammar.levelLoop_stop ends, levelLoop, bind_of_ok next, noOperator]
      exact .read [] rfl rfl rfl ⟨rfl, by simpa using started, by simp [src]⟩

theorem levels_mirrors (mirrors : Mirrors n Covers operand operand') (fits : n ≤ bound + 1)
    {rounds : Nat} (enough : n ≤ rounds) (ls : List Nat) :
    Mirrors n Covers (Grammar.levels operand bound ls) (levels operand' rounds ls) := by
  induction ls with
  | nil => exact mirrors
  | cons level tighter ih =>
    intro tokens last c ts ahead short
    rw [Grammar.levels, levels, bind_of_ok place_eq]
    refine (ih ahead short).bind ?_
    rintro _ left used rest split ⟨rfl, moved, src⟩
    subst split
    rw [List.length_append] at short
    exact levelLoop_matches ih moved src ahead (by omega) (by omega) (by omega)

theorem prefixed_mirrors (mirrors : Mirrors n Covers operand operand') (fits : n ≤ bound + 1)
    {rounds : Nat} (enough : n ≤ rounds) :
    Mirrors n Covers (Grammar.prefixed operand bound) (prefixed operand' rounds) := by
  induction rounds generalizing n bound with
  | zero => exact .of_zero (by omega)
  | succ rounds ih =>
    intro tokens last c ts ahead short
    rw [prefixed, bind_of_ok ahead.check]
    obtain ⟨t, rest, op, rfl, isOp⟩ | ends := Grammar.value_cases ts TokenKind.prefixOp?
    · simp only [List.length_cons] at short
      obtain ⟨bound, rfl⟩ : ∃ less, bound = less + 1 := ⟨bound - 1, by omega⟩
      have sign : (if t.kind = .bang then PrefixOp.not else .negate) = op := by
        rw [Grammar.prefixOp?_eq_some] at isOp
        rw [isOp]
        cases op <;> rfl
      rw [if_pos (by simp [isOp]), Grammar.prefixed,
        Grammar.bind_of_ok (Grammar.take?_ok.2 (.inl ⟨op, t, rfl, rfl, isOp⟩))]
      refine .excerpted ahead (.behind ahead ?_)
      rw [sign]
      have inner := ih (mirrors.fewer (Nat.sub_le n 1)) (show n - 1 ≤ bound + 1 by omega) (by omega)
      refine (inner ahead.step (Nat.lt_sub_of_add_lt short)).bind ?_
      rintro _ e used rest - ⟨rfl, moved, src⟩
      refine .pure ⟨by simp, .node (.prefixed · op e) (fun _ => rfl) (by simp) ?_⟩
      rw [List.append_nil, Token.excerpts_cons moved, src]
    · have same : Grammar.prefixed operand bound ts = operand ts := by
        cases bound with
        | zero => rfl
        | succ bound =>
          rw [Grammar.prefixed, Grammar.bind_of_ok (Grammar.take?_ok.2 (.inr ⟨rfl, rfl, ends⟩))]
      rw [same, if_neg (by simpa [Option.any_eq_true] using ends)]
      exact mirrors ahead short

variable {inner : Grammar.Parse Expr} {inner' : Cursor Expr}

/-- What arguments behind commas cover. -/
theorem Listed.argsExcerpt {list : Expr × List (Token × Expr)} {args : List Expr}
    (listed : Listed Covers list args used) (start : Excerpt) :
    args = list.1 :: list.2.map (·.2) ∧ used ≠ [] ∧
      Grammar.argsExcerpt (start ++ list.1.src) list.2 = start ++ Token.excerpts used := by
  induction listed generalizing start with
  | one covers =>
    obtain ⟨rfl, moved, src⟩ := covers
    exact ⟨rfl, moved, congrArg (start ++ ·) src⟩
  | @more b next a used others comma items as covers _ ih =>
    obtain ⟨rfl, moved, src⟩ := covers
    obtain ⟨rfl, further, whole⟩ := ih (start ++ a.src ++ comma.excerpt)
    refine ⟨rfl, by simp, ?_⟩
    rw [Token.excerpts_append moved (List.cons_ne_nil comma others), Token.excerpts_cons further,
      ← src, ← Excerpt.append_assoc, ← Excerpt.append_assoc, ← whole]
    rfl

theorem call_matches (mirrors : Mirrors n Covers inner inner') (fits : n ≤ bound + 1)
    {rounds : Nat} (enough : n ≤ rounds) {callee opening : Token}
    (ahead : Ahead tokens last c (callee :: opening :: rest)) (short : rest.length < n) :
    Matches last Covers c (callee :: opening :: rest) (Grammar.call inner bound callee opening rest)
      (call inner' rounds tokens c) := by
  refine .excerpted ahead (.behind ahead (.behind ahead.step ?_))
  have args := commaList_mirrors fits enough mirrors fun _ _ _ covers => covers.2.1
  refine (unlessNext_mirrors args ahead.step.step short).bind ?_
  intro found args used more split related
  subst split
  refine (consume_mirrors ahead.step.step.after (Nat.lt_succ_self _)).bind ?_
  rintro closing _ _ rest' - ⟨-, rfl⟩
  obtain ⟨rfl, rfl, rfl⟩ | ⟨⟨first, others⟩, args, rfl, rfl, listed⟩ := related
  · refine .pure ⟨by simp, .node (.call · callee.spelling []) (fun _ => rfl) (by simp) ?_⟩
    simp [Token.excerpts_cons, Excerpt.append_assoc]
  · obtain ⟨rfl, moved, src⟩ := Listed.argsExcerpt listed (callee.excerpt ++ opening.excerpt)
    refine .pure ⟨by simp, .node (.call · callee.spelling _) (fun _ => rfl) (by simp) ?_⟩
    have whole : Grammar.argsExcerpt (callee.excerpt ++ opening.excerpt ++ first.src) others = _ := src
    change Grammar.argsExcerpt (callee.excerpt ++ opening.excerpt ++ first.src) others ++
      closing.excerpt = _
    rw [whole]
    simp [Token.excerpts_cons, Token.excerpts_append, moved, Excerpt.append_assoc]

theorem group_matches (mirrors : Mirrors n Covers inner inner') {opening : Token}
    (ahead : Ahead tokens last c (opening :: rest)) (short : rest.length < n) :
    Matches last Covers c (opening :: rest) (Grammar.group inner opening rest)
      (group inner' tokens c) := by
  refine .excerpted ahead (.behind ahead ?_)
  refine (mirrors ahead.step short).bind ?_
  rintro _ e used more split ⟨rfl, moved, src⟩
  subst split
  refine (consume_mirrors ahead.step.after (Nat.lt_succ_self _)).bind ?_
  rintro closing _ _ rest' - ⟨-, rfl⟩
  refine .pure ⟨by simp, .node (.group · e) (fun _ => rfl) (by simp) ?_⟩
  simp [Token.excerpts_cons, Token.excerpts_append, moved, src, Excerpt.append_assoc]

theorem leaf_matches (ahead : Ahead tokens last c (t :: rest)) (make : Excerpt → Expr)
    (makes : ∀ src, (make src).src = src) :
    Matches last Covers c (t :: rest) (.ok (make t.excerpt, rest)) (leaf make tokens c) := by
  have span : spanFrom c tokens (c + 1) = .ok (t.span, c + 1) := by
    have spans := Ahead.spanFrom (show Ahead tokens last c ([t] ++ rest) from ahead)
      (List.cons_ne_nil t [])
    rwa [Token.excerpts_singleton] at spans
  refine .read [t] rfl rfl ?_ ⟨rfl, by simp, by simp [makes]⟩
  rw [leaf, bind_of_ok place_eq, bind_of_ok ahead.advance, bind_of_ok span]
  rfl

/-- The reserved word and a name are an operand if they are called; the last token ahead is not, as
an end token is behind it. -/
theorem primary_mirrors (mirrors : Mirrors n Covers inner inner') (fits : n ≤ bound + 1)
    {rounds : Nat} (enough : n ≤ rounds) :
    Mirrors (n + 1) Covers (Grammar.primary inner bound) (primary inner' rounds) := by
  intro tokens last c ts ahead short
  rw [primary, bind_of_ok ahead.peek]
  cases ts with
  | nil =>
    have noCall : (pure last.kind.isCallable <&&> isBehind .openParen) tokens c = .ok (false, c) := by
      rw [of_decide_eq_true ahead.isEnd]
      rfl
    have next (k : TokenKind → Bool) (f : Bool → Cursor Expr) :
        (check k >>= f) tokens c = f false tokens c := bind_of_ok ahead.check
    refine .refused rfl ?_
    rw [List.head?_nil, Option.getD_none, bind_of_ok noCall]
    simp only [next, Bool.false_eq_true, if_false]
    rfl
  | cons t rest =>
    have called : (pure t.kind.isCallable <&&> isBehind .openParen) tokens c =
        .ok (t.kind.isCallable && rest.head?.any (·.kind = .openParen), c) :=
      and_of_ok rfl fun _ => ahead.isBehind (by decide)
    have next (k : TokenKind → Bool) (f : Bool → Cursor Expr) :
        (check k >>= f) tokens c = f (k t.kind) tokens c := bind_of_ok ahead.check
    have fits' := Nat.lt_of_succ_lt_succ short
    rw [List.head?_cons, Option.getD_some, bind_of_ok called]
    by_cases calls : t.kind.isCallable ∧ ∃ opening ∈ rest.head?, opening.kind = .openParen
    · obtain ⟨callable, opening, member, opens⟩ := calls
      obtain ⟨more, rfl⟩ := List.head?_eq_some_iff.1 member
      have taken : Grammar.primary inner bound (t :: opening :: more) =
          Grammar.call inner bound t opening more := if_pos ⟨callable, opens⟩
      rw [taken, if_pos (by simp [callable, opens])]
      exact call_matches mirrors fits enough ahead (Nat.lt_of_succ_lt fits')
    · have simple : Grammar.primary inner bound (t :: rest) =
          Grammar.primary.simple inner t rest := by
        cases rest with
        | nil => rfl
        | cons opening more =>
          exact if_neg fun both => calls ⟨both.1, opening, rfl, both.2⟩
      rw [simple, if_neg (by simpa [Option.any_eq_true] using calls)]
      unfold Grammar.primary.simple
      cases kind : t.kind <;>
        simp only [next, kind, decide_true, decide_false, if_true, if_false, reduceCtorEq,
          Bool.false_eq_true]
      case identifier => exact leaf_matches ahead (.identifier · t.spelling) fun _ => rfl
      case intLiteral => exact leaf_matches ahead (.intLiteral · t.spelling.toFloat) fun _ => rfl
      case floatLiteral =>
        exact leaf_matches ahead (.floatLiteral · t.spelling.toFloat) fun _ => rfl
      case stringLiteral =>
        exact leaf_matches ahead (.stringLiteral · (Grammar.unquoted t.spelling)) fun _ => rfl
      case openParen => exact group_matches mirrors ahead fits'
      all_goals exact .refused rfl rfl

theorem expression_step {rounds : Nat}
    (mirrors : Mirrors n Covers (Grammar.expressionWithin bound) (expression rounds))
    (fits : n ≤ bound + 1) (enough : n ≤ rounds) :
    Mirrors (n + 1) Covers (Grammar.expressionWithin (bound + 1)) (expression (rounds + 1)) := by
  intro tokens last c ts ahead short
  have assigns : (check (· = .identifier) <&&> isBehind .assign) tokens c =
      .ok (ts.head?.any (·.kind = .identifier) && ts.tail.head?.any (·.kind = .assign), c) := by
    refine and_of_ok ahead.check fun isName => ?_
    cases ts with
    | nil => cases isName
    | cons t rest => exact ahead.isBehind (by decide)
  rw [expression, bind_of_ok assigns, Grammar.expressionWithin]
  by_cases isAssign : ∃ target sign rest, ts = target :: sign :: rest ∧
      target.kind = .identifier ∧ sign.kind = .assign
  · obtain ⟨target, sign, rest, rfl, isName, isSign⟩ := isAssign
    simp only [List.length_cons] at short
    rw [if_pos (by simp [isName, isSign]), Grammar.bind_of_ok (Grammar.assignmentStart?_ok.2
      (.inl ⟨target, sign, rfl, rfl, isName, isSign⟩))]
    refine .excerpted ahead (.behind ahead (.behind ahead.step ?_))
    refine (mirrors ahead.step.step (by omega)).bind ?_
    rintro _ value used rest' - ⟨rfl, moved, src⟩
    refine .pure ⟨by simp, .node (.assign · target.spelling value) (fun _ => rfl) (by simp) ?_⟩
    simp [Token.excerpts_cons, moved, src, Excerpt.append_assoc]
  · have none : ∀ target sign rest, ts = target :: sign :: rest →
        ¬ (target.kind = .identifier ∧ sign.kind = .assign) :=
      fun target sign rest same both => isAssign ⟨target, sign, rest, same, both⟩
    have noAssign : ¬ (ts.head?.any (·.kind = .identifier) &&
        ts.tail.head?.any (·.kind = .assign)) := by
      cases ts with
      | nil => simp
      | cons target rest =>
        cases rest with
        | nil => simp
        | cons sign rest => simpa using none target sign rest rfl
    rw [if_neg noAssign, Grammar.bind_of_ok (Grammar.assignmentStart?_ok.2 (.inr ⟨rfl, rfl, none⟩))]
    have chain := Grammar.levels_range Grammar.expressionWithin_meets
      (Nat.le_trans (Nat.le_of_lt_succ short) fits)
    have single := primary_mirrors mirrors (Nat.le_succ_of_le fits) (Nat.le_succ_of_le enough)
    have operand := prefixed_mirrors single (Nat.succ_le_succ fits) (Nat.succ_le_succ enough)
    change Matches last Covers c ts ((_ >>= Grammar.operators _ _) ts) _
    rw [← chain]
    exact levels_mirrors operand (Nat.succ_le_succ fits) (Nat.succ_le_succ enough) _ ahead short

/-- An assignment is told by the token behind its first one, which is the end token if there is no
other; so are calls. -/
theorem expressionWithin_mirrors {rounds : Nat} (fits : n ≤ bound + 1) (enough : n ≤ rounds) :
    Mirrors n Covers (Grammar.expressionWithin bound) (expression rounds) := by
  induction rounds generalizing n bound with
  | zero => exact .of_zero (by omega)
  | succ rounds ih =>
    cases n with
    | zero => exact .of_zero rfl
    | succ n =>
    cases bound with
    | succ bound => exact expression_step (ih (by omega) (by omega)) (by omega) (by omega)
    | zero =>
      intro tokens last c ts ahead short
      obtain rfl := Nat.le_zero.1 (Nat.le_of_succ_le_succ fits)
      obtain rfl := List.length_eq_zero_iff.1 (Nat.lt_one_iff.1 short)
      have none := ih (Nat.zero_le (0 + 1)) (Nat.zero_le rounds)
      exact expression_step none (Nat.zero_le _) (Nat.zero_le _) ahead short

theorem expression_mirrors {rounds : Nat} (enough : n ≤ rounds) :
    Mirrors n Covers Grammar.expression (expression rounds) := by
  intro tokens last c ts ahead short
  exact expressionWithin_mirrors (Nat.le_refl _) (Nat.le_trans short enough) ahead
    (Nat.lt_succ_self _)

end Expressions

end Cursor

end ProcCheck
