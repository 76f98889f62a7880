import ProcCheck.Proofs.Grammar.Meeting

/-!
# Levels of operators

Another way to read a chain is level by level, the loosest outermost: each level reads operands of
the tighter levels with its own operators between them. The tree is the one that `Expr.attach` gives
by hanging one operator after the other into what stands before it.
-/

namespace ProcCheck

/-- The operator of some levels that a kind of token stands for. -/
def TokenKind.binaryOpOf? (levels : List Nat) (kind : TokenKind) : Option BinaryOp :=
  kind.binaryOp?.filter (·.level ∈ levels)

theorem TokenKind.binaryOpOf?_eq_some {levels : List Nat} {kind : TokenKind} {op : BinaryOp} :
    binaryOpOf? levels kind = some op ↔ kind.binaryOp? = some op ∧ op.level ∈ levels := by
  simp [binaryOpOf?, Option.filter_eq_some_iff]

theorem TokenKind.binaryOpOf?_eq_none {levels : List Nat} {kind : TokenKind} :
    binaryOpOf? levels kind = none ↔ ∀ op, kind.binaryOp? = some op → op.level ∉ levels := by
  simp [binaryOpOf?, Option.filter_eq_none_iff]

theorem TokenKind.binaryOpOf?_mono {levels more : List Nat} {kind : TokenKind}
    (subset : levels ⊆ more) (ends : binaryOpOf? more kind = none) :
    binaryOpOf? levels kind = none :=
  binaryOpOf?_eq_none.2 fun op isOp member => binaryOpOf?_eq_none.1 ends op isOp (subset member)

namespace Grammar

/-- Operators of a level and their operands after the expression `left`. -/
def levelLoop (level : Nat) (operand : Parse Expr) : Nat → Expr → Parse Expr
  | 0, left => return left
  | bound + 1, left => do
    match ← take? (TokenKind.binaryOpOf? [level]) with
    | none => return left
    | some (op, sign) =>
      let right ← operand
      levelLoop level operand bound
        (.binary (left.src ++ sign.excerpt ++ right.src) op left right)

/-- A chain of the operators of some levels, the loosest first. -/
def levels (operand : Parse Expr) (bound : Nat) : List Nat → Parse Expr
  | [] => operand
  | level :: tighter => do
    let left ← levels operand bound tighter
    levelLoop level (levels operand bound tighter) bound left

/-- As `operators`, with the operators of some levels only. -/
def operatorsOf (ls : List Nat) (operand : Parse Expr) : Nat → Expr → Parse Expr
  | 0, left => return left
  | bound + 1, left => do
    match ← take? (TokenKind.binaryOpOf? ls) with
    | none => return left
    | some (op, sign) =>
      let right ← operand
      operatorsOf ls operand bound (left.attach op sign.excerpt right)

variable {α β : Type} {ts rest : List Token} {t : Token} {operand chain : Parse Expr}
  {n bound level : Nat} {ls tighter : List Nat} {left : Expr} {op : BinaryOp}

/-! ## Rounds -/

/-- What is read behind a reader may be exchanged on what that reader leaves. -/
theorem bind_congr {p : Parse α} {f g : α → Parse β}
    (same : ∀ a rest, p ts = .ok (a, rest) → f a rest = g a rest) : (p >>= f) ts = (p >>= g) ts := by
  cases run : p ts with
  | error r => rw [bind_of_error run, bind_of_error run]
  | ok result => rw [bind_of_ok run, bind_of_ok run, same _ _ run]

/-- A reader in front of another may be exchanged. -/
theorem bind_of_eq {p q : Parse α} {f : α → Parse β} (same : p ts = q rest) :
    (p >>= f) ts = (q >>= f) rest := by
  simp only [bind, StateT.bind, same]

/-- Either there is a next token of some kind, or there is none. -/
theorem head_cases (ts : List Token) (p : TokenKind → Prop) :
    (∃ t rest, ts = t :: rest ∧ p t.kind) ∨ ∀ t ∈ ts.head?, ¬ p t.kind := by
  cases ts with
  | nil => exact .inr (by simp)
  | cons t rest =>
    by_cases next : p t.kind
    · exact .inl ⟨t, rest, rfl, next⟩
    · exact .inr (by simpa using next)

/-- Either a value is found for the next token, or there is none. -/
theorem value_cases (ts : List Token) (f : TokenKind → Option α) :
    (∃ t rest a, ts = t :: rest ∧ f t.kind = some a) ∨ ∀ t ∈ ts.head?, f t.kind = none := by
  obtain ⟨t, rest, same, found⟩ | none := head_cases ts fun kind => f kind ≠ none
  · obtain ⟨a, found⟩ := Option.ne_none_iff_exists'.1 found
    exact .inl ⟨t, rest, a, same, found⟩
  · exact .inr fun t member => Classical.not_not.1 (none t member)

theorem operatorsOf_stop (none : ∀ t ∈ ts.head?, TokenKind.binaryOpOf? ls t.kind = none) :
    operatorsOf ls operand bound left ts = .ok (left, ts) := by
  cases bound with
  | zero => rfl
  | succ bound =>
    rw [operatorsOf, bind_of_ok (take?_ok.2 (.inr ⟨rfl, rfl, none⟩))]
    rfl

theorem operatorsOf_take (takes : TokenKind.binaryOpOf? ls t.kind = some op) :
    operatorsOf ls operand (bound + 1) left (t :: rest) = (operand >>= fun right =>
      operatorsOf ls operand bound (left.attach op t.excerpt right)) rest := by
  rw [operatorsOf, bind_of_ok (take?_ok.2 (.inl ⟨op, t, rfl, rfl, takes⟩))]

theorem levelLoop_stop (none : ∀ t ∈ ts.head?, TokenKind.binaryOpOf? [level] t.kind = none) :
    levelLoop level operand bound left ts = .ok (left, ts) := by
  cases bound with
  | zero => rfl
  | succ bound =>
    rw [levelLoop, bind_of_ok (take?_ok.2 (.inr ⟨rfl, rfl, none⟩))]
    rfl

theorem levelLoop_take (takes : TokenKind.binaryOpOf? [level] t.kind = some op) :
    levelLoop level operand (bound + 1) left (t :: rest) = (operand >>= fun right =>
      levelLoop level operand bound
        (.binary (left.src ++ t.excerpt ++ right.src) op left right)) rest := by
  rw [levelLoop, bind_of_ok (take?_ok.2 (.inl ⟨op, t, rfl, rfl, takes⟩))]

/-- Every operator is of one of the levels. -/
theorem operatorsOf_range :
    operatorsOf (List.range 6) operand bound = operators operand bound := by
  have all : TokenKind.binaryOpOf? (List.range 6) = TokenKind.binaryOp? := by
    funext kind
    cases isOp : kind.binaryOp? with
    | none => simp [TokenKind.binaryOpOf?, isOp]
    | some op =>
      exact TokenKind.binaryOpOf?_eq_some.2 ⟨isOp, List.mem_range.2 (Nat.lt_succ_of_le op.level_le)⟩
  induction bound with
  | zero => rfl
  | succ bound ih =>
    funext left
    rw [operatorsOf, all, ih]
    rfl

/-! ## One level -/

/-- A reader of operands, which hold together more tightly than any operator, on at most `n`
tokens. -/
structure IsOperand (n : Nat) (operand : Parse Expr) : Prop where
  rank : ∀ ts e rest, operand ts = .ok (e, rest) → 7 ≤ e.rank
  progress : ∀ ts e rest, ts.length ≤ n → operand ts = .ok (e, rest) → rest.length < ts.length

/-- What stands around the right end of a tree: tighter operators go into that end, and an operator
of the level goes on top. -/
structure Around (level : Nat) (wrap : Expr → Expr) : Prop where
  into : ∀ (e : Expr) (op : BinaryOp) sign right, level < op.level →
    (wrap e).attach op sign right = wrap (e.attach op sign right)
  rank : ∀ e : Expr, level + 2 ≤ e.rank → level + 1 ≤ (wrap e).rank

theorem Around.id : Around level fun e => e :=
  ⟨fun _ _ _ _ _ => rfl, fun _ => Nat.le_of_succ_le⟩

theorem Around.operator {sign : Excerpt} (same : op.level = level)
    (rank : level + 1 ≤ left.rank) : Around level fun e => left.attach op sign e := by
  subst same
  refine ⟨fun e tighter sign' right lt => Expr.attach_attach lt, fun e _ => ?_⟩
  rw [Expr.attach_of_le_rank rank]
  exact Nat.le_refl _

/-- Reading the tighter operators into the right end of a tree and then those of a level gives what
reading all of them in turn gives. -/
theorem levelLoop_eq (below : ∀ m ∈ tighter, level < m) (isOperand : IsOperand n operand)
    (chained : ∀ ts, ts.length ≤ n → chain ts = (operand >>= operatorsOf tighter operand n) ts)
    {wrap : Expr → Expr} {right : Expr} {inner outer : Nat} (around : Around level wrap)
    (rank : level + 2 ≤ right.rank) (short : ts.length ≤ n) (innerFits : ts.length ≤ inner)
    (outerFits : ts.length ≤ outer) (fits : ts.length ≤ bound) :
    (operatorsOf tighter operand inner right >>= fun right =>
      levelLoop level chain outer (wrap right)) ts =
      operatorsOf (level :: tighter) operand bound (wrap right) ts := by
  induction bound generalizing ts wrap right inner outer with
  | zero =>
    obtain rfl := List.length_eq_zero_iff.1 (Nat.le_zero.1 fits)
    rw [bind_of_ok (operatorsOf_stop (by simp)), levelLoop_stop (by simp)]
    rfl
  | succ bound ih =>
    obtain ⟨t, rest, op, rfl, takes⟩ | ends :=
        value_cases ts (TokenKind.binaryOpOf? (level :: tighter))
    · obtain ⟨isOp, ofLevels⟩ := TokenKind.binaryOpOf?_eq_some.1 takes
      simp only [List.length_cons] at short innerFits outerFits fits
      obtain ⟨inner, rfl⟩ := Nat.exists_eq_add_of_le' (Nat.le_of_add_left_le innerFits)
      obtain ⟨outer, rfl⟩ := Nat.exists_eq_add_of_le' (Nat.le_of_add_left_le outerFits)
      rw [operatorsOf_take takes]
      rcases List.mem_cons.1 ofLevels with same | tight
      · -- an operator of the level: the tighter ones end here and start again behind it
        have tighterEnds : ∀ u ∈ (t :: rest).head?, TokenKind.binaryOpOf? tighter u.kind = none := by
          simp only [List.head?_cons, Option.mem_def, Option.some.injEq, forall_eq']
          refine TokenKind.binaryOpOf?_eq_none.2 fun other isOther member => ?_
          obtain rfl := Option.some.inj (isOp.symm.trans isOther)
          exact absurd same (Nat.ne_of_gt (below _ member))
        have ofLevel : TokenKind.binaryOpOf? [level] t.kind = some op :=
          TokenKind.binaryOpOf?_eq_some.2 ⟨isOp, by simp [same]⟩
        rw [bind_of_ok (operatorsOf_stop tighterEnds), levelLoop_take ofLevel,
          bind_of_eq (chained rest (by omega)), bind_assoc]
        refine bind_congr fun last left run => ?_
        have shorter := isOperand.progress _ _ _ (by omega) run
        have lastRank := isOperand.rank _ _ _ run
        have onTop := around.rank right rank
        have levelLe := op.level_le
        have attached (e : Expr) : (wrap right).attach op t.excerpt e =
            .binary ((wrap right).src ++ t.excerpt ++ e.src) op (wrap right) e :=
          Expr.attach_of_le_rank (by omega)
        simp only [← attached]
        exact ih (Around.operator same onTop) (by omega) (by omega) (by omega) (by omega) (by omega)
      · -- a tighter operator: it goes into the right end
        have ofTighter : TokenKind.binaryOpOf? tighter t.kind = some op :=
          TokenKind.binaryOpOf?_eq_some.2 ⟨isOp, tight⟩
        rw [bind_of_eq (operatorsOf_take ofTighter), bind_assoc]
        refine bind_congr fun last left run => ?_
        have shorter := isOperand.progress _ _ _ (by omega) run
        have tighter := below _ tight
        have attachedRank : min right.rank (op.level + 1) ≤ (right.attach op t.excerpt last).rank :=
          Expr.le_rank_attach
        rw [around.into _ _ _ _ tighter]
        exact ih around (by omega) (by omega) (by omega) (by omega) (by omega)
    · have tighterEnds : ∀ t ∈ ts.head?, TokenKind.binaryOpOf? tighter t.kind = none :=
        fun t member => TokenKind.binaryOpOf?_mono (List.subset_cons_self _ _) (ends t member)
      have levelEnds : ∀ t ∈ ts.head?, TokenKind.binaryOpOf? [level] t.kind = none :=
        fun t member => TokenKind.binaryOpOf?_mono (by simp) (ends t member)
      rw [operatorsOf_stop ends, bind_of_ok (operatorsOf_stop tighterEnds),
        levelLoop_stop levelEnds]

/-- The tree of a chain does not depend on whether it is read level by level. -/
theorem levels_eq (isOperand : IsOperand n operand) (sorted : ls.Pairwise (· < ·))
    (levelLe : ∀ l ∈ ls, l ≤ 5) (short : ts.length ≤ n) :
    levels operand n ls ts = (operand >>= operatorsOf ls operand n) ts := by
  induction ls generalizing ts with
  | nil =>
    rw [levels]
    cases run : operand ts with
    | error r => rw [bind_of_error run]
    | ok result =>
      have noOperator : ∀ t ∈ result.2.head?, TokenKind.binaryOpOf? [] t.kind = none :=
        fun t _ => TokenKind.binaryOpOf?_eq_none.2 fun op _ => List.not_mem_nil
      rw [bind_of_ok run, operatorsOf_stop noOperator]
  | cons level tighter ih =>
    obtain ⟨below, sortedTighter⟩ := List.pairwise_cons.1 sorted
    obtain ⟨here, tighterLe⟩ := List.forall_mem_cons.1 levelLe
    have chained : ∀ ts, ts.length ≤ n →
        levels operand n tighter ts = (operand >>= operatorsOf tighter operand n) ts :=
      fun ts fits => ih sortedTighter tighterLe fits
    rw [levels, bind_of_eq (chained ts short), bind_assoc]
    refine bind_congr fun first left run => ?_
    have shorter := isOperand.progress _ _ _ short run
    have rank := isOperand.rank _ _ _ run
    exact levelLoop_eq below isOperand chained Around.id (by omega) (by omega) (by omega) (by omega)
      (by omega)

/-! ## Operands -/

theorem primary_rank {inner : Parse Expr} {e : Expr}
    (run : primary inner bound ts = .ok (e, rest)) : e.rank = 8 := by
  have ofSimple {t : Token} {ts : List Token}
      (run : primary.simple inner t ts = .ok (e, rest)) : e.rank = 8 := by
    simp only [primary.simple] at run
    split at run
    case h_5 =>
      obtain ⟨body, mid, -, runRest⟩ := bind_ok.1 run
      obtain ⟨closing, mid', -, same⟩ := bind_ok.1 runRest
      obtain ⟨rfl, -⟩ := pure_ok.1 same
      rfl
    case h_6 => exact absurd run refuse_ok
    all_goals
      cases run
      rfl
  simp only [primary] at run
  split at run
  next => exact absurd run refuse_ok
  next t rest' =>
    split at run
    next paren more =>
      split at run
      next =>
        obtain ⟨args, mid, -, runRest⟩ := bind_ok.1 run
        obtain ⟨closing, mid', -, same⟩ := bind_ok.1 runRest
        cases args <;> obtain ⟨rfl, -⟩ := pure_ok.1 same <;> rfl
      next => exact ofSimple run
    next => exact ofSimple run

theorem prefixed_rank {inner : Parse Expr} {e : Expr} {signs : Nat}
    (run : prefixed (primary inner bound) signs ts = .ok (e, rest)) : 7 ≤ e.rank := by
  cases signs with
  | zero => exact Nat.le_trans (by decide) (Nat.le_of_eq (primary_rank run).symm)
  | succ signs =>
    obtain ⟨sign?, mid, -, runRest⟩ := bind_ok.1 run
    cases sign? with
    | none => exact Nat.le_trans (by decide) (Nat.le_of_eq (primary_rank runRest).symm)
    | some sign =>
      obtain ⟨operand, mid', -, same⟩ := bind_ok.1 runRest
      obtain ⟨rfl, -⟩ := pure_ok.1 same
      exact Nat.le_refl 7

theorem prefixed_isOperand {inner : Parse Expr} (meets : Meets n [.expression] inner) :
    IsOperand (n + 1) (prefixed (primary inner (n + 1)) (n + 1)) where
  rank _ _ _ run := prefixed_rank run
  progress _ _ _ short run :=
    (prefixed_meets (primary_meets meets (Nat.le_succ n)) (Nat.le_refl _)).progress rfl short run

/-- An expression that is no assignment, read level by level. -/
theorem levels_range {inner : Parse Expr} (meets : Meets n [.expression] inner)
    (short : ts.length ≤ n + 1) :
    levels (prefixed (primary inner (n + 1)) (n + 1)) (n + 1) (List.range 6) ts =
      (prefixed (primary inner (n + 1)) (n + 1) >>=
        operators (prefixed (primary inner (n + 1)) (n + 1)) (n + 1)) ts := by
  rw [levels_eq (prefixed_isOperand meets) (by decide) (by decide) short, operatorsOf_range]

end Grammar

end ProcCheck
